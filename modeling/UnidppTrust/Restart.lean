import UnidppTrust.Run
import UnidppTrust.Reference

namespace UnidppTrust
open Rust Json LineLog
set_option autoImplicit true

variable {V : Vocabulary} {C : Crates V} {seed : Bool} {s : Store V}

/-- The record survives its journal line, and the line is one line. -/
def AuditRecord.RoundTrips (C : Crates V) (r : AuditRecord V) : Prop :=
  (∃ v, C.json.fromStr (r.toJson C.signatif).toString = .ok v ∧
    AuditRecord.fromJson C.signatif v = .ok r) ∧
  10 ∉ bytes (r.toJson C.signatif).toString

theorem AuditRecord.Readable.roundTrips (hC : C.Lawful) (h : AuditRecord.Readable C.signatif r) :
    r.RoundTrips C := by
  refine ⟨⟨_, hC.json.round_trip _ (canonical_record hC.signatif r), ?_⟩, ?_⟩
  · exact record_round_trip hC.signatif h.op h.recordedAt
  · have hno := (journal_oneLine C r).no_newline
    rwa [journal_text] at hno

/-- From its first opening on, whatever is called and however often it restarts, opening a
store's journal gives the store, and every record survives its line. -/
theorem restart_equivalence (C : Crates V) (hC : C.Lawful) (seed : Bool) (ticks : Nat → Tick)
    (hticks : ∀ i, (ticks i).now.InYears ∧ (ticks i).written = true) (s₀ : Store V)
    (hopen : Store.open_ C (some []) seed ticks = .ok s₀) (es : List (Event V))
    (hes : ∀ e ∈ es, e.Admissible C ∧ e.Written) :
    (∃ s, s₀.run C seed es = .ok s ∧ (∀ ticks', Store.open_ C s.journal seed ticks' = .ok s) ∧
      ∀ r ∈ s.log, r.RoundTrips C) ∧
    ∀ r : AuditRecord V, r.op.Decodable C.signatif → r.op.Instants (InYears C.signatif) →
      OnClock C.signatif r.recordedAt → r.RoundTrips C := by
  obtain ⟨h₀, hread₀, hlen⟩ := open_readable hC hticks hopen
  have hs₀ := seeded_of_length hlen
  have hread : ∀ r ∈ journaled (s₀.acknowledged C seed es), r.Readable C.signatif :=
    journaled_readable hC fun e he => (hes e he).1
  obtain ⟨s, hrun, h, hlog⟩ := h₀.run hC (fun r hr => journal_reads hC (hread₀ r hr)) hs₀
    fun r hr => journal_reads hC (hread r hr)
  have hw : ∀ a ∈ s₀.acknowledged C seed es, a.2 = true :=
    acknowledged_forall fun e he s => acks_written s (hes e he).2
  have hlog' := hlog rfl hw
  rw [journaled_eq hw] at h hread
  have hreadable : ∀ r ∈ s.log, r.Readable C.signatif := by
    rw [hlog']
    exact List.forall_mem_append.2 ⟨hread₀, hread⟩
  rw [← hlog'] at h
  have hs : Seeded seed s.log := fun hseed hnil =>
    hs₀ hseed (List.append_eq_nil_iff.1 (hlog'.symm.trans hnil)).1
  refine ⟨⟨s, hrun, fun ticks' => ?_, fun r hr => (hreadable r hr).roundTrips hC⟩, ?_⟩
  · rw [h.reopen hC (fun r hr => journal_reads hC (hreadable r hr)) hs, ← h]
  · intro r hd hi ht
    exact AuditRecord.Readable.roundTrips hC ⟨hd.wellFormed hC.signatif hi, ht⟩

theorem restart_equivalence_seeded :
    ∃ s₀, Store.open_ Reference.crates (some []) true Reference.noon = .ok s₀ ∧
      ∃ s, s₀.run Reference.crates true
          [.call (.registerTrustList "US" none) (Reference.noon 0), .restart Reference.noon,
            .call (.upsertTrustEntry "us" "us-root" 43200 none) (Reference.noon 1)] = .ok s ∧
        (∀ ticks, Store.open_ Reference.crates s.journal true ticks = .ok s) ∧
        ∀ r ∈ s.log, r.RoundTrips Reference.crates := by
  obtain ⟨s₀, h₀⟩ : ∃ s₀, Store.open_ Reference.crates (some []) true Reference.noon = .ok s₀ :=
    ⟨_, rfl⟩
  refine ⟨s₀, h₀, (restart_equivalence Reference.crates Reference.crates_lawful true
    Reference.noon Reference.noon_inYears s₀ h₀ _ fun e he => ?_).1⟩
  have hentry : (Op.upsertTrustEntry "us" "us-root" 43200 none : Op Reference.vocabulary).Decodable
      Reference.signatif :=
    ⟨.obj [("node", .str "us-root"), ("not_before", .str "1970-01-01T12:00:00Z")], rfl⟩
  simp only [List.mem_cons, List.not_mem_nil, or_false] at he
  rcases he with rfl | rfl | rfl
  · exact ⟨⟨trivial, trivial, (Reference.noon_inYears 0).1⟩, rfl⟩
  · exact ⟨fun i => (Reference.noon_inYears i).1, trivial⟩
  · have hi : (Op.upsertTrustEntry "us" "us-root" 43200 none : Op Reference.vocabulary).Instants
        (InYears Reference.signatif) := ⟨(Reference.noon_inYears 1).1, fun t ht => by cases ht⟩
    exact ⟨⟨hentry, hi, (Reference.noon_inYears 1).1⟩, rfl⟩

end UnidppTrust
