import UnidppTrust.Run
import UnidppTrust.Reference

namespace UnidppTrust
open Rust Json LineLog
set_option autoImplicit true

variable {V : Vocabulary} {C : Crates V} {seed : Bool} {s s₀ s₁ : Store V}
  {ws : List (AuditRecord V)}

/-- At every point of the run, opening the journal gives the live store, and each record
acknowledged since `s₀` is in it. -/
def AllJournaled (C : Crates V) (seed : Bool) (s₀ : Store V) (es : List (Event V)) : Prop :=
  ∀ es', es' <+: es → ∃ s, s₀.run C seed es' = .ok s ∧
    (∀ ticks, Store.open_ C s.journal seed ticks = .ok s) ∧
    s.log = s₀.log ++ (s₀.acknowledged C seed es').map (·.1)

/-- The line of the record was written, and reads back. -/
def Lasting (C : Crates V) (a : AuditRecord V × Bool) : Prop :=
  a.2 = true ∧ (journalFormat C).Reads a.1

theorem run_cons (hstep : s.step C seed e = .ok s₁) (es : List (Event V)) :
    s.run C seed (e :: es) = s₁.run C seed es := by
  rw [Store.run, hstep, ok_bind]

theorem acknowledged_cons (hstep : s.step C seed e = .ok s₁) (es : List (Event V)) :
    s.acknowledged C seed (e :: es) = s.acks C e ++ s₁.acknowledged C seed es := by
  rw [Store.acknowledged, hstep]

theorem AllJournaled.tail (h : AllJournaled C seed s (e :: es))
    (hstep : s.step C seed e = .ok s₁) (hlog : s₁.log = s.log ++ (s.acks C e).map (·.1)) :
    AllJournaled C seed s₁ es := by
  intro es' hes'
  obtain ⟨s₂, hrun, hopen, hlog₂⟩ := h (e :: es') (List.cons_prefix_cons.2 ⟨rfl, hes'⟩)
  rw [run_cons hstep] at hrun
  rw [acknowledged_cons hstep, List.map_append, ← List.append_assoc, ← hlog] at hlog₂
  exact ⟨s₂, hrun, hopen, hlog₂⟩

/-- What a run over a journal that reads back acknowledged is written and reads back, if no
opening on the way loses any of it. -/
theorem AllJournaled.lasting (hC : C.Lawful) (hs : s.Sound C s.log)
    (hr : ∀ r ∈ s.log, (journalFormat C).Reads r) (hseeded : Seeded seed s.log)
    (h : AllJournaled C seed s es) : ∀ a ∈ s.acknowledged C seed es, Lasting C a := by
  induction es generalizing s with
  | nil => intro a ha; cases ha
  | cons e es ih =>
    obtain ⟨s₁, hstep, hs₁, hlog₁⟩ := hs.step hC hr hseeded e
    have hlog₁ := hlog₁ rfl
    obtain ⟨s', hrun, hopen, -⟩ := h [e] (List.cons_prefix_cons.2 ⟨rfl, List.nil_prefix⟩)
    rw [run_cons hstep] at hrun
    obtain rfl := Except.ok.inj hrun
    have hfound : s₁.log = s.log ++
        (journaled (s.acks C e)).filterMap (journalFormat C).found := by
      have hopen := hopen fun _ => ⟨⟨0⟩, true⟩
      rw [hs₁.open_found hC, List.filterMap_append, filterMap_found hr] at hopen
      · rw [← Except.ok.inj hopen, storeOf_log]
      · rw [List.filterMap_append, filterMap_found hr]
        exact fun hseed hnil => hseeded hseed (List.append_eq_nil_iff.1 hnil).1
    rw [hlog₁, List.append_cancel_left_eq] at hfound
    have hacks : ∀ a ∈ s.acks C e, Lasting C a :=
      reads_of_journaled (by rw [hfound])
    rw [journaled_eq fun a ha => (hacks a ha).1, ← hlog₁] at hs₁
    have hr₁ : ∀ r ∈ s₁.log, (journalFormat C).Reads r := by
      rw [hlog₁, List.forall_mem_append, List.forall_mem_map]
      exact ⟨hr, fun a ha => (hacks a ha).2⟩
    have hseeded₁ : Seeded seed s₁.log := fun hseed hnil =>
      hseeded hseed (List.append_eq_nil_iff.1 (hlog₁.symm.trans hnil)).1
    rw [acknowledged_cons hstep]
    exact List.forall_mem_append.2 ⟨hacks, ih hs₁ hr₁ hseeded₁ (h.tail hstep hlog₁)⟩

theorem acknowledged_before (h : es' <+: es) :
    s.acknowledged C seed es' <+: s.acknowledged C seed es := by
  induction es' generalizing s es with
  | nil => exact List.nil_prefix
  | cons e es' ih =>
    obtain ⟨rest, rfl⟩ := h
    rw [List.cons_append, Store.acknowledged, Store.acknowledged]
    refine (List.prefix_append_right_inj _).2 ?_
    split
    · exact ih (List.prefix_append es' rest)
    · exact List.prefix_rfl

/-- A store whose journal gives it back has not been given its fixtures a second time. -/
theorem fixtures_found (hC : C.Lawful) {ticks : Nat → Tick}
    (hopen : Store.open_ C (some []) seed ticks = .ok s₀)
    (h : ∀ ticks', Store.open_ C s₀.journal seed ticks' = .ok s₀) :
    s₀.log = (journaled (openingAcks ticks s₀.log)).filterMap (journalFormat C).found := by
  obtain ⟨hs₀, -, -⟩ := open_new hC hopen
  obtain ⟨ticks', hw⟩ : ∃ ticks' : Nat → Tick, ∀ i, (ticks' i).written = true :=
    ⟨fun _ => ⟨⟨0⟩, true⟩, fun _ => rfl⟩
  have h := h ticks'
  by_cases hc : seed = true ∧
      (journaled (openingAcks ticks s₀.log)).filterMap (journalFormat C).found = []
  · rw [hs₀.open_ hC, hc.2, hc.1] at h
    obtain ⟨rs, hrs, hops, -⟩ := seedFixtures_storeOf h
    have hlen := (seedOps_wellFormed hC.signatif hC.fixtures hops).2
    have hj := congrArg Store.journal hrs
    rw [hs₀.journal, storeOf_journal, journaled_opening hw, Option.some_inj,
      List.self_eq_append_right] at hj
    cases rs with
    | nil => cases hlen
    | cons r rs =>
      rw [journal_file_cons, AuditRecord.line] at hj
      simp only [List.append_eq_nil_iff, List.cons_ne_nil, and_false, false_and] at hj
  · rw [hs₀.open_found hC fun hseed hnil => hc ⟨hseed, hnil⟩] at h
    exact (congrArg Store.log (Except.ok.inj h)).symm

/-- In a run with failing journal writes, a reopened store has lost nothing that was acknowledged
exactly when the line of every record was written and reads back. -/
theorem acknowledged_journaled_iff (C : Crates V) (hC : C.Lawful) (seed : Bool)
    (ticks : Nat → Tick) (s₀ : Store V) (hopen : Store.open_ C (some []) seed ticks = .ok s₀)
    (es : List (Event V)) :
    AllJournaled C seed s₀ es ↔
      ∀ a ∈ openingAcks ticks s₀.log ++ s₀.acknowledged C seed es, Lasting C a := by
  obtain ⟨hs₀, hseeds, -⟩ := open_new hC hopen
  have hnew : Seeded seed s₀.log := by
    intro hseed hnil
    have hlen := (seedOps_wellFormed hC.signatif hC.fixtures (hseeds hseed).1).2
    rw [hnil] at hlen
    cases hlen
  have hsound (hlast : ∀ a ∈ openingAcks ticks s₀.log, Lasting C a) :
      s₀.Sound C s₀.log ∧ ∀ r ∈ s₀.log, (journalFormat C).Reads r := by
    have hj := journaled_eq fun a ha => (hlast a ha).1
    rw [openingAcks_map] at hj
    rw [hj] at hs₀
    refine ⟨hs₀, fun r hr => ?_⟩
    rw [← openingAcks_map ticks s₀.log] at hr
    obtain ⟨a, ha, rfl⟩ := List.mem_map.1 hr
    exact (hlast a ha).2
  constructor
  · intro h
    have hlast : ∀ a ∈ openingAcks ticks s₀.log, Lasting C a := by
      obtain ⟨s, hrun, hreopen, -⟩ := h [] List.nil_prefix
      obtain rfl := Except.ok.inj hrun
      refine reads_of_journaled ?_
      rw [openingAcks_map, ← fixtures_found hC hopen hreopen]
    obtain ⟨hs₀, hr⟩ := hsound hlast
    exact List.forall_mem_append.2 ⟨hlast, h.lasting hC hs₀ hr hnew⟩
  · intro h es' hes'
    obtain ⟨hlast, hacks⟩ := List.forall_mem_append.1 h
    obtain ⟨hs₀, hr⟩ := hsound hlast
    have hacks : ∀ a ∈ s₀.acknowledged C seed es', Lasting C a := fun a ha =>
      hacks a ((acknowledged_before hes').subset ha)
    obtain ⟨s, hrun, hs, hlog⟩ := hs₀.run hC hr hnew fun r hr => by
      obtain ⟨a, ha, rfl⟩ := mem_journaled hr
      exact (hacks a ha).2
    have hlog := hlog rfl fun a ha => (hacks a ha).1
    rw [journaled_eq fun a ha => (hacks a ha).1, ← hlog] at hs
    refine ⟨s, hrun, fun ticks' => ?_, hlog⟩
    rw [hs.reopen hC ?_ ?_, ← hs]
    · rw [hlog, List.forall_mem_append, List.forall_mem_map]
      exact ⟨hr, fun a ha => (hacks a ha).2⟩
    · exact fun hseed hnil => hnew hseed (List.append_eq_nil_iff.1 (hlog.symm.trans hnil)).1

def unwritten : Event Reference.vocabulary :=
  .call (.registerTrustList "EU" none) ⟨⟨43200⟩, false⟩

theorem acknowledged_journaled_written :
    AllJournaled Reference.crates false (storeOf Reference.crates [] [])
      [.call (.registerTrustList "EU" none) (Reference.noon 0)] := by
  refine (acknowledged_journaled_iff Reference.crates Reference.crates_lawful false
    Reference.noon _ rfl _).2 fun a ha => ?_
  rw [List.mem_singleton.1 ha]
  exact ⟨rfl, journal_reads Reference.crates_lawful
    ⟨trivial, _, (Reference.noon_inYears 0).1, rfl⟩⟩

/-- The call returns `Ok` and its record is live, but the reopened store has none of it. -/
theorem acknowledged_unwritten :
    ∃ s, Store.open_ Reference.crates (some []) false Reference.noon =
        .ok (storeOf Reference.crates [] []) ∧
      (storeOf Reference.crates [] []).run Reference.crates false [unwritten] = .ok s ∧
      s.log.length = 1 ∧
      Store.open_ Reference.crates s.journal false Reference.noon =
        .ok (storeOf Reference.crates [] []) ∧
      ¬ AllJournaled Reference.crates false (storeOf Reference.crates [] []) [unwritten] := by
  refine ⟨_, rfl, rfl, rfl, rfl, fun hall => ?_⟩
  obtain ⟨s, hrun, hreopen, -⟩ := hall [unwritten] List.prefix_rfl
  obtain rfl := Except.ok.inj hrun
  have hl := congrArg (fun s => s.log.length) (Except.ok.inj (hreopen Reference.noon))
  cases hl

end UnidppTrust
