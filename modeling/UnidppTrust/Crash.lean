import UnidppTrust.Run
import UnidppTrust.Reference

namespace UnidppTrust
open Rust Json LineLog
set_option autoImplicit true

variable {V : Vocabulary} {C : Crates V} {seed : Bool}

/-- A crash that left the lines of `l` and the bytes `p` of the line of `r`, the last of a
journal that a run wrote. -/
structure Crash (C : Crates V) (seed : Bool) (l : List (AuditRecord V)) (r : AuditRecord V)
    (p : Bytes) : Prop where
  run : ∃ s, Reached C seed (fun _ => True) s ∧
    s.journal = some ((journalFormat C).file (l ++ [r]))
  cut : p <+: r.line C.signatif

def remains (C : Crates V) (l : List (AuditRecord V)) (p : Bytes) : Bytes :=
  (journalFormat C).file l ++ p

/-- The completely written records: the last counts if its whole text survived. -/
def completed (C : Crates V) (l : List (AuditRecord V)) (r : AuditRecord V) (p : Bytes) :
    List (AuditRecord V) :=
  if (journalFormat C).text r <+: p then l ++ [r] else l

variable {l : List (AuditRecord V)} {r : AuditRecord V} {p : Bytes}

theorem Crash.tail (h : Crash C seed l r p) :
    ∃ es, (journalFormat C).Tail r p es ∧ l ++ es = completed C l r p := by
  obtain ⟨q, hq⟩ := h.cut
  rw [AuditRecord.line, ← journal_text] at hq
  obtain ⟨es, ht⟩ := tail_of_prefix hq.symm
  refine ⟨es, ht, ?_⟩
  have h₁ := journal_oneLine C r
  rw [completed]
  cases ht with
  | lost =>
    rw [if_neg (fun hpre => h₁.nonempty (List.prefix_nil.1 hpre)), List.append_nil]
  | torn p q h hp hq =>
    rw [if_neg, List.append_nil]
    intro hpre
    have hl := hpre.length_le
    have hq₀ : 0 < q.length := List.length_pos_iff.2 hq
    rw [h, List.length_append] at hl
    omega
  | whole => rw [if_pos List.prefix_rfl]
  | line => rw [if_pos (List.prefix_append _ _)]

theorem fromUtf8_line (r : AuditRecord V) : (fromUtf8 (r.line C.signatif)).isSome := by
  have hn : bytes "\n" = [10] := by decide
  have hl : r.line C.signatif = bytes ((r.toJson C.signatif).toString ++ "\n") := by
    rw [AuditRecord.line, bytes, bytes, String.toList_append, utf8_append, ← hn]
    rfl
  rw [hl, fromUtf8_bytes]
  rfl

theorem recover_cut (hC : C.Lawful) (h : (journalFormat C).Tail r p es) :
    (journalFormat C).recover p =
      if (fromUtf8 p).isSome then .ok (es.filterMap (journalFormat C).found)
      else fail .invalidData := by
  have h₁ := journal_oneLine C r
  cases h with
  | lost => rfl
  | torn p q h hp hq =>
    have hn := h₁.no_newline
    rw [h, List.mem_append, not_or] at hn
    rw [recover_last hn.1 hp, journal_read, readLine_torn hC r h hp hq]
    split <;> rfl
  | whole =>
    obtain ⟨found, hfound⟩ := journal_passes hC r
    rw [recover_last h₁.no_newline h₁.nonempty, hfound, journal_text, fromUtf8_bytes,
      List.filterMap_cons, found_eq hfound]
    cases found <;> rfl
  | line =>
    have hline : (journalFormat C).text r ++ [10] = r.line C.signatif := by
      rw [journal_text, AuditRecord.line]
    rw [hline, ← journal_line, journal_recover hC, journal_line, if_pos (fromUtf8_line r)]

theorem recover_remains (hC : C.Lawful) (tail : Bytes) :
    (journalFormat C).recover (remains C l p ++ tail) =
      ((journalFormat C).recover (p ++ tail) >>= fun fs =>
        .ok (l.filterMap (journalFormat C).found ++ fs)) := by
  rw [remains, List.append_assoc,
    recover_append (fun x _ => journal_oneLine C x) fun x _ => journal_passes hC x]

theorem Crash.recover (hC : C.Lawful) (h : Crash C seed l r p) :
    (journalFormat C).recover (remains C l p) =
      if (fromUtf8 p).isSome then .ok ((completed C l r p).filterMap (journalFormat C).found)
      else fail .invalidData := by
  obtain ⟨es, ht, hes⟩ := h.tail
  have hrec := recover_remains (l := l) (p := p) hC []
  rw [List.append_nil, List.append_nil, recover_cut hC ht] at hrec
  rw [hrec, ← hes, List.filterMap_append]
  split <;> rfl

/-- After a crash the store finds the completely written records exactly when what is left of the
last line is valid UTF-8 and each of these records reads back from its line. -/
theorem torn_tail_iff (C : Crates V) (hC : C.Lawful) (seed : Bool) (l : List (AuditRecord V))
    (r : AuditRecord V) (p : Bytes) (h : Crash C seed l r p) (ticks : Nat → Tick) :
    (∃ s, Store.open_ C (some (remains C l p)) false ticks = .ok s ∧
      s.log = completed C l r p ∧ s.toState = stateOf C (completed C l r p)) ↔
    (fromUtf8 p).isSome ∧ ∀ x ∈ completed C l r p, (journalFormat C).Reads x := by
  rw [open_unseeded, h.recover hC]
  constructor
  · rintro ⟨s, hs, hlog, -⟩
    by_cases hu : (fromUtf8 p).isSome
    · rw [if_pos hu, ok_bind] at hs
      rw [← Except.ok.inj hs, storeOf_log] at hlog
      refine ⟨hu, reads_of_sublist ?_⟩
      rw [hlog]
    · rw [if_neg hu] at hs
      cases hs
  · rintro ⟨hu, hr⟩
    rw [if_pos hu, filterMap_found hr]
    exact ⟨_, rfl, storeOf_log C _ _, storeOf_toState C _ _⟩

def accented : AuditRecord Reference.vocabulary := ⟨1, 43200, .registerTrustList "é" none⟩

theorem crash_accented (h : p <+: accented.line Reference.signatif) :
    Crash Reference.crates false [] accented p := by
  have h₀ : Reached Reference.crates false (fun _ => True) (storeOf Reference.crates [] []) :=
    .opened Reference.noon trivial rfl
  have h₁ := h₀.call accented.op (Reference.noon 0) trivial rfl ⟨_, rfl⟩
  refine ⟨⟨_, h₁, ?_⟩, h⟩
  rw [storeOf_journal, List.nil_append, List.nil_append, journal_line]
  rfl

theorem reads_stamped (op : Op Reference.vocabulary) (h : op.WellFormed Reference.signatif)
    (n : Nat) : (journalFormat Reference.crates).Reads
      (stamped Reference.signatif n (Reference.noon 0) op) :=
  journal_reads Reference.crates_lawful ⟨h, _, (Reference.noon_inYears 0).1, rfl⟩

theorem torn_tail_accented :
    ∃ s, Store.open_ Reference.crates (some (remains Reference.crates []
        ((accented.line Reference.signatif).take 20))) false Reference.noon = .ok s ∧
      s.log = completed Reference.crates [] accented
        ((accented.line Reference.signatif).take 20) ∧
      s.toState = stateOf Reference.crates (completed Reference.crates [] accented
        ((accented.line Reference.signatif).take 20)) := by
  have hnone : completed Reference.crates [] accented
      ((accented.line Reference.signatif).take 20) = [] := if_neg (by decide +kernel)
  refine (torn_tail_iff Reference.crates Reference.crates_lawful false [] accented _
    (crash_accented (List.take_prefix 20 _)) Reference.noon).2 ⟨by decide +kernel, ?_⟩
  rw [hnone]
  exact List.forall_mem_nil _

/-- A cut inside the accented letter makes the journal unreadable. -/
theorem torn_tail_inside_character :
    ∃ p, Crash Reference.crates false [] accented p ∧
      ¬ ∃ s, Store.open_ Reference.crates (some (remains Reference.crates [] p)) false
          Reference.noon = .ok s ∧
        s.log = completed Reference.crates [] accented p ∧
        s.toState = stateOf Reference.crates (completed Reference.crates [] accented p) := by
  have hcrash := crash_accented (List.take_prefix 43 _)
  have hu : (fromUtf8 ((accented.line Reference.signatif).take 43)).isSome = false := by
    decide +kernel
  refine ⟨_, hcrash, ?_⟩
  rintro ⟨s, h, -⟩
  rw [open_unseeded, hcrash.recover Reference.crates_lawful, hu, if_neg Bool.false_ne_true] at h
  cases h

theorem mutateAll_storeOf {log : List (AuditRecord V)} {file : Bytes}
    (hok : (storeOf C log file).Accepts C.signatif calls)
    (hw : ∀ c ∈ calls, c.2.written = true) :
    ∃ fs, (storeOf C log file).mutateAll C.signatif calls =
        storeOf C (log ++ fs) (file ++ (journalFormat C).file fs) ∧ fs.length = calls.length := by
  induction calls generalizing log file with
  | nil =>
    refine ⟨[], ?_, rfl⟩
    rw [Store.mutateAll, Format.file_nil, List.append_nil, List.append_nil]
  | cons c cs ih =>
    obtain ⟨⟨a, hc⟩, hcs⟩ := hok
    have hwc := hw c List.mem_cons_self
    rw [mutate_storeOf hwc ⟨a, hc⟩] at hcs
    obtain ⟨fs, hfs, hlen⟩ := ih hcs fun x hx => hw x (List.mem_cons_of_mem c hx)
    refine ⟨stamped C.signatif log.length c.2 c.1 :: fs, ?_, ?_⟩
    · rw [Store.mutateAll, mutate_storeOf hwc ⟨a, hc⟩, hfs, journal_file_cons,
        List.append_assoc log, List.singleton_append, List.append_assoc file]
    · rw [List.length_cons, List.length_cons, hlen]

theorem open_recorded (hC : C.Lawful) {ticks : Nat → Tick} (hticks : ∀ i, (ticks i).written = true)
    (h : Store.open_ C (some file) seed ticks = .ok s) :
    ∃ found seeds, (journalFormat C).recover file = .ok found ∧
      s = storeOf C (found ++ seeds) (file ++ (journalFormat C).file seeds) ∧
      (seeds = [] ↔ ¬ (seed = true ∧ found = [])) := by
  rw [open_eq] at h
  obtain ⟨found, hfound, h⟩ := bind_eq_ok h
  split at h
  · rename_i hs
    rw [Bool.and_eq_true, List.isEmpty_iff] at hs
    obtain ⟨seeds, rfl, hops, -⟩ := seedFixtures_storeOf h
    have hlen := (seedOps_wellFormed hC.signatif hC.fixtures hops).2
    refine ⟨found, seeds, hfound, by rw [journaled_opening hticks], fun hnil => ?_, fun hno => ?_⟩
    · rw [hnil] at hlen
      cases hlen
    · exact (hno hs).elim
  · rename_i hs
    rw [Bool.and_eq_true, List.isEmpty_iff] at hs
    cases h
    refine ⟨found, [], hfound, ?_, fun _ => hs, fun _ => rfl⟩
    rw [Format.file_nil, List.append_nil, List.append_nil]

theorem session_recorded (hC : C.Lawful) {ticks : Nat → Tick}
    (hticks : ∀ i, (ticks i).written = true)
    (hopen : Store.open_ C (some file) seed ticks = .ok s) (hok : s.Accepts C.signatif calls)
    (hw : ∀ c ∈ calls, c.2.written = true) :
    ∃ found added, (journalFormat C).recover file = .ok found ∧
      s.mutateAll C.signatif calls =
        storeOf C (found ++ added) (file ++ (journalFormat C).file added) ∧
      (added = [] ↔ calls = [] ∧ ¬ (seed = true ∧ found = [])) := by
  obtain ⟨found, seeds, hfound, rfl, hseeds⟩ := open_recorded hC hticks hopen
  obtain ⟨fs, hfs, hlen⟩ := mutateAll_storeOf hok hw
  refine ⟨found, seeds ++ fs, hfound, ?_, ?_⟩
  · rw [hfs, List.append_assoc, List.append_assoc, Format.file_append]
  · rw [List.append_eq_nil_iff, hseeds, and_comm, ← List.length_eq_zero_iff, hlen,
      List.length_eq_zero_iff]

/-- The journal opens, and every opening recovers the records of the store, in order. -/
structure Durable (C : Crates V) (s : Store V) : Prop where
  opens : ∀ ticks, ∃ s', Store.open_ C s.journal false ticks = .ok s'
  recovers : ∀ seed ticks s', Store.open_ C s.journal seed ticks = .ok s' →
    s.log.Sublist s'.log

theorem durable_of_recover {log : List (AuditRecord V)}
    (h : (journalFormat C).recover file = .ok log) : Durable C (storeOf C log file) where
  opens ticks := by
    rw [storeOf_journal, open_unseeded, h]
    exact ⟨_, rfl⟩
  recovers seed ticks s' hs := by
    rw [storeOf_journal, open_eq, h, ok_bind] at hs
    split at hs
    · rename_i hempty
      rw [Bool.and_eq_true, List.isEmpty_iff] at hempty
      rw [storeOf_log, hempty.2]
      exact List.nil_sublist _
    · cases hs
      exact List.Sublist.refl _

theorem Durable.recover {log : List (AuditRecord V)} (h : Durable C (storeOf C log file)) :
    ∃ found, (journalFormat C).recover file = .ok found ∧ log.Sublist found := by
  obtain ⟨s, hs⟩ := h.opens fun _ => ⟨⟨0⟩, true⟩
  have hsub := h.recovers _ _ _ hs
  rw [storeOf_journal, open_unseeded] at hs
  obtain ⟨found, hfound, hs⟩ := bind_eq_ok hs
  cases hs
  exact ⟨found, hfound, hsub⟩

theorem clean_iff (ht : (journalFormat C).Tail r p es) :
    ht.Clean ↔ p = [] ∨ p = r.line C.signatif := by
  rw [Format.Tail.Clean, journal_text, AuditRecord.line]

/-- What is appended behind a whole line is found after what was found before. -/
theorem recover_behind_line (hC : C.Lawful) (ht : (journalFormat C).Tail r p es) (hc : ht.Clean)
    (hfound : (journalFormat C).recover (remains C l p) = .ok found)
    (fs : List (AuditRecord V)) :
    (journalFormat C).recover (remains C l p ++ (journalFormat C).file fs) =
      .ok (found ++ fs.filterMap (journalFormat C).found) := by
  have hclean (fs : List (AuditRecord V)) :
      (journalFormat C).recover (remains C l p ++ (journalFormat C).file fs) =
        .ok (l.filterMap (journalFormat C).found ++ (es.filterMap (journalFormat C).found ++
          fs.filterMap (journalFormat C).found)) := by
    rw [recover_remains hC, recover_clean ht (journal_oneLine C r) (journal_passes hC r) hc
      (fun x _ => journal_oneLine C x) fun x _ => journal_passes hC x, ok_bind]
  have hnil := hclean []
  rw [Format.file_nil, List.append_nil, hfound, List.filterMap_nil, List.append_nil] at hnil
  rw [hclean, Except.ok.inj hnil, List.append_assoc]

/-- What is appended behind an open line loses its first record, and a completed one before it. -/
theorem recover_behind_tail (hC : C.Lawful) (ht : (journalFormat C).Tail r p es)
    (hc : ¬ ht.Clean) (hfound : (journalFormat C).recover (remains C l p) = .ok found)
    (h : (journalFormat C).recover (remains C l p ++ (journalFormat C).file (f :: fs)) =
      .ok found') : found'.length < found.length + (f :: fs).length := by
  have hrec := recover_remains (l := l) (p := p) hC []
  rw [List.append_nil, hfound] at hrec
  obtain ⟨es', -, hes'⟩ := bind_eq_ok hrec.symm
  rw [recover_remains hC] at h
  rcases recover_glued ht (journal_oneLine C r) hc (fun x _ => journal_oneLine C x)
    (fun x _ => journal_passes hC x) (journal_glueFree hC r f) with hg | ⟨x, hg⟩
  · rw [hg] at h
    cases h
    cases hes'
    have hle := List.length_filterMap_le (journalFormat C).found fs
    simp only [List.length_append, List.length_cons]
    omega
  · rw [hg] at h
    cases h

/-- Records added behind a crash last exactly when there are none, or each reads back and the
crash left nothing of the last line or all of it with its newline. -/
theorem Crash.durable_iff (hC : C.Lawful) (h : Crash C seed l r p)
    (hfound : (journalFormat C).recover (remains C l p) = .ok found)
    (added : List (AuditRecord V)) :
    Durable C (storeOf C (found ++ added) (remains C l p ++ (journalFormat C).file added)) ↔
      added = [] ∨ (p = [] ∨ p = r.line C.signatif) ∧
        ∀ x ∈ added, (journalFormat C).Reads x := by
  obtain ⟨es, ht, -⟩ := h.tail
  rw [← clean_iff ht]
  constructor
  · intro hd
    obtain ⟨found', hfound', hsub⟩ := hd.recover
    cases added with
    | nil => exact .inl rfl
    | cons f fs =>
      by_cases hc : ht.Clean
      · rw [recover_behind_line hC ht hc hfound] at hfound'
        cases hfound'
        exact .inr ⟨hc, reads_of_sublist ((List.append_sublist_append_left found).1 hsub)⟩
      · have hlt := recover_behind_tail hC ht hc hfound hfound'
        have hle := hsub.length_le
        rw [List.length_append] at hle
        omega
  · rintro (rfl | ⟨hc, hr⟩)
    · rw [Format.file_nil, List.append_nil, List.append_nil]
      exact durable_of_recover hfound
    · refine durable_of_recover ?_
      rw [recover_behind_line hC ht hc hfound, filterMap_found hr]

/-- A session after a crash lasts exactly when it adds no record, not even of a fixture, or each
record it adds reads back and the crash left nothing of the last line or all of it with its
newline. -/
theorem crash_append_iff (C : Crates V) (hC : C.Lawful) (seed₀ : Bool)
    (l : List (AuditRecord V)) (r : AuditRecord V) (p : Bytes) (h : Crash C seed₀ l r p)
    (seed : Bool) (ticks : Nat → Tick) (hticks : ∀ i, (ticks i).written = true) (s : Store V)
    (hopen : Store.open_ C (some (remains C l p)) seed ticks = .ok s)
    (calls : List (Op V × Tick)) (hok : s.Accepts C.signatif calls)
    (hw : ∀ c ∈ calls, c.2.written = true) :
    ∃ found added, (journalFormat C).recover (remains C l p) = .ok found ∧
      (s.mutateAll C.signatif calls).log = found ++ added ∧
      (added = [] ↔ calls = [] ∧ ¬ (seed = true ∧ found = [])) ∧
      (Durable C (s.mutateAll C.signatif calls) ↔
        added = [] ∨ (p = [] ∨ p = r.line C.signatif) ∧
          ∀ x ∈ added, (journalFormat C).Reads x) := by
  obtain ⟨found, added, hfound, hs, hnil⟩ := session_recorded hC hticks hopen hok hw
  rw [hs]
  exact ⟨found, added, hfound, rfl, hnil, h.durable_iff hC hfound added⟩

def another : Op Reference.vocabulary := .registerTrustList "EU" none

theorem crash_append_nothing_left :
    Durable Reference.crates ((storeOf Reference.crates [] []).mutateAll Reference.signatif
      [(another, Reference.noon 0)]) := by
  obtain ⟨found, added, -, hlog, -, hiff⟩ := crash_append_iff Reference.crates
    Reference.crates_lawful false [] accented [] (crash_accented List.nil_prefix) false
    Reference.noon (fun i => (Reference.noon_inYears i).2) (storeOf Reference.crates [] []) rfl
    [(another, Reference.noon 0)] ⟨⟨_, rfl⟩, trivial⟩
    fun c hc => by rw [List.mem_singleton.1 hc]; rfl
  refine hiff.2 (.inr ⟨.inl rfl, fun x hx => ?_⟩)
  have hx : x ∈ [stamped Reference.signatif 0 (Reference.noon 0) another] := by
    have hlog' : [stamped Reference.signatif 0 (Reference.noon 0) another] = found ++ added := hlog
    rw [hlog']
    exact List.mem_append_right found hx
  rw [List.mem_singleton.1 hx]
  exact reads_stamped another trivial 0

/-- A journal cut before its last newline: the next record joins the line, and both are lost. -/
theorem crash_append_unterminated :
    ∃ p s, Crash Reference.crates false [] accented p ∧
      Store.open_ Reference.crates (some (remains Reference.crates [] p)) false Reference.noon =
        .ok s ∧
      s.Accepts Reference.signatif [(another, Reference.noon 0)] ∧
      (Reference.noon 0).written = true ∧
      ¬ Durable Reference.crates
        (s.mutateAll Reference.signatif [(another, Reference.noon 0)]) := by
  have hprefix : (journalFormat Reference.crates).text accented <+:
      accented.line Reference.signatif := by
    rw [journal_text]
    exact List.prefix_append _ _
  have hcrash := crash_accented hprefix
  have hu : (fromUtf8 ((journalFormat Reference.crates).text accented)).isSome := by
    rw [journal_text, fromUtf8_bytes]
    rfl
  have hfound := hcrash.recover Reference.crates_lawful
  rw [if_pos hu, completed, if_pos List.prefix_rfl, filterMap_found fun x hx => by
    rw [List.mem_singleton.1 hx]; exact reads_stamped accented.op trivial 0] at hfound
  refine ⟨_, storeOf Reference.crates ([] ++ [accented]) (remains Reference.crates []
    ((journalFormat Reference.crates).text accented)), hcrash, ?_, ⟨⟨_, rfl⟩, trivial⟩, rfl, ?_⟩
  · rw [open_unseeded, hfound, ok_bind]
  · rw [Store.mutateAll, Store.mutateAll, ← Reference.crates_signatif, mutate_storeOf rfl ⟨_, rfl⟩,
      ← journal_line, hcrash.durable_iff Reference.crates_lawful hfound]
    rintro (hnil | ⟨hp | hline, -⟩)
    · cases hnil
    · exact (journal_oneLine _ accented).nonempty hp
    · have hl := congrArg List.length hline
      rw [AuditRecord.line, ← journal_text, List.length_append, List.length_singleton] at hl
      omega

end UnidppTrust
