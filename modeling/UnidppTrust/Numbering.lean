import UnidppTrust.Run
import UnidppTrust.Reference

namespace UnidppTrust
open Rust Json LineLog
set_option autoImplicit true

variable {V : Vocabulary} {S : Signatif V} {C : Crates V}

def Increasing (log : List (AuditRecord V)) : Prop := log.Pairwise fun a b => a.seq < b.seq

/-- The log has gained `n` records, numbered by their positions in it. -/
def Store.Gains (s s' : Store V) (n : Nat) : Prop :=
  ∃ rs, s'.log = s.log ++ rs ∧
    rs.map (·.seq) = (List.range' (s.log.length + 1) n).map UInt64.ofNat

theorem Store.Gains.refl (s : Store V) : s.Gains s 0 := ⟨[], (List.append_nil _).symm, rfl⟩

theorem Store.Gains.length (h : Store.Gains s s' n) : s'.log.length = s.log.length + n := by
  obtain ⟨rs, hlog, hseq⟩ := h
  have hlen := congrArg List.length hseq
  rw [List.length_map, List.length_map, List.length_range'] at hlen
  rw [hlog, List.length_append, hlen]

theorem Store.Gains.trans (h : Store.Gains s s' n) (h' : Store.Gains s' s'' n') :
    s.Gains s'' (n + n') := by
  have hlen := h.length
  obtain ⟨rs, hlog, hseq⟩ := h
  obtain ⟨rs', hlog', hseq'⟩ := h'
  refine ⟨rs ++ rs', by rw [hlog', hlog, List.append_assoc], ?_⟩
  rw [List.map_append, hseq, hseq', hlen, ← List.map_append, Nat.add_right_comm,
    List.range'_append_1]

theorem record_gains (s : Store V) (t : Tick) (op : Op V) : s.Gains (s.record S t op).2 1 := by
  refine ⟨[(s.record S t op).1], rfl, ?_⟩
  rw [List.range'_one, List.map_singleton, List.map_singleton, UInt64.ofNat_add]
  rfl

theorem recordAll_gains (s : Store V) (ticks : Nat → Tick) (ops : List (Op V)) :
    s.Gains (s.recordAll C ticks ops) ops.length := by
  induction ops generalizing s ticks with
  | nil => exact .refl s
  | cons op ops ih =>
    rw [List.length_cons, Nat.add_comm]
    exact (record_gains s (ticks 0) op).trans (ih _ _)

theorem mutateAll_gains (s : Store V) {calls : List (Op V × Tick)} (h : s.Accepts S calls) :
    s.Gains (s.mutateAll S calls) calls.length := by
  induction calls generalizing s with
  | nil => exact .refl s
  | cons c cs ih =>
    obtain ⟨⟨a, ha⟩, hcs⟩ := h
    have hstep : s.Gains (s.mutate S c.2 c.1).2 1 := by
      rcases mutate_cases S s c.2 c.1 with ⟨e, hm⟩ | ⟨-, b, hm⟩
      · rw [hm] at ha
        cases ha
      · rw [hm]
        exact record_gains s c.2 c.1
    rw [List.length_cons, Nat.add_comm]
    exact hstep.trans (ih _ hcs)

theorem Store.Gains.numbered (h : Store.Gains s s' n) (hlen : s'.log.length < 2 ^ 64) :
    ∃ rs, s'.log = s.log ++ rs ∧ Increasing rs ∧ (∀ r ∈ rs, s.log.length < r.seq.toNat) ∧
      (n ≠ 0 → ∃ r ∈ rs, r.seq.toNat = s.log.length + 1) := by
  rw [h.length] at hlen
  obtain ⟨rs, hlog, hseq⟩ := h
  have hword : ∀ i ∈ List.range' (s.log.length + 1) n, (UInt64.ofNat i).toNat = i := by
    intro i hi
    have hbound := List.mem_range'_1.1 hi
    exact UInt64.toNat_ofNat_of_lt' (show i < 2 ^ 64 by omega)
  have hnum : ∀ r ∈ rs, ∃ i ∈ List.range' (s.log.length + 1) n, r.seq.toNat = i := by
    intro r hr
    have hmem : r.seq ∈ rs.map (·.seq) := List.mem_map_of_mem hr
    rw [hseq] at hmem
    obtain ⟨i, hi, hri⟩ := List.mem_map.1 hmem
    exact ⟨i, hi, by rw [← hri, hword i hi]⟩
  refine ⟨rs, hlog, ?_, fun r hr => ?_, fun hn => ?_⟩
  · have hpair : (rs.map (·.seq)).Pairwise (· < ·) := by
      rw [hseq, List.pairwise_map]
      apply List.Pairwise.imp_of_mem _ List.pairwise_lt_range'
      intro i j hi hj hij
      rwa [UInt64.lt_iff_toNat_lt, hword i hi, hword j hj]
    exact List.pairwise_map.1 hpair
  · obtain ⟨i, hi, hri⟩ := hnum r hr
    rw [hri]
    exact (List.mem_range'_1.1 hi).1
  · have hi : s.log.length + 1 ∈ List.range' (s.log.length + 1) n := by
      rw [List.mem_range'_1]
      omega
    have hfirst : UInt64.ofNat (s.log.length + 1) ∈ rs.map (·.seq) := by
      rw [hseq]
      exact List.mem_map_of_mem hi
    obtain ⟨r, hr, hrseq⟩ := List.mem_map.1 hfirst
    exact ⟨r, hr, by rw [hrseq, hword _ hi]⟩

theorem Increasing.le_last {log : List (AuditRecord V)} (h : Increasing log)
    (hlast : log.getLast? = some last) (ha : a ∈ log) : a.seq ≤ last.seq := by
  have hsplit := List.dropLast_append_getLast? last hlast
  rw [← hsplit, List.mem_append, List.mem_singleton] at ha
  rcases ha with ha | rfl
  · rw [← hsplit, Increasing, List.pairwise_append] at h
    exact UInt64.le_of_lt (h.2.2 a ha last (List.mem_singleton.2 rfl))
  · exact UInt64.le_refl _

/-- Numbers given by position follow the earlier ones unless the last of these is beyond its own
position. -/
theorem Store.Gains.increasing_iff (h : Store.Gains s s' n) (hs : Increasing s.log)
    (hlen : s'.log.length < 2 ^ 64) :
    Increasing s'.log ↔ n = 0 ∨ ∀ r ∈ s.log.getLast?, r.seq.toNat ≤ s.log.length := by
  obtain ⟨rs, hlog, hrs, hafter, hfirst⟩ := h.numbered hlen
  rw [hlog, Increasing, List.pairwise_append]
  constructor
  · rintro ⟨-, -, hacross⟩
    by_cases hn : n = 0
    · exact .inl hn
    · right
      intro r hr
      obtain ⟨b, hb, hbseq⟩ := hfirst hn
      have hlt := hacross r (List.mem_of_getLast? hr) b hb
      rw [UInt64.lt_iff_toNat_lt, hbseq] at hlt
      exact Nat.le_of_lt_succ hlt
  · rintro (rfl | hlast)
    · have hnil : rs = [] := by
        have hl := h.length
        rw [hlog, List.length_append, Nat.add_left_cancel_iff] at hl
        exact List.eq_nil_of_length_eq_zero hl
      rw [hnil]
      exact ⟨hs, List.Pairwise.nil, fun a _ b hb => by cases hb⟩
    · refine ⟨hs, hrs, fun a ha b hb => ?_⟩
      obtain ⟨last, hget⟩ : ∃ last, s.log.getLast? = some last :=
        ⟨_, List.getLast?_eq_some_getLast (List.ne_nil_of_mem ha)⟩
      have hle := UInt64.le_iff_toNat_le.1 (hs.le_last hget ha)
      rw [UInt64.lt_iff_toNat_lt]
      exact Nat.lt_of_le_of_lt (Nat.le_trans hle (hlast last hget)) (hafter b hb)

theorem open_gains {file : Bytes} {rs : List (AuditRecord V)}
    (hrec : (journalFormat C).recover file = .ok rs)
    (h : Store.open_ C (some file) seed ticks = .ok s) :
    ∃ n, (storeOf C rs file).Gains s n ∧ (rs ≠ [] → n = 0) := by
  rw [open_eq, hrec, ok_bind] at h
  split at h
  · rename_i hseed
    rw [Store.seedFixtures] at h
    obtain ⟨ops, -, h⟩ := bind_eq_ok h
    cases h
    refine ⟨_, recordAll_gains _ ticks ops, fun hne => ?_⟩
    rw [Bool.and_eq_true, List.isEmpty_iff] at hseed
    exact (hne hseed.2).elim
  · cases h
    exact ⟨0, .refl _, fun _ => rfl⟩

/-- After a journal whose records have increasing numbers, mutations keep them increasing exactly if
the last number found is not beyond the number of records found. -/
theorem seq_increasing_iff (C : Crates V) {file : Bytes} {rs : List (AuditRecord V)}
    (hrec : (journalFormat C).recover file = .ok rs) (hinc : Increasing rs) (seed : Bool)
    (ticks : Nat → Tick) {s : Store V} (hopen : Store.open_ C (some file) seed ticks = .ok s)
    (calls : List (Op V × Tick)) (hacc : s.Accepts C.signatif calls)
    (hlen : (s.mutateAll C.signatif calls).log.length < 2 ^ 64) :
    Increasing (s.mutateAll C.signatif calls).log ↔
      calls = [] ∨ ∀ r ∈ rs.getLast?, r.seq.toNat ≤ rs.length := by
  obtain ⟨n, hgains, hn⟩ := open_gains hrec hopen
  have hall := hgains.trans (mutateAll_gains s hacc)
  rw [hall.increasing_iff hinc hlen, Nat.add_eq_zero_iff, List.length_eq_zero_iff]
  change (n = 0 ∧ calls = []) ∨ (∀ r ∈ rs.getLast?, r.seq.toNat ≤ rs.length) ↔ _
  cases rs with
  | nil => simp
  | cons r rs =>
    rw [hn (List.cons_ne_nil r rs)]
    simp only [true_and]

open Reference

def registered (seq : UInt64) (id : String) : AuditRecord vocabulary :=
  ⟨seq, 43200, .registerNode ⟨id, .end, []⟩⟩

def damaged : Bytes :=
  (journalFormat crates).file [registered 1 "a"] ++
    (bytes "torn" ++ 10 :: (journalFormat crates).file [registered 3 "c"])

theorem reads_registered (n : UInt64) (id : String) :
    ∀ r ∈ [registered n id], (journalFormat crates).Reads r := by
  intro r hr
  rw [List.mem_singleton.1 hr]
  refine journal_reads crates_lawful ⟨⟨fun k hk => ?_, rfl⟩, ?_⟩
  · cases hk
  · exact ⟨⟨43200⟩, (noon_inYears 0).1, rfl⟩

/-- The records before and after the damaged line are found. -/
theorem recover_damaged :
    (journalFormat crates).recover damaged = .ok [registered 1 "a", registered 3 "c"] := by
  have htorn : readLine crates (bytes "torn") = .ok none :=
    readLine_error (fromUtf8_bytes "torn") ⟨"expected value", rfl⟩
  rw [damaged, recover_append (fun r _ => journal_oneLine crates r)
      fun r hr => (reads_registered 1 "a" r hr).passes,
    filterMap_found (reads_registered 1 "a"), recover_line (by decide +kernel) (by decide +kernel),
    journal_read, htorn, recover_reads (fun r _ => journal_oneLine crates r)
      (reads_registered 3 "c")]
  rfl

def oneMore : List (Op vocabulary × Tick) := [(.registerNode ⟨"d", .end, []⟩, noon 1)]

theorem increasing_damaged : Increasing [registered 1 "a", registered 3 "c"] := by
  simp [Increasing, registered]

theorem open_damaged : Store.open_ crates (some damaged) false noon =
    .ok (storeOf crates [registered 1 "a", registered 3 "c"] damaged) := by
  rw [open_eq, recover_damaged]
  rfl

theorem seq_increasing_damaged :
    Increasing ((storeOf crates [registered 1 "a", registered 3 "c"] damaged).mutateAll signatif
        oneMore).log ↔
      oneMore = [] ∨ ∀ r ∈ [registered 1 "a", registered 3 "c"].getLast?, r.seq.toNat ≤ 2 :=
  seq_increasing_iff crates recover_damaged increasing_damaged false noon open_damaged oneMore
    ⟨⟨_, rfl⟩, trivial⟩ (by decide)

/-- The first mutation after the damaged journal gets the number of the last record again. -/
theorem seq_repeated :
    (journalFormat crates).recover damaged = .ok [registered 1 "a", registered 3 "c"] ∧
    Increasing [registered 1 "a", registered 3 "c"] ∧
    ∃ s, Store.open_ crates (some damaged) false noon = .ok s ∧ s.Accepts signatif oneMore ∧
      (s.mutateAll signatif oneMore).log.map (·.seq) = [1, 3, 3] ∧
      ¬ Increasing (s.mutateAll signatif oneMore).log := by
  refine ⟨recover_damaged, increasing_damaged, _, open_damaged, ⟨⟨_, rfl⟩, trivial⟩, rfl,
    fun h => ?_⟩
  have hseq := List.pairwise_map.2 h
  change ([1, 3, 3] : List UInt64).Pairwise (· < ·) at hseq
  exact absurd hseq (by decide)

end UnidppTrust
