import UnidppTrust.JournalLines
import UnidppTrust.Mutation

namespace UnidppTrust
open Rust Json LineLog
set_option autoImplicit true

/-- What happens to a store: a call, or a restart on its journal. -/
inductive Event (V : Vocabulary) where
  | call (op : Op V) (t : Tick)
  | restart (ticks : Nat → Tick)

variable {V : Vocabulary} (C : Crates V) (seed : Bool)

/-- Arguments come from the decoders, and instants and the clock are of the years 0000 to 9999. -/
def Event.Admissible : Event V → Prop
  | .call op t => op.Decodable C.signatif ∧ op.Instants (InYears C.signatif) ∧ t.now.InYears
  | .restart ticks => ∀ i, (ticks i).now.InYears

def Event.Written : Event V → Prop
  | .call _ t => t.written = true
  | .restart _ => True

/-- Every line of the journal is written, also those of fixtures. -/
def Event.Journaled : Event V → Prop
  | .call _ t => t.written = true
  | .restart ticks => ∀ i, (ticks i).written = true

def Event.Ordinary (e : Event V) : Prop := e.Admissible C ∧ e.Journaled

def Store.step (s : Store V) : Event V → Outcome IoError (Store V)
  | .call op t => .ok (s.mutate C.signatif t op).2
  | .restart ticks => Store.open_ C s.journal seed ticks

def Store.run (s : Store V) : List (Event V) → Outcome IoError (Store V)
  | [] => .ok s
  | e :: es => do
    let s ← s.step C seed e
    s.run es

/-- The record of a call that returned `Ok`, with whether its line was written. -/
def Store.acks (s : Store V) : Event V → List (AuditRecord V × Bool)
  | .call op t =>
    match (s.mutate C.signatif t op).1 with
    | .ok _ => [((s.record C.signatif t op).1, t.written)]
    | .error _ => []
  | .restart _ => []

def Store.acknowledged (s : Store V) : List (Event V) → List (AuditRecord V × Bool)
  | [] => []
  | e :: es => s.acks C e ++
    match s.step C seed e with
    | .ok s => s.acknowledged es
    | .error _ => []

def Store.Sound (s : Store V) (ws : List (AuditRecord V)) : Prop :=
  s = storeOf C s.log ((journalFormat C).file ws)

/-- What a store can be after a first opening on an empty journal, calls and restarts of this
kind. -/
inductive Reached (P : Event V → Prop) : Store V → Prop where
  | opened (ticks : Nat → Tick) (hp : P (.restart ticks))
      (h : Store.open_ C (some []) seed ticks = .ok x) : Reached P x
  | stepped (hx : Reached P x) (hp : P e) (h : x.step C seed e = .ok y) : Reached P y

def journaled (acks : List (AuditRecord V × Bool)) : List (AuditRecord V) :=
  (acks.filter (·.2)).map (·.1)

def openingAcks (ticks : Nat → Tick) (rs : List (AuditRecord V)) : List (AuditRecord V × Bool) :=
  rs.mapIdx fun i r => (r, (ticks i).written)

variable {C seed} {s s' : Store V} {ws : List (AuditRecord V)} {P Q : Event V → Prop}

theorem ordinary_restart {ticks : Nat → Tick}
    (h : ∀ i, (ticks i).now.InYears ∧ (ticks i).written = true) :
    (Event.restart ticks : Event V).Ordinary C := ⟨fun i => (h i).1, fun i => (h i).2⟩

theorem journaled_append (as bs : List (AuditRecord V × Bool)) :
    journaled (as ++ bs) = journaled as ++ journaled bs := by
  rw [journaled, List.filter_append, List.map_append]
  rfl

theorem journaled_eq {acks : List (AuditRecord V × Bool)} (h : ∀ a ∈ acks, a.2 = true) :
    journaled acks = acks.map (·.1) := by
  rw [journaled, List.filter_eq_self.2 h]

theorem openingAcks_cons (ticks : Nat → Tick) (r : AuditRecord V) (rs : List (AuditRecord V)) :
    openingAcks ticks (r :: rs) =
      (r, (ticks 0).written) :: openingAcks (fun i => ticks (i + 1)) rs := List.mapIdx_cons

theorem openingAcks_map (ticks : Nat → Tick) (rs : List (AuditRecord V)) :
    (openingAcks ticks rs).map (·.1) = rs := by
  induction rs generalizing ticks with
  | nil => rfl
  | cons r rs ih => rw [openingAcks_cons, List.map_cons, ih]

theorem journaled_opening {ticks : Nat → Tick} (h : ∀ i, (ticks i).written = true)
    (rs : List (AuditRecord V)) : journaled (openingAcks ticks rs) = rs := by
  rw [journaled_eq, openingAcks_map]
  intro a ha
  obtain ⟨i, hi, rfl⟩ := List.mem_mapIdx.1 ha
  exact h i

theorem reads_of_journaled {acks : List (AuditRecord V × Bool)}
    (h : (acks.map (·.1)).Sublist ((journaled acks).filterMap (journalFormat C).found)) :
    ∀ a ∈ acks, a.2 = true ∧ (journalFormat C).Reads a.1 := by
  have hle := h.length_le.trans (List.length_filterMap_le _ _)
  rw [journaled, List.length_map, List.length_map] at hle
  have hall : ∀ a ∈ acks, a.2 = true :=
    List.length_filter_eq_length_iff.1 (Nat.le_antisymm (List.length_filter_le _ _) hle)
  rw [journaled_eq hall] at h
  exact fun a ha => ⟨hall a ha, reads_of_sublist h a.1 (List.mem_map_of_mem ha)⟩

theorem Store.Sound.journal (h : s.Sound C ws) :
    s.journal = some ((journalFormat C).file ws) := by
  rw [h]
  rfl

theorem Store.Sound.state (h : s.Sound C ws) : s.toState = stateOf C s.log := by
  rw [h]
  rfl

theorem sound_storeOf (log ws : List (AuditRecord V)) :
    (storeOf C log ((journalFormat C).file ws)).Sound C ws := rfl

theorem sound_empty : (storeOf C [] []).Sound C [] := rfl

theorem file_journaled_one (r : AuditRecord V) (w : Bool) :
    (journalFormat C).file (journaled [(r, w)]) = if w then r.line C.signatif else [] := by
  cases w with
  | false => rfl
  | true => exact journal_line r

theorem Store.Sound.record (h : s.Sound C ws) (t : Tick) (op : Op V) :
    (s.record C.signatif t op).2.Sound C
      (ws ++ journaled [((s.record C.signatif t op).1, t.written)]) := by
  rw [Store.Sound, Format.file_append, file_journaled_one, h, record_storeOf]
  rfl

theorem Store.Sound.call (h : s.Sound C ws) (op : Op V) (t : Tick) :
    (s.acks C (.call op t) = [] ∧ (s.mutate C.signatif t op).2 = s) ∨
    (s.acks C (.call op t) = [((s.record C.signatif t op).1, t.written)] ∧
      (s.mutate C.signatif t op).2 = (s.record C.signatif t op).2 ∧
      (s.record C.signatif t op).2.Sound C (ws ++ journaled (s.acks C (.call op t)))) := by
  rcases mutate_cases C.signatif s t op with ⟨e, hm⟩ | ⟨-, a, hm⟩
  · rw [Store.acks, hm]
    exact .inl ⟨rfl, rfl⟩
  · rw [Store.acks, hm]
    exact .inr ⟨rfl, rfl, h.record t op⟩

theorem recordAll_storeOf (C : Crates V) (log : List (AuditRecord V)) (file : Bytes)
    (ticks : Nat → Tick) (ops : List (Op V)) :
    ∃ rs, (storeOf C log file).recordAll C ticks ops =
        storeOf C (log ++ rs) (file ++ (journalFormat C).file (journaled (openingAcks ticks rs))) ∧
      rs.map (·.op) = ops ∧
      ∀ i r, rs[i]? = some r → r.recordedAt = C.signatif.timeFromSecs (ticks i).now.secs := by
  induction ops generalizing log file ticks with
  | nil =>
    refine ⟨[], ?_, rfl, fun i r hr => (by cases hr)⟩
    change _ = storeOf C (log ++ []) (file ++ [])
    rw [List.append_nil, List.append_nil]
    rfl
  | cons op ops ih =>
    obtain ⟨rs, hrs, hmap, hstamps⟩ := ih (log ++ [((storeOf C log file).record C.signatif
      (ticks 0) op).1]) (file ++ (journalFormat C).file (journaled
        [(((storeOf C log file).record C.signatif (ticks 0) op).1, (ticks 0).written)]))
      fun i => ticks (i + 1)
    refine ⟨((storeOf C log file).record C.signatif (ticks 0) op).1 :: rs, ?_, ?_, ?_⟩
    · rw [Store.recordAll, record_storeOf, ← file_journaled_one, hrs, openingAcks_cons,
        List.append_assoc, List.append_assoc file, ← Format.file_append, ← journaled_append]
      rfl
    · rw [List.map_cons, hmap]
      rfl
    · intro i r hr
      cases i with
      | zero =>
        cases hr
        rfl
      | succ i => exact hstamps i r hr

theorem seedFixtures_storeOf {log : List (AuditRecord V)} {file : Bytes}
    (h : (storeOf C log file).seedFixtures C ticks = .ok s') :
    ∃ rs, s' = storeOf C (log ++ rs)
        (file ++ (journalFormat C).file (journaled (openingAcks ticks rs))) ∧
      seedOps C.signatif C.fixtures = (.ok (rs.map (·.op)) : Outcome IoError _) ∧
      ∀ i r, rs[i]? = some r → r.recordedAt = C.signatif.timeFromSecs (ticks i).now.secs := by
  obtain ⟨ops, hops, hs⟩ := bind_eq_ok h
  cases hs
  obtain ⟨rs, hrs, hmap, hstamps⟩ := recordAll_storeOf C log file ticks ops
  exact ⟨rs, hrs, by rw [hmap, hops], hstamps⟩

theorem journal_recover (hC : C.Lawful) (ws : List (AuditRecord V)) :
    (journalFormat C).recover ((journalFormat C).file ws) =
      .ok (ws.filterMap (journalFormat C).found) :=
  recover_file (fun r _ => journal_oneLine C r) fun r _ => journal_passes hC r

theorem Store.Sound.open_ (hC : C.Lawful) (h : s.Sound C ws) (ticks : Nat → Tick) :
    Store.open_ C s.journal seed ticks =
      let found := ws.filterMap (journalFormat C).found
      if seed && found.isEmpty then
        (storeOf C found ((journalFormat C).file ws)).seedFixtures C ticks
      else .ok (storeOf C found ((journalFormat C).file ws)) := by
  rw [h.journal, open_eq, journal_recover hC, ok_bind]

theorem Store.Sound.open_found (hC : C.Lawful) (h : s.Sound C ws)
    (hs : seed = true → ws.filterMap (journalFormat C).found ≠ []) (ticks : Nat → Tick) :
    Store.open_ C s.journal seed ticks =
      .ok (storeOf C (ws.filterMap (journalFormat C).found) ((journalFormat C).file ws)) := by
  rw [h.open_ hC]
  refine if_neg ?_
  rw [Bool.and_eq_true, List.isEmpty_iff]
  exact fun hc => hs hc.1 hc.2

theorem open_new (hC : C.Lawful) (h : Store.open_ C (some []) seed ticks = .ok s) :
    s.Sound C (journaled (openingAcks ticks s.log)) ∧
      (seed = true → seedOps C.signatif C.fixtures = (.ok (s.log.map (·.op)) : Outcome IoError _) ∧
        ∀ i r, s.log[i]? = some r →
          r.recordedAt = C.signatif.timeFromSecs (ticks i).now.secs) ∧
      (seed = false → s.log = []) := by
  have hopen : Store.open_ C (some []) seed ticks = if seed && true then _ else _ :=
    (sound_empty (C := C)).open_ hC ticks
  rw [hopen] at h
  cases seed with
  | false =>
    cases h
    exact ⟨rfl, fun hf => (by cases hf), fun _ => rfl⟩
  | true =>
    obtain ⟨rs, rfl, hops, hstamps⟩ := seedFixtures_storeOf h
    exact ⟨rfl, fun _ => ⟨hops, hstamps⟩, fun hf => by cases hf⟩

/-- A store that was started with the fixtures never finds its log empty again. -/
def Seeded (seed : Bool) (ws : List (AuditRecord V)) : Prop := seed = true → ws ≠ []

theorem Store.Sound.reopen (hC : C.Lawful) (h : s.Sound C ws)
    (hr : ∀ r ∈ ws, (journalFormat C).Reads r) (hs : Seeded seed ws) (ticks : Nat → Tick) :
    Store.open_ C s.journal seed ticks = .ok (storeOf C ws ((journalFormat C).file ws)) := by
  rw [h.open_found hC (by rwa [filterMap_found hr]), filterMap_found hr]

/-- One step over a journal that reads back adds the records it acknowledges to the log, and the
written ones to the journal; a restart falls back to the journal. -/
theorem Store.Sound.step (hC : C.Lawful) (h : s.Sound C ws)
    (hr : ∀ r ∈ ws, (journalFormat C).Reads r) (hs : Seeded seed ws) (e : Event V) :
    ∃ s', s.step C seed e = .ok s' ∧ s'.Sound C (ws ++ journaled (s.acks C e)) ∧
      (s.log = ws → s'.log = s.log ++ (s.acks C e).map (·.1)) := by
  cases e with
  | call op t =>
    refine ⟨_, rfl, ?_⟩
    rcases h.call op t with ⟨hacks, hst⟩ | ⟨hacks, hst, hsound⟩
    · rw [hst, hacks]
      refine ⟨?_, fun _ => (List.append_nil _).symm⟩
      change s.Sound C (ws ++ [])
      rw [List.append_nil]
      exact h
    · rw [hst]
      refine ⟨hsound, fun _ => ?_⟩
      rw [hacks]
      rfl
  | restart ticks =>
    refine ⟨_, h.reopen hC hr hs ticks, ?_, fun hlog => ?_⟩
    · change (storeOf C ws _).Sound C (ws ++ [])
      rw [List.append_nil]
      exact sound_storeOf ws ws
    · rw [hlog, Store.acks, List.map_nil, List.append_nil]
      rfl

/-- A run succeeds while what it writes reads back; it journals the records it acknowledged whose
lines were written, and if all were, they are what its log has gained. -/
theorem Store.Sound.run (hC : C.Lawful) (h : s.Sound C ws)
    (hr : ∀ r ∈ ws, (journalFormat C).Reads r) (hs : Seeded seed ws) {es : List (Event V)}
    (hread : ∀ r ∈ journaled (s.acknowledged C seed es), (journalFormat C).Reads r) :
    ∃ s', s.run C seed es = .ok s' ∧ s'.Sound C (ws ++ journaled (s.acknowledged C seed es)) ∧
      (s.log = ws → (∀ a ∈ s.acknowledged C seed es, a.2 = true) →
        s'.log = s.log ++ (s.acknowledged C seed es).map (·.1)) := by
  induction es generalizing s ws with
  | nil =>
    refine ⟨s, rfl, ?_, fun _ _ => (List.append_nil _).symm⟩
    change s.Sound C (ws ++ [])
    rw [List.append_nil]
    exact h
  | cons e es ih =>
    obtain ⟨s₁, hstep, h₁, hlog₁⟩ := h.step hC hr hs e
    rw [Store.acknowledged, hstep, journaled_append, List.forall_mem_append] at hread
    obtain ⟨hread₁, hread⟩ := hread
    have hs₁ : Seeded seed (ws ++ journaled (s.acks C e)) := fun hseed hnil =>
      hs hseed (List.append_eq_nil_iff.1 hnil).1
    obtain ⟨s₂, hrun, h₂, hlog₂⟩ := ih h₁ (List.forall_mem_append.2 ⟨hr, hread₁⟩) hs₁ hread
    refine ⟨s₂, ?_, ?_, fun hlog hw => ?_⟩
    · rw [Store.run, hstep, ok_bind, hrun]
    · rw [Store.acknowledged, hstep, journaled_append, ← List.append_assoc]
      exact h₂
    · rw [Store.acknowledged, hstep] at hw ⊢
      have hw₁ : journaled (s.acks C e) = (s.acks C e).map (·.1) :=
        journaled_eq fun a hm => hw a (List.mem_append_left _ hm)
      rw [hlog₂ (by rw [hlog₁ hlog, hw₁, hlog]) fun a hm => hw a (List.mem_append_right _ hm),
        hlog₁ hlog, List.map_append, List.append_assoc]

theorem acks_written (s : Store V) (hw : e.Written) : ∀ a ∈ s.acks C e, a.2 = true := by
  intro a ha
  cases e with
  | call op t =>
    rw [Store.acks] at ha
    split at ha
    · rw [List.mem_singleton.1 ha]
      exact hw
    · cases ha
  | restart ticks => cases ha

theorem acks_readable (hC : C.Lawful) (s : Store V) (he : e.Admissible C) :
    ∀ a ∈ s.acks C e, a.1.Readable C.signatif := by
  intro a ha
  cases e with
  | call op t =>
    obtain ⟨hd, hi, hy⟩ := he
    rw [Store.acks] at ha
    split at ha
    · rw [List.mem_singleton.1 ha]
      exact ⟨hd.wellFormed hC.signatif hi, t.now, hy, rfl⟩
    · cases ha
  | restart ticks => cases ha

theorem acknowledged_forall {p : AuditRecord V × Bool → Prop}
    (h : ∀ e ∈ es, ∀ s : Store V, ∀ a ∈ s.acks C e, p a) :
    ∀ a ∈ s.acknowledged C seed es, p a := by
  induction es generalizing s with
  | nil => intro a ha; cases ha
  | cons e es ih =>
    have hrest : ∀ x ∈ es, ∀ s : Store V, ∀ a ∈ s.acks C x, p a :=
      fun x hx => h x (List.mem_cons_of_mem e hx)
    intro a ha
    rw [Store.acknowledged, List.mem_append] at ha
    rcases ha with ha | ha
    · exact h e List.mem_cons_self s a ha
    · split at ha
      · exact ih hrest a ha
      · cases ha

theorem mem_journaled (h : r ∈ journaled acks) :
    ∃ a ∈ (acks : List (AuditRecord V × Bool)), a.1 = r := by
  obtain ⟨a, ha, rfl⟩ := List.mem_map.1 h
  exact ⟨a, List.mem_of_mem_filter ha, rfl⟩

/-- A run of admissible events journals records that read back. -/
theorem journaled_readable (hC : C.Lawful) (ha : ∀ e ∈ es, e.Admissible C) :
    ∀ r ∈ journaled (s.acknowledged C seed es), r.Readable C.signatif := by
  intro r hr
  obtain ⟨a, hm, rfl⟩ := mem_journaled hr
  exact acknowledged_forall (p := fun a => a.1.Readable C.signatif)
    (fun e he s => acks_readable hC s (ha e he)) a hm

theorem open_readable (hC : C.Lawful) {ticks : Nat → Tick}
    (ht : ∀ i, (ticks i).now.InYears ∧ (ticks i).written = true)
    (h : Store.open_ C (some []) seed ticks = .ok s) :
    s.Sound C s.log ∧ (∀ r ∈ s.log, r.Readable C.signatif) ∧
      (seed = true → 1 < s.log.length) := by
  obtain ⟨hsound, hseeded, hunseeded⟩ := open_new hC h
  rw [journaled_opening fun i => (ht i).2] at hsound
  cases seed with
  | false =>
    rw [hunseeded rfl]
    exact ⟨(hunseeded rfl) ▸ hsound, fun r hr => (by cases hr), fun hf => (by cases hf)⟩
  | true =>
    obtain ⟨hops, hstamps⟩ := hseeded rfl
    obtain ⟨hwf, hlen⟩ := seedOps_wellFormed hC.signatif hC.fixtures hops
    rw [List.length_map] at hlen
    refine ⟨hsound, fun r hr => ⟨hwf _ (List.mem_map_of_mem hr), ?_⟩, fun _ => hlen⟩
    obtain ⟨i, hi⟩ := List.mem_iff_getElem?.1 hr
    exact ⟨(ticks i).now, (ht i).1, hstamps i r hi⟩

theorem seeded_of_length (h : seed = true → 1 < ws.length) : Seeded seed ws := by
  intro hseed hnil
  have hl := h hseed
  rw [hnil, List.length_nil] at hl
  omega

/-- A store reached by ordinary events is sound on its own log, which reads back. -/
theorem Reached.sound (hC : C.Lawful) (h : Reached C seed (Event.Ordinary C) s) :
    s.Sound C s.log ∧ (∀ r ∈ s.log, r.Readable C.signatif) ∧
      (seed = true → 1 < s.log.length) := by
  induction h with
  | opened ticks hp h => exact open_readable hC (fun i => ⟨hp.1 i, hp.2 i⟩) h
  | @stepped x e y _ hp hstep ih =>
    obtain ⟨hs, hread, hlen⟩ := ih
    obtain ⟨s₁, hs₁, hsound, hlog⟩ := hs.step hC (fun r hr => journal_reads hC (hread r hr))
      (seeded_of_length hlen) e
    rw [hs₁] at hstep
    cases hstep
    have hlog' := hlog rfl
    have hw : e.Written := by
      cases e with
      | call op t => exact hp.2
      | restart ticks => trivial
    rw [journaled_eq (acks_written _ hw), ← hlog'] at hsound
    refine ⟨hsound, fun r hr => ?_, fun hseed => ?_⟩
    · rw [hlog', List.mem_append, List.mem_map] at hr
      rcases hr with hr | ⟨a, ha, rfl⟩
      · exact hread r hr
      · exact acks_readable hC x hp.1 a ha
    · rw [hlog', List.length_append]
      exact Nat.lt_of_lt_of_le (hlen hseed) (Nat.le_add_right _ _)

theorem Reached.reads (hC : C.Lawful) (h : Reached C seed (Event.Ordinary C) s) :
    ∀ r ∈ s.log, (journalFormat C).Reads r :=
  fun r hr => journal_reads hC ((h.sound hC).2.1 r hr)

/-- A restart gives such a store back. -/
theorem Reached.reopen (hC : C.Lawful) (h : Reached C seed (Event.Ordinary C) s)
    (ticks : Nat → Tick) : Store.open_ C s.journal seed ticks = .ok s := by
  obtain ⟨hs, -, hlen⟩ := h.sound hC
  rw [hs.reopen hC (h.reads hC) (seeded_of_length hlen), ← hs]

def stamped (S : Signatif V) (n : Nat) (t : Tick) (op : Op V) : AuditRecord V :=
  ⟨UInt64.ofNat n + 1, S.timeFromSecs t.now.secs, op⟩

theorem mutate_storeOf {log : List (AuditRecord V)} {file : Bytes} (hw : t.written = true)
    (hok : ∃ a, ((storeOf C log file).mutate C.signatif t op).1 = .ok a) :
    ((storeOf C log file).mutate C.signatif t op).2 =
      storeOf C (log ++ [stamped C.signatif log.length t op])
        (file ++ (stamped C.signatif log.length t op).line C.signatif) := by
  obtain ⟨a, ha⟩ := hok
  rcases mutate_cases C.signatif (storeOf C log file) t op with ⟨e, hm⟩ | ⟨-, b, hm⟩
  · rw [hm] at ha
    cases ha
  · rw [hm, record_storeOf, hw, if_pos rfl]
    rfl

theorem Reached.call {log : List (AuditRecord V)} {file : Bytes}
    (h : Reached C seed P (storeOf C log file)) (op : Op V) (t : Tick) (hp : P (.call op t))
    (hw : t.written = true)
    (hok : ∃ a, ((storeOf C log file).mutate C.signatif t op).1 = .ok a) :
    Reached C seed P (storeOf C (log ++ [stamped C.signatif log.length t op])
      (file ++ (stamped C.signatif log.length t op).line C.signatif)) := by
  apply h.stepped hp
  rw [Store.step, mutate_storeOf hw hok]

end UnidppTrust
