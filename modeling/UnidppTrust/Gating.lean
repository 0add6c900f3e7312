import UnidppTrust.Run
import UnidppTrust.Reference

namespace UnidppTrust
open Rust Json LineLog
set_option autoImplicit true

variable {V : Vocabulary} {S : Signatif V} {C : Crates V} {seed : Bool} {s : Store V}

def Op.registers : Op V → Option Evidence
  | .registerEvidence e => some e
  | _ => none

def registrations (log : List (AuditRecord V)) : List Evidence :=
  log.filterMap fun r => r.op.registers

/-- A log registers this document, and no other under its id. -/
def RegisteredOnce (log : List (AuditRecord V)) (e : Evidence) : Prop :=
  ∃ l r l', log = l ++ r :: l' ∧ r.op = .registerEvidence e ∧
    ∀ r' ∈ l ++ l', ∀ e', r'.op = .registerEvidence e' → e'.id ≠ e.id

/-- The evidence map is what the log registered, and the log releases only that. -/
structure Gated (s : Store V) : Prop where
  document : ∀ id e, s.evidence[id]? = some e ↔ e ∈ registrations s.log ∧ e.id = id
  once : ((registrations s.log).map (·.id)).Nodup
  stated : ∀ e ∈ registrations s.log, (trim e.requiredScope).isEmpty = false
  released : ∀ l r l' id q scope, s.log = l ++ r :: l' → r.op = .evidenceReleased id q scope →
    ∃ e ∈ registrations l, e.id = id ∧ e.requiredScope = scope

theorem registers_eq {op : Op V} (h : op.registers = some e) : op = .registerEvidence e := by
  cases op with
  | registerEvidence e' => cases h; rfl
  | _ => cases h

theorem mem_registrations {log : List (AuditRecord V)} :
    e ∈ registrations log ↔ ∃ r ∈ log, r.op = .registerEvidence e := by
  rw [registrations, List.mem_filterMap]
  constructor
  · rintro ⟨r, hr, h⟩
    exact ⟨r, hr, registers_eq h⟩
  · rintro ⟨r, hr, h⟩
    exact ⟨r, hr, by rw [h]; rfl⟩

theorem filterMap_concat {α β : Type} (f : α → Option β) (xs : List α) (x : α) :
    (xs ++ [x]).filterMap f = xs.filterMap f ++ (f x).toList := by
  rw [List.filterMap_append, List.filterMap_cons, List.filterMap_nil]
  cases f x <;> rfl

theorem registrations_concat (log : List (AuditRecord V)) (r : AuditRecord V) :
    registrations (log ++ [r]) = registrations log ++ r.op.registers.toList :=
  filterMap_concat (fun r : AuditRecord V => r.op.registers) log r

theorem registerEvidence_accepts (h : (s.registerEvidence S t e).1 = .ok a) :
    s.evidence[e.id]? = none ∧ (trim e.requiredScope).isEmpty = false := by
  unfold Store.registerEvidence at h
  split at h
  · cases h
  rename_i hfree
  split at h
  · cases h
  split at h
  · cases h
  rename_i hscope
  refine ⟨?_, Bool.eq_false_iff.2 hscope⟩
  rw [Std.ExtTreeMap.contains_eq_isSome_getElem?, Bool.not_eq_true] at hfree
  exact Option.not_isSome_iff_eq_none.1 (Bool.eq_false_iff.1 hfree)

theorem releaseEvidence_ok_iff (s : Store V) (t : Tick) (id : String) (q : Option String)
    (scope : String) (e : Evidence) :
    (s.releaseEvidence S t id q scope).1 = .ok e ↔
      s.evidence[id]? = some e ∧ e.requiredScope = scope := by
  unfold Store.releaseEvidence
  cases s.evidence[id]? with
  | none => exact ⟨fun h => (by cases h), fun h => (by cases h.1)⟩
  | some e' =>
    dsimp only
    split
    · rename_i hne
      refine ⟨fun h => (by cases h), fun ⟨he, hs⟩ => ?_⟩
      cases he
      exact (hne hs.symm).elim
    · rename_i heq
      constructor
      · intro h
        cases h
        exact ⟨rfl, (not_not.1 heq).symm⟩
      · rintro ⟨he, -⟩
        cases he
        rfl

theorem releaseEvidence_store (s : Store V) (t : Tick) (id : String) (q : Option String)
    (scope : String) :
    (∃ e, s.releaseEvidence S t id q scope =
      (.ok e, (s.record S t (.evidenceReleased id q scope)).2)) ∨
    ∃ x, s.releaseEvidence S t id q scope = (.error x, s) := by
  rcases releaseEvidence_cases (S := S) (s := s) (t := t) id q scope with ⟨x, h⟩ | ⟨-, e, h⟩
  · exact .inr ⟨x, h⟩
  · exact .inl ⟨e, h⟩

theorem concat_eq_append_cons {log l l' : List α} (h : log ++ [x] = l ++ y :: l') :
    (l = log ∧ y = x) ∨ ∃ l'', log = l ++ y :: l'' := by
  rcases List.eq_nil_or_concat l' with rfl | ⟨l'', z, rfl⟩
  · obtain ⟨hl, hx⟩ := List.append_inj' h rfl
    cases hx
    exact .inl ⟨hl.symm, rfl⟩
  · rw [List.concat_eq_append, ← List.cons_append, ← List.append_assoc] at h
    obtain ⟨hl, -⟩ := List.append_inj' h rfl
    exact .inr ⟨l'', hl⟩

/-- What a call must have checked before its operation is recorded. -/
structure Op.Checked (s : Store V) (op : Op V) : Prop where
  free : ∀ e, op = .registerEvidence e →
    s.evidence[e.id]? = none ∧ (trim e.requiredScope).isEmpty = false
  held : ∀ id q scope, op = .evidenceReleased id q scope →
    ∃ e, s.evidence[id]? = some e ∧ e.requiredScope = scope

theorem Gated.released_concat (h : Gated s) {x : AuditRecord V} (hop : x.op.Checked s)
    {l l' : List (AuditRecord V)} {id : String} (hlog : s.log ++ [x] = l ++ r :: l')
    (hr : r.op = .evidenceReleased id q scope) :
    ∃ e ∈ registrations l, e.id = id ∧ e.requiredScope = scope := by
  rcases concat_eq_append_cons hlog with ⟨rfl, rfl⟩ | ⟨l'', hl⟩
  · obtain ⟨e, he, hs⟩ := hop.held id q scope hr
    obtain ⟨hmem, hid⟩ := (h.document id e).1 he
    exact ⟨e, hmem, hid, hs⟩
  · exact h.released l r l'' id q scope hl hr

theorem registers_part {op : Op V} (h : op.registers = none) : op.part ≠ .evidence := by
  intro hp
  cases op with
  | registerEvidence e => cases h
  | _ => cases hp

section Recorded

variable {s' : Store V} {x : AuditRecord V}

theorem Gated.other (h : Gated s) (hop : x.op.Checked s) (hno : x.op.registers = none)
    (hstate : s'.toState = (applyOp S s.toState x.op).2) (hlog : s'.log = s.log ++ [x]) :
    Gated s' := by
  have hev : s'.evidence = s.evidence := by
    rw [hstate]
    exact (applyOp_sameBut S s.toState x.op).evidence (registers_part hno)
  have hregs : registrations s'.log = registrations s.log := by
    rw [hlog, registrations_concat, hno, Option.toList_none, List.append_nil]
  constructor
  · rw [hev, hregs]
    exact h.document
  · rw [hregs]
    exact h.once
  · rw [hregs]
    exact h.stated
  · intro l r l' id q scope hsplit hr
    rw [hlog] at hsplit
    exact h.released_concat hop hsplit hr

theorem insert_document {m : StringMap Evidence} {l : List Evidence}
    (h : ∀ id y, m[id]? = some y ↔ y ∈ l ∧ y.id = id) {e : Evidence} (hnew : ∀ y ∈ l, y.id ≠ e.id)
    (id : String) (y : Evidence) :
    (m.insert e.id e)[id]? = some y ↔ y ∈ l ++ [e] ∧ y.id = id := by
  rw [Std.ExtTreeMap.getElem?_insert, List.mem_append, List.mem_singleton]
  split
  · rename_i hid
    obtain rfl := compare_eq_iff_eq.1 hid
    rw [Option.some.injEq]
    constructor
    · rintro rfl
      exact ⟨.inr rfl, rfl⟩
    · rintro ⟨hy | hy, hid⟩
      · exact (hnew y hy hid).elim
      · exact hy.symm
  · rename_i hid
    rw [compare_eq_iff_eq] at hid
    rw [h]
    constructor
    · rintro ⟨hy, hyid⟩
      exact ⟨.inl hy, hyid⟩
    · rintro ⟨hy | rfl, hyid⟩
      · exact ⟨hy, hyid⟩
      · exact (hid hyid).elim

theorem Gated.register (h : Gated s) (hop : x.op.Checked s) (hx : x.op = .registerEvidence e)
    (hstate : s'.toState = (applyOp S s.toState x.op).2) (hlog : s'.log = s.log ++ [x]) :
    Gated s' := by
  obtain ⟨hfree, hscope⟩ := hop.free e hx
  have hev : s'.evidence = s.evidence.insert e.id e := by
    have hcontains : s.evidence.contains e.id = false := by
      rw [Std.ExtTreeMap.contains_eq_isSome_getElem?, hfree]
      rfl
    rw [hstate, hx]
    simp only [applyOp, hcontains, Bool.false_eq_true, if_false]
  have hregs : registrations s'.log = registrations s.log ++ [e] := by
    rw [hlog, registrations_concat, hx]
    rfl
  have hnew : ∀ y ∈ registrations s.log, y.id ≠ e.id := by
    intro y hy hid
    have hsome := (h.document e.id y).2 ⟨hy, hid⟩
    rw [hfree] at hsome
    cases hsome
  constructor
  · rw [hev, hregs]
    exact insert_document h.document hnew
  · rw [hregs, List.map_append, List.map_singleton, List.nodup_append]
    refine ⟨h.once, List.nodup_singleton _, ?_⟩
    intro a ha b hb
    obtain ⟨y, hy, rfl⟩ := List.mem_map.1 ha
    rw [List.mem_singleton.1 hb]
    exact hnew y hy
  · rw [hregs]
    intro y hy
    rcases List.mem_append.1 hy with hy | hy
    · exact h.stated y hy
    · rw [List.mem_singleton.1 hy]
      exact hscope
  · intro l r l' id q scope hsplit hr
    rw [hlog] at hsplit
    exact h.released_concat hop hsplit hr

theorem Gated.record (h : Gated s) (hop : x.op.Checked s)
    (hstate : s'.toState = (applyOp S s.toState x.op).2) (hlog : s'.log = s.log ++ [x]) :
    Gated s' := by
  cases hr : x.op.registers with
  | none => exact h.other hop hr hstate hlog
  | some e => exact h.register hop (registers_eq hr) hstate hlog

end Recorded

theorem mutate_checked (h : (s.mutate S t op).1 = .ok a) : op.Checked s := by
  constructor
  · rintro e rfl
    change ((s.registerEvidence S t e).1.map _) = _ at h
    cases hr : (s.registerEvidence S t e).1 with
    | error x => rw [hr] at h; cases h
    | ok r => exact registerEvidence_accepts hr
  · rintro id q scope rfl
    change ((s.releaseEvidence S t id q scope).1.map _) = _ at h
    cases hr : (s.releaseEvidence S t id q scope).1 with
    | error x => rw [hr] at h; cases h
    | ok e => exact ⟨e, (releaseEvidence_ok_iff s t id q scope e).1 hr⟩

def Op.Plain (op : Op V) : Prop := op.part ≠ .evidence ∧ op.part ≠ .none

theorem seedOps_plain {F : Fixtures V} (h : (seedOps S F : Outcome ε _) = .ok ops) :
    ∀ op ∈ ops, op.Plain := by
  have hpart {op : Op V} {p : Part} (ho : op.part = p) (hp : p ≠ .evidence ∧ p ≠ .none) :
      op.Plain := by
    rw [Op.Plain, ho]
    exact hp
  obtain ⟨keys, qIds, quorumId, rootId, notifiedId, issuerId, edges, lists, master, revocations, he,
    -, hm, hr, rfl⟩ := seedOps_ok h
  intro op hop
  simp only [List.mem_append] at hop
  rcases hop with (((hop | hop) | hop) | hop) | hop
  · simp only [seedNodes, List.mem_append, List.mem_map, List.mem_cons, List.not_mem_nil,
      or_false] at hop
    rcases hop with (⟨w, -, rfl⟩ | ⟨w, -, rfl⟩) | rfl | rfl | rfl | rfl
    all_goals exact hpart (p := .graph) rfl (by decide)
  · simp only [seedEdges] at he
    obtain ⟨minted, -, he⟩ := bind_eq_ok he
    obtain ⟨hop1, -, he⟩ := bind_eq_ok he
    obtain ⟨hop2, -, he⟩ := bind_eq_ok he
    cases he
    simp only [List.mem_cons, List.not_mem_nil, or_false] at hop
    rcases hop with rfl | rfl
    all_goals exact hpart (p := .graph) rfl (by decide)
  · simp only [seedLists, List.mem_append, List.mem_map, List.mem_flatMap] at hop
    rcases hop with ⟨l, -, rfl⟩ | ⟨l, -, e, -, rfl⟩
    all_goals exact hpart (p := .lists) rfl (by decide)
  · simp only [seedMaster] at hm
    obtain ⟨attestations, -, hm⟩ := bind_eq_ok hm
    cases hm
    simp only [List.mem_cons, List.not_mem_nil, or_false] at hop
    rcases hop with rfl | rfl
    all_goals exact hpart (p := .master) rfl (by decide)
  · simp only [seedRevocations] at hr
    obtain ⟨window, -, hr⟩ := bind_eq_ok hr
    obtain ⟨declaredBy, -, hr⟩ := bind_eq_ok hr
    obtain ⟨att, -, hr⟩ := bind_eq_ok hr
    cases hr
    simp only [List.mem_cons, List.not_mem_nil, or_false] at hop
    rcases hop with rfl | rfl
    all_goals exact hpart (p := .ledger) rfl (by decide)

theorem stateOf_plain (log : List (AuditRecord V)) (h : ∀ r ∈ log, r.op.Plain) :
    (stateOf C log).evidence = ∅ := by
  induction log using List.reverseRecOn with
  | nil => rfl
  | append_singleton l r ih =>
    have hr := (h r (List.mem_append_right _ List.mem_cons_self)).1
    rw [stateOf_concat, (applyOp_sameBut C.signatif (stateOf C l) r.op).evidence hr]
    exact ih fun x hx => h x (List.mem_append_left _ hx)

theorem gated_plain (hs : s.toState = stateOf C s.log) (h : ∀ r ∈ s.log, r.op.Plain) :
    Gated s := by
  have hev : s.evidence = ∅ := by
    have he := congrArg State.evidence hs
    rw [stateOf_plain s.log h] at he
    exact he
  have hno : registrations s.log = [] := by
    rw [registrations, List.filterMap_eq_nil_iff]
    intro r hr
    cases ho : r.op.registers with
    | none => rfl
    | some e =>
      have hp := (h r hr).1
      rw [registers_eq ho] at hp
      exact (hp rfl).elim
  constructor
  · intro id e
    rw [hev, hno, Std.ExtTreeMap.getElem?_empty]
    constructor
    · intro hn
      cases hn
    · rintro ⟨hm, -⟩
      cases hm
  · rw [hno]
    exact List.nodup_nil
  · rw [hno]
    intro e he
    cases he
  · intro l r l' id q scope hlog hr
    have hp := (h r (by rw [hlog]; exact List.mem_append_right _ List.mem_cons_self)).2
    rw [hr] at hp
    exact (hp rfl).elim

theorem Gated.lookup (h : Gated s) (h' : Gated s')
    (hsame : registrations s'.log = registrations s.log) (id : String) :
    s'.evidence[id]? = s.evidence[id]? := by
  apply Option.ext
  intro e
  rw [h'.document, h.document, hsame]

section Kinds

variable {op op' : Op V}

theorem Op.Checked.congr (hop : op.Checked s) (h : Gated s) (h' : Gated s')
    (hsame : registrations s'.log = registrations s.log) : op.Checked s' where
  free e he := by
    rw [h.lookup h' hsame]
    exact hop.free e he
  held id q scope he := by
    rw [h.lookup h' hsame]
    exact hop.held id q scope he

theorem Op.Plain.checked (h : op.Plain) (s : Store V) : op.Checked s where
  free e he := by
    rw [he] at h
    exact (h.1 rfl).elim
  held id q scope he := by
    rw [he] at h
    exact (h.2 rfl).elim

theorem Op.Plain.registers (h : op.Plain) : op.registers = none := by
  cases hr : op.registers with
  | none => rfl
  | some e =>
    rw [registers_eq hr] at h
    exact (h.1 rfl).elim

theorem opFromJson_part (hS : S.Lawful P) (h : opFromJson S op.name (op.body S) = .ok op') :
    op'.part = op.part := by
  have hbind {β : Type} {x : Outcome String β} {f : β → Op V}
      (h : (x >>= fun a => .ok (f a)) = .ok op') : ∃ a, op' = f a := by
    obtain ⟨a, -, ha⟩ := bind_eq_ok h
    exact ⟨a, (Except.ok.inj ha).symm⟩
  have hsame (hw : op.WellFormed S) : op'.part = op.part := by
    rw [op_round_trip hS hw] at h
    rw [Except.ok.inj h]
  cases op with
  | registerNode node => obtain ⟨a, rfl⟩ := hbind h; rfl
  | addEdge credential => obtain ⟨a, rfl⟩ := hbind h; rfl
  | upsertMasterEntry entry => obtain ⟨a, rfl⟩ := hbind h; rfl
  | declareRevocation revocation => obtain ⟨a, rfl⟩ := hbind h; rfl
  | upsertTrustEntry jurisdiction node notBefore supersededAt =>
    change trustEntryFromJson S _ = _ at h
    obtain ⟨j, -, h⟩ := bind_eq_ok h
    obtain ⟨jurisdiction, -, h⟩ := bind_eq_ok h
    obtain ⟨nodeStr, -, h⟩ := bind_eq_ok h
    obtain ⟨node, -, h⟩ := bind_eq_ok h
    obtain ⟨notBeforeStr, -, h⟩ := bind_eq_ok h
    obtain ⟨notBefore, -, h⟩ := bind_eq_ok h
    split at h
    · cases h
      rfl
    · obtain ⟨a, rfl⟩ := hbind h
      rfl
  | registerTrustList jurisdiction framework => exact hsame trivial
  | setWitnesses m witnesses => exact hsame trivial
  | registerEvidence evidence => exact hsame trivial
  | evidenceReleased id requester scope => exact hsame trivial

end Kinds

theorem registrations_plain {log : List (AuditRecord V)} (h : ∀ r ∈ log, r.op.Plain) :
    registrations log = [] := by
  rw [registrations, List.filterMap_eq_nil_iff]
  exact fun r hr => (h r hr).registers

theorem found_plain (hC : C.Lawful) {r x : AuditRecord V}
    (h : (journalFormat C).found r = some x) (hr : r.op.Plain) : x.op.Plain := by
  rw [Op.Plain, opFromJson_part hC.signatif (found_op hC h)]
  exact hr

theorem found_wellFormed (hC : C.Lawful) {r x : AuditRecord V}
    (h : (journalFormat C).found r = some x) (hr : r.op.WellFormed C.signatif) : x.op = r.op := by
  have hop := found_op hC h
  rw [op_round_trip hC.signatif hr] at hop
  exact (Except.ok.inj hop).symm

/-- The clock reads an instant of the years 0000 to 9999, and the write succeeds, whenever a
document is registered. -/
def Event.Dated : Event V → Prop
  | .call (.registerEvidence _) t => t.now.InYears ∧ t.written = true
  | _ => True

theorem found_cases (hC : C.Lawful) {op : Op V} {t : Tick} (hd : (Event.call op t).Dated)
    {x : AuditRecord V} (hop : x.op = op)
    (hat : x.recordedAt = C.signatif.timeFromSecs t.now.secs) :
    (op.registers = none ∧ (journalFormat C).found x = none) ∨
    ∃ x', (journalFormat C).found x = some x' ∧ (x'.op = op ∨ op.Plain ∧ x'.op.Plain) := by
  subst hop
  have hsame (hw : x.op.WellFormed C.signatif) (hno : x.op.registers = none) :
      (x.op.registers = none ∧ (journalFormat C).found x = none) ∨
      ∃ x', (journalFormat C).found x = some x' ∧
        (x'.op = x.op ∨ x.op.Plain ∧ x'.op.Plain) := by
    cases hf : (journalFormat C).found x with
    | none => exact .inl ⟨hno, rfl⟩
    | some x' => exact .inr ⟨x', rfl, .inl (found_wellFormed hC hf hw)⟩
  have hplain (hp : x.op.Plain) :
      (x.op.registers = none ∧ (journalFormat C).found x = none) ∨
      ∃ x', (journalFormat C).found x = some x' ∧
        (x'.op = x.op ∨ x.op.Plain ∧ x'.op.Plain) := by
    cases hf : (journalFormat C).found x with
    | none => exact .inl ⟨hp.registers, rfl⟩
    | some x' => exact .inr ⟨x', rfl, .inr ⟨hp, found_plain hC hf hp⟩⟩
  obtain ⟨n, at_, op⟩ := x
  cases op with
  | registerEvidence e =>
    refine .inr ⟨_, reads_iff_found.1 (journal_reads hC ⟨trivial, t.now, hd.1, hat⟩), .inl rfl⟩
  | evidenceReleased id requester scope => exact hsame trivial rfl
  | _ => exact hplain ⟨(fun h => by cases h), (fun h => by cases h)⟩

/-- The gate holds of the store, and of what its journal would give back, with the same
registrations. -/
structure Kept (C : Crates V) (s : Store V) (ws : List (AuditRecord V)) : Prop where
  sound : s.Sound C ws
  live : Gated s
  back : Gated (storeOf C (ws.filterMap (journalFormat C).found) [])
  same : registrations (ws.filterMap (journalFormat C).found) = registrations s.log

/-- A store whose log and journal hold no evidence operation. -/
theorem kept_plain (hs : s.Sound C ws) (hlog : ∀ r ∈ s.log, r.op.Plain)
    (hws : ∀ r ∈ ws.filterMap (journalFormat C).found, r.op.Plain) : Kept C s ws where
  sound := hs
  live := gated_plain hs.state hlog
  back := gated_plain rfl hws
  same := by rw [registrations_plain hlog, registrations_plain hws]

theorem Kept.record (hC : C.Lawful) (h : Kept C s ws) {op : Op V} (hop : op.Checked s)
    {t : Tick} (hd : (Event.call op t).Dated) :
    Kept C (s.record C.signatif t op).2
      (ws ++ journaled [((s.record C.signatif t op).1, t.written)]) := by
  generalize hx : (s.record C.signatif t op).1 = x
  have hxop : x.op = op := by rw [← hx]; rfl
  have hat : x.recordedAt = C.signatif.timeFromSecs t.now.secs := by rw [← hx]; rfl
  have hlog : (s.record C.signatif t op).2.log = s.log ++ [x] := by rw [← hx]; rfl
  have hsound := h.sound.record t op
  rw [hx] at hsound
  have hregs : registrations (s.record C.signatif t op).2.log =
      registrations s.log ++ op.registers.toList := by
    rw [hlog, registrations_concat, hxop]
  have hlive : Gated (s.record C.signatif t op).2 := h.live.record (x := x)
    (by rw [hxop]; exact hop) (by rw [hxop]; rfl) hlog
  -- nothing is given back: the record was not written, or is dropped
  have hnone (hno : op.registers = none)
      (hws : (ws ++ journaled [(x, t.written)]).filterMap (journalFormat C).found =
        ws.filterMap (journalFormat C).found) :
      Kept C (s.record C.signatif t op).2 (ws ++ journaled [(x, t.written)]) := by
    refine ⟨hsound, hlive, by rw [hws]; exact h.back, ?_⟩
    rw [hws, hregs, hno, Option.toList_none, List.append_nil, h.same]
  cases hw : t.written with
  | false =>
    rw [hw] at hnone
    refine hnone ?_ (congrArg _ (List.append_nil ws))
    cases op with
    | registerEvidence e =>
      rw [Event.Dated, hw] at hd
      cases hd.2
    | _ => rfl
  | true =>
    rw [hw] at hnone hsound
    change Kept C _ (ws ++ [x])
    have hfound := filterMap_concat (journalFormat C).found ws x
    rcases found_cases hC hd hxop hat with ⟨hno, hf⟩ | ⟨x', hf, hx'⟩
    · rw [hf, Option.toList_none, List.append_nil] at hfound
      exact hnone hno hfound
    · rw [hf, Option.toList_some] at hfound
      have hback : x'.op.Checked (storeOf C (ws.filterMap (journalFormat C).found) []) := by
        rcases hx' with hx' | ⟨-, hp⟩
        · rw [hx']
          exact hop.congr h.live h.back h.same
        · exact hp.checked _
      have hreg : x'.op.registers = op.registers := by
        rcases hx' with hx' | ⟨hp, hp'⟩
        · rw [hx']
        · rw [hp.registers, hp'.registers]
      refine ⟨hsound, hlive, ?_, ?_⟩
      · rw [hfound]
        exact h.back.record hback (stateOf_concat C _ x') rfl
      · rw [hfound, registrations_concat, hreg, hregs, h.same]

/-- A restart gives back the store the journal stands for, with the same registrations. -/
theorem Kept.restart (hC : C.Lawful) (h : Kept C s ws)
    (hopen : Store.open_ C s.journal seed ticks = .ok s') :
    (∃ ws', Kept C s' ws') ∧ registrations s.log <+: registrations s'.log := by
  by_cases hc : seed = true ∧ ws.filterMap (journalFormat C).found = []
  · rw [h.sound.open_ hC, hc.2, hc.1] at hopen
    obtain ⟨rs, rfl, hops, -⟩ := seedFixtures_storeOf hopen
    have hplain : ∀ r ∈ rs, r.op.Plain := fun r hr =>
      seedOps_plain hops r.op (List.mem_map_of_mem hr)
    have hno : registrations s.log = [] := by
      rw [← h.same, hc.2]
      rfl
    rw [hno, ← Format.file_append]
    refine ⟨⟨_, kept_plain (sound_storeOf _ _) hplain fun r hr => ?_⟩, List.nil_prefix⟩
    rw [List.filterMap_append, hc.2, List.nil_append, List.mem_filterMap] at hr
    obtain ⟨x, hx, hf⟩ := hr
    obtain ⟨a, ha, rfl⟩ := mem_journaled hx
    refine found_plain hC hf (hplain _ ?_)
    rw [← openingAcks_map ticks rs]
    exact List.mem_map_of_mem ha
  · rw [h.sound.open_found hC fun hseed hnil => hc ⟨hseed, hnil⟩] at hopen
    cases hopen
    have hb := h.back
    refine ⟨⟨ws, rfl, ⟨hb.document, hb.once, hb.stated, hb.released⟩, hb, rfl⟩, [], ?_⟩
    rw [List.append_nil, storeOf_log, h.same]

theorem Kept.step (hC : C.Lawful) (h : Kept C s ws) {e : Event V} (hd : e.Dated)
    (hstep : s.step C seed e = .ok s') :
    (∃ ws', Kept C s' ws') ∧ registrations s.log <+: registrations s'.log := by
  cases e with
  | restart ticks => exact h.restart hC hstep
  | call op t =>
    cases hstep
    rcases mutate_cases C.signatif s t op with ⟨x, hm⟩ | ⟨-, a, hm⟩
    · rw [hm]
      exact ⟨⟨ws, h⟩, List.prefix_rfl⟩
    · have hop : op.Checked s := mutate_checked (t := t) (S := C.signatif) (by rw [hm])
      rw [hm]
      refine ⟨⟨_, h.record hC hop hd⟩, ?_⟩
      change _ <+: registrations (s.log ++ [(s.record C.signatif t op).1])
      rw [registrations_concat]
      exact List.prefix_append _ _

theorem kept_empty (C : Crates V) : Kept C (storeOf C [] []) [] :=
  kept_plain rfl (fun r hr => by cases hr) fun r hr => by cases hr

theorem Reached.kept (hC : C.Lawful) (h : Reached C seed Event.Dated s) : ∃ ws, Kept C s ws := by
  induction h with
  | opened ticks hp h => exact ((kept_empty C).restart hC h).1
  | stepped hx hp h ih =>
    obtain ⟨ws, hws⟩ := ih
    exact (hws.step hC hp h).1

theorem registeredOnce_iff {log : List (AuditRecord V)}
    (hn : ((registrations log).map (·.id)).Nodup) :
    RegisteredOnce log e ↔ e ∈ registrations log := by
  constructor
  · rintro ⟨l, r, l', rfl, hr, -⟩
    exact mem_registrations.2 ⟨r, List.mem_append_right _ List.mem_cons_self, hr⟩
  · intro he
    obtain ⟨r, hr, hop⟩ := mem_registrations.1 he
    obtain ⟨l, l', rfl⟩ := List.append_of_mem hr
    have hsplit : registrations (l ++ r :: l') =
        registrations l ++ e :: registrations l' := by
      rw [registrations, List.filterMap_append, List.filterMap_cons, hop]
      rfl
    rw [hsplit, List.map_append, List.map_cons, List.nodup_middle, ← List.map_append,
      List.nodup_cons] at hn
    refine ⟨l, r, l', rfl, hop, fun r' hr' e' hop' hid => hn.1 (List.mem_map.2 ⟨e', ?_, hid⟩)⟩
    rw [registrations, registrations, ← List.filterMap_append, ← registrations]
    exact mem_registrations.2 ⟨r', hr', hop'⟩

/-- A step that loses no registration keeps every registered document as it is. -/
theorem Gated.step_keeps (h : Gated s) (h' : Gated s')
    (hregs : registrations s.log <+: registrations s'.log) {id : String}
    (he : s.evidence[id]? = some e) : s'.evidence[id]? = some e := by
  obtain ⟨hmem, hid⟩ := (h.document id e).1 he
  exact (h'.document id e).2 ⟨hregs.subset hmem, hid⟩

/-- Over every run whose registrations are dated: a document stays what its one registration was; a
release is granted for the registered scope only and leaves one record; every release of the log
follows its registration; and no release is granted without a scope. -/
theorem evidence_gating (C : Crates V) (hC : C.Lawful) (seed : Bool) (s : Store V)
    (hs : Reached C seed Event.Dated s) :
    (∀ (id : String) (e : Evidence),
      s.evidence[id]? = some e ↔ e.id = id ∧ RegisteredOnce s.log e) ∧
    (∀ ev s', ev.Dated → s.step C seed ev = .ok s' →
      ∀ (id : String) (e : Evidence), s.evidence[id]? = some e → s'.evidence[id]? = some e) ∧
    (∀ id q scope now,
      let out := s.releaseEvidence C.signatif ⟨now, true⟩ id q scope
      (∀ e, out.1 = .ok e ↔ s.evidence[id]? = some e ∧ e.requiredScope = scope) ∧
      (∀ e, out.1 = .ok e → ∃ r : AuditRecord V, r.op = .evidenceReleased id q scope ∧
        out.2.log = s.log ++ [r] ∧
        out.2.journal = s.journal.map (· ++ r.line C.signatif)) ∧
      (∀ x, out.1 = .error x → out.2 = s)) ∧
    (∀ l r l' id q scope, s.log = l ++ r :: l' → r.op = .evidenceReleased id q scope →
      ∃ r' ∈ l, ∃ e, r'.op = .registerEvidence e ∧ e.id = id ∧ e.requiredScope = scope) ∧
    (∀ id q t, ∃ x, (s.releaseEvidence C.signatif t id q "").1 = .error x) := by
  obtain ⟨ws, hkept⟩ := hs.kept hC
  have hg := hkept.live
  refine ⟨fun id e => ?_, fun ev s' hd hstep id e he => ?_, fun id q scope now => ?_, ?_, ?_⟩
  · rw [hg.document, registeredOnce_iff hg.once, and_comm]
  · obtain ⟨⟨ws', hkept'⟩, hregs⟩ := hkept.step hC hd hstep
    exact hg.step_keeps hkept'.live hregs he
  · refine ⟨releaseEvidence_ok_iff s _ id q scope, ?_⟩
    rcases releaseEvidence_store (S := C.signatif) s ⟨now, true⟩ id q scope with
      ⟨e, h⟩ | ⟨x, h⟩
    · rw [h]
      exact ⟨fun _ _ => ⟨_, rfl, rfl, rfl⟩, fun x hx => by cases hx⟩
    · rw [h]
      exact ⟨fun e he => (by cases he), fun _ _ => rfl⟩
  · intro l r l' id q scope hlog hr
    obtain ⟨e, he, hid, hscope⟩ := hg.released l r l' id q scope hlog hr
    obtain ⟨r', hr', hop⟩ := mem_registrations.1 he
    exact ⟨r', hr', e, hop, hid, hscope⟩
  · intro id q t
    cases hout : (s.releaseEvidence C.signatif t id q "").1 with
    | error x => exact ⟨x, rfl⟩
    | ok e =>
      obtain ⟨he, hscope⟩ := (releaseEvidence_ok_iff s t id q "" e).1 hout
      have hstated := hg.stated e ((hg.document id e).1 he).1
      rw [hscope] at hstated
      exact absurd hstated (by decide)

def certificate : Evidence := ⟨"cert", "text/plain", "", "audit", [1, 2]⟩

theorem evidence_gating_certificate :
    ∃ s, Reached Reference.crates false Event.Dated s ∧ s.evidence["cert"]? = some certificate ∧
      RegisteredOnce s.log certificate ∧
      ∃ x, (s.releaseEvidence Reference.signatif (Reference.noon 1) "cert" none "").1 =
        .error x := by
  have h₀ : Reached Reference.crates false Event.Dated (storeOf Reference.crates [] []) :=
    .opened Reference.noon trivial rfl
  have hdated : (Event.call (.registerEvidence certificate : Op Reference.vocabulary)
      (Reference.noon 0)).Dated := Reference.noon_inYears 0
  have hs := h₀.stepped hdated rfl
  obtain ⟨ha, -, -, -, hd⟩ := evidence_gating Reference.crates Reference.crates_lawful false _ hs
  refine ⟨_, hs, ?_, ?_, hd "cert" none (Reference.noon 1)⟩
  · rfl
  · exact ((ha "cert" certificate).1 rfl).2

def afterYears : Tick := ⟨⟨253402300800⟩, true⟩

def lateRegistration : AuditRecord Reference.vocabulary :=
  stamped Reference.signatif 0 afterYears (.registerEvidence certificate)

theorem lateRegistration_dropped :
    (journalFormat Reference.crates).found lateRegistration = none := by
  have hstamp : ∃ x, tsParse Reference.signatif
      (stampStr Reference.signatif lateRegistration.recordedAt) = fail x := ⟨_, rfl⟩
  obtain ⟨x, hx⟩ := hstamp
  apply found_eq
  rw [journal_read, readLine_record Reference.crates_lawful, record_fromJson]
  rw [Reference.crates_signatif, hx]
  rfl

/-- A document registered after the year 9999 and released: a restart drops its registration and
keeps the release. -/
theorem released_unregistered :
    ∃ s r, Reached Reference.crates false Event.Journaled s ∧ s.log = [r] ∧
      r.op = .evidenceReleased "cert" none "audit" := by
  have h₀ : Reached Reference.crates false Event.Journaled (storeOf Reference.crates [] []) :=
    .opened Reference.noon (fun i => (Reference.noon_inYears i).2) rfl
  have h₁ := h₀.call (.registerEvidence certificate) afterYears rfl rfl ⟨_, rfl⟩
  have h₂ := h₁.call (.evidenceReleased "cert" none "audit") (Reference.noon 0) rfl rfl ⟨_, rfl⟩
  let x := stamped Reference.signatif 1 (Reference.noon 0) (.evidenceReleased "cert" none "audit")
  have hfound : ([lateRegistration, x]).filterMap (journalFormat Reference.crates).found = [x] := by
    have hx : (journalFormat Reference.crates).Reads x :=
      journal_reads Reference.crates_lawful ⟨trivial, _, (Reference.noon_inYears 0).1, rfl⟩
    rw [List.filterMap_cons, lateRegistration_dropped, filterMap_found]
    exact fun r hr => by rw [List.mem_singleton.1 hr]; exact hx
  have hsound : (storeOf Reference.crates [lateRegistration, x]
      ([] ++ lateRegistration.line Reference.signatif ++ x.line Reference.signatif)).Sound
        Reference.crates [lateRegistration, x] := by
    rw [Store.Sound, storeOf_log, List.nil_append, journal_file_cons, journal_line,
      Reference.crates_signatif]
  have hunseeded : false = true →
      [lateRegistration, x].filterMap (journalFormat Reference.crates).found ≠ [] :=
    fun hf => by cases hf
  have hopen := hsound.open_found Reference.crates_lawful hunseeded Reference.noon
  rw [hfound] at hopen
  have hwritten : Event.Journaled (.restart Reference.noon : Event Reference.vocabulary) :=
    fun i => (Reference.noon_inYears i).2
  exact ⟨_, x, h₂.stepped hwritten hopen, rfl, rfl⟩

end UnidppTrust
