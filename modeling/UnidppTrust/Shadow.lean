import UnidppTrust.Keyed

namespace UnidppTrust
open Rust Json
set_option autoImplicit true

variable {V : Vocabulary} {S : Signatif V} {d : String}

/-- A document with its content blanked out, if it is the one. -/
def Evidence.redact (d : String) (e : Evidence) : Evidence :=
  if e.id = d then { e with content := List.replicate e.content.length 0 } else e

def Op.redact (d : String) : Op V → Op V
  | .registerEvidence e => .registerEvidence (e.redact d)
  | op => op

def AuditRecord.redact (d : String) (r : AuditRecord V) : AuditRecord V :=
  { r with op := r.op.redact d }

def redactAll (d : String) (m : StringMap Evidence) : StringMap Evidence :=
  m.map fun _ e => e.redact d

/-- Two stores that agree in everything but the content of one document, whose length they agree
in. -/
structure Shadow (d : String) (s s' : Store V) : Prop where
  state : s'.toState = { s.toState with evidence := s'.evidence }
  evidence : redactAll d s'.evidence = redactAll d s.evidence
  log : s'.log.map (AuditRecord.redact d) = s.log.map (AuditRecord.redact d)

structure Alike (d : String) (x x' : α × Store V) : Prop where
  result : x'.1 = x.1
  store : Shadow d x.2 x'.2

@[simp] theorem redact_id (e : Evidence) : (e.redact d).id = e.id := by
  unfold Evidence.redact
  split <;> rfl

@[simp] theorem redact_scope (e : Evidence) : (e.redact d).requiredScope = e.requiredScope := by
  unfold Evidence.redact
  split <;> rfl

/-- Metadata tells of the content only its length. -/
@[simp] theorem metaJson_redact (e : Evidence) : (e.redact d).metaJson = e.metaJson := by
  unfold Evidence.redact
  split
  · simp only [Evidence.metaJson, List.length_replicate]
  · rfl

theorem redact_of_ne {e : Evidence} (h : e.id ≠ d) : e.redact d = e := if_neg h

theorem getElem?_redactAll (m : StringMap Evidence) (id : String) :
    (redactAll d m)[id]? = m[id]?.map (Evidence.redact d) := Std.ExtTreeMap.getElem?_map

variable {s s' : Store V}

theorem Shadow.getElem? (h : Shadow d s s') (id : String) :
    s'.evidence[id]?.map (Evidence.redact d) = s.evidence[id]?.map (Evidence.redact d) := by
  rw [← getElem?_redactAll, ← getElem?_redactAll, h.evidence]

theorem Shadow.contains (h : Shadow d s s') (id : String) :
    s'.evidence.contains id = s.evidence.contains id := by
  have hi := congrArg Option.isSome (h.getElem? id)
  rw [Option.isSome_map, Option.isSome_map] at hi
  rw [Std.ExtTreeMap.contains_eq_isSome_getElem?, Std.ExtTreeMap.contains_eq_isSome_getElem?, hi]

theorem Shadow.length (h : Shadow d s s') : s'.log.length = s.log.length := by
  have hl := congrArg List.length h.log
  rwa [List.length_map, List.length_map] at hl

theorem Shadow.graph (h : Shadow d s s') : s'.graph = s.graph := by
  rw [h.state]

theorem Shadow.trustLists (h : Shadow d s s') : s'.trustLists = s.trustLists := by
  rw [h.state]

theorem Shadow.frameworks (h : Shadow d s s') : s'.frameworks = s.frameworks := by
  rw [h.state]

theorem Shadow.master (h : Shadow d s s') : s'.master = s.master := by
  rw [h.state]

theorem Shadow.ledger (h : Shadow d s s') : s'.ledger = s.ledger := by
  rw [h.state]

theorem applyOp_evidence (st : State V) {op : Op V} (h : op.part ≠ .evidence)
    (ev : StringMap Evidence) : applyOp S { st with evidence := ev } op =
      ((applyOp S st op).1, { (applyOp S st op).2 with evidence := ev }) := by
  cases op with
  | registerNode node =>
    simp only [applyOp, applyRegisterNode]
    split <;> rfl
  | addEdge credential => rfl
  | registerTrustList jurisdiction framework =>
    simp only [applyOp]
    split <;> rfl
  | upsertTrustEntry jurisdiction node notBefore supersededAt =>
    simp only [applyOp]
    split <;> rfl
  | setWitnesses m witnesses =>
    simp only [applyOp]
    split
    · rfl
    split
    · rfl
    split <;> rfl
  | upsertMasterEntry entry =>
    simp only [applyOp]
    split <;> rfl
  | declareRevocation revocation =>
    simp only [applyOp]
    split <;> rfl
  | registerEvidence evidence => exact (h rfl).elim
  | evidenceReleased id requester scope => rfl

theorem redactAll_insert (m : StringMap Evidence) (id : String) (e : Evidence) :
    redactAll d (m.insert id e) = (redactAll d m).insert id (e.redact d) := by
  apply Std.ExtTreeMap.ext_getElem?
  intro k
  rw [getElem?_redactAll, Std.ExtTreeMap.getElem?_insert, Std.ExtTreeMap.getElem?_insert,
    getElem?_redactAll]
  split <;> rfl

theorem Shadow.applyOp (h : Shadow d s s') (op : Op V) :
    (UnidppTrust.applyOp S s'.toState op).2 =
      { (UnidppTrust.applyOp S s.toState op).2 with
        evidence := (UnidppTrust.applyOp S s'.toState op).2.evidence } ∧
    redactAll d (UnidppTrust.applyOp S s'.toState op).2.evidence =
      redactAll d (UnidppTrust.applyOp S s.toState op).2.evidence := by
  by_cases hp : op.part = .evidence
  · cases op with
    | registerEvidence e =>
      simp only [UnidppTrust.applyOp, h.contains]
      split
      · exact ⟨h.state, h.evidence⟩
      · refine ⟨?_, ?_⟩
        · rw [h.state]
        · rw [redactAll_insert, redactAll_insert, h.evidence]
    | _ => cases hp
  · have hkeep := (applyOp_sameBut S s.toState op).evidence hp
    rw [h.state, applyOp_evidence s.toState hp]
    exact ⟨rfl, by rw [hkeep, h.evidence]⟩

theorem Shadow.recorded (h : Shadow d s s') (t : Tick) (op : Op V) :
    Alike d (s.recorded S t op) (s'.recorded S t op) := by
  have hr : (s'.record S t op).1 = (s.record S t op).1 := by
    simp only [Store.record, h.length]
  obtain ⟨hstate, hevidence⟩ := h.applyOp (S := S) op
  refine ⟨congrArg Except.ok hr, hstate, hevidence, ?_⟩
  change (s'.log ++ [(s'.record S t op).1]).map _ = (s.log ++ [(s.record S t op).1]).map _
  rw [List.map_append, List.map_append, h.log, hr]

theorem Shadow.refused (h : Shadow d s s') (a : α) : Alike d (a, s) (a, s') := ⟨rfl, h⟩

theorem Shadow.addEdge (h : Shadow d s s') (t : Tick) (credential : DelegationCredential V) :
    Alike d (s.addEdge S t credential) (s'.addEdge S t credential) := by
  simp only [Store.addEdge, h.graph]
  split
  · exact h.refused _
  · exact h.recorded t _

theorem Shadow.registerTrustList (h : Shadow d s s') (t : Tick) (jurisdiction : String)
    (framework : Option String) :
    Alike d (s.registerTrustList S t jurisdiction framework)
      (s'.registerTrustList S t jurisdiction framework) := by
  simp only [Store.registerTrustList, h.trustLists]
  split
  · exact h.refused _
  · exact h.recorded t _

theorem Shadow.upsertTrustEntry (h : Shadow d s s') (t : Tick) (jurisdiction : String)
    (node : V.NodeId) (notBefore : V.Time) (supersededAt : Option V.Time) :
    Alike d (s.upsertTrustEntry S t jurisdiction node notBefore supersededAt)
      (s'.upsertTrustEntry S t jurisdiction node notBefore supersededAt) := by
  simp only [Store.upsertTrustEntry, h.trustLists]
  split
  · exact h.refused _
  · exact h.recorded t _

theorem Shadow.setWitnesses (h : Shadow d s s') (t : Tick) (m : UInt64)
    (witnesses : List (V.NodeId × V.PublicKey)) :
    Alike d (s.setWitnesses S t m witnesses) (s'.setWitnesses S t m witnesses) := by
  simp only [Store.setWitnesses]
  split
  · exact h.refused _
  · exact h.recorded t _

theorem Shadow.upsertMasterEntry (h : Shadow d s s') (t : Tick) (entry : MasterListEntry V) :
    Alike d (s.upsertMasterEntry S t entry) (s'.upsertMasterEntry S t entry) := by
  simp only [Store.upsertMasterEntry, h.master]
  split
  · exact h.refused _
  · exact h.recorded t _

theorem Shadow.declareRevocation (h : Shadow d s s') (t : Tick) (revocation : Revocation V) :
    Alike d (s.declareRevocation S t revocation) (s'.declareRevocation S t revocation) := by
  simp only [Store.declareRevocation, h.graph, h.ledger]
  split
  · exact h.refused _
  split
  · exact h.refused _
  · exact h.recorded t _

theorem Shadow.registerEvidence (h : Shadow d s s') (t : Tick) (e : Evidence) :
    Alike d (s.registerEvidence S t e) (s'.registerEvidence S t e) := by
  simp only [Store.registerEvidence, h.contains]
  split
  · exact h.refused _
  split
  · exact h.refused _
  split
  · exact h.refused _
  split
  · exact h.refused _
  · exact h.recorded t _

theorem Shadow.releaseEvidence (h : Shadow d s s') (hk : s.toState.Keyed)
    (hk' : s'.toState.Keyed) (t : Tick) (id : String) (requester : Option String)
    (scope : String) (hno : ∀ e, s.evidence[id]? = some e → id = d → scope ≠ e.requiredScope) :
    Alike d (s.releaseEvidence S t id requester scope)
      (s'.releaseEvidence S t id requester scope) := by
  have hget := h.getElem? id
  unfold Store.releaseEvidence
  cases he : s.evidence[id]? with
  | none =>
    rw [he, Option.map_none, Option.map_eq_none_iff] at hget
    rw [hget]
    exact h.refused _
  | some e =>
    rw [he, Option.map_some, Option.map_eq_some_iff] at hget
    obtain ⟨e', he', heq⟩ := hget
    have hscope : e'.requiredScope = e.requiredScope := by
      rw [← redact_scope (d := d) e', heq, redact_scope]
    rw [he']
    dsimp only
    rw [wrongScope, wrongScope, hscope]
    split
    · exact h.refused _
    · rename_i hs
      have hid : id ≠ d := fun hid => hs (hno e he hid)
      have hsame : e' = e := by
        rw [redact_of_ne (hk'.document id e' he' ▸ hid),
          redact_of_ne (hk.document id e he ▸ hid)] at heq
        exact heq
      rw [hsame]
      exact ⟨rfl, (h.recorded (S := S) t (.evidenceReleased id requester scope)).store⟩

end UnidppTrust
