import UnidppTrust.Record
import UnidppTrust.Quorum
import UnidppTrust.JsonText

namespace UnidppTrust
open Rust Json
set_option autoImplicit true

inductive StoreError where
  | conflict (m : String)
  | invalid (m : String)
  | notFound (m : String)
  deriving DecidableEq

abbrev StringMap (β : Type) := Std.ExtTreeMap String β compare

structure State (V : Vocabulary) where
  graph : V.TrustGraph
  trustLists : StringMap (TrustList V)
  frameworks : StringMap (Option String)
  master : MasterList V
  ledger : V.RevocationLedger
  evidence : StringMap Evidence

/-- The trust store: its state, the audit log, and the bytes of the journal file. -/
structure Store (V : Vocabulary) extends State V where
  log : List (AuditRecord V)
  journal : Option Bytes

/-- What a call reads from its surroundings: the clock, and whether a journal write succeeds. -/
structure Tick where
  now : Timestamp
  written : Bool

variable {V : Vocabulary} (S : Signatif V)

/-- The incoming kind, and the incoming keys not yet known to the node. -/
def mergeNode (existing node : DelegationNode V) : DelegationNode V :=
  { existing with
    kind := node.kind
    keys := node.keys.foldl
      (fun keys k => if keys.any (·.keyId = k.keyId) then keys else keys ++ [k]) existing.keys }

def alreadyRegistered (jurisdiction : String) : StoreError :=
  .conflict ("trust list `" ++ jurisdiction ++ "` is already registered")

def noTrustList (jurisdiction : String) : StoreError :=
  .notFound ("no trust list `" ++ jurisdiction ++ "`")

def unregisteredWitness (witness : V.NodeId) : StoreError :=
  .invalid ("witness `" ++ S.nodeIdStr witness ++ "` is not registered")

def evidenceRegistered (id : String) : StoreError :=
  .conflict ("evidence `" ++ id ++ "` is already registered")

def exceedsWitnesses (m : UInt64) (witnesses : List (V.NodeId × V.PublicKey)) : String :=
  "`m` (" ++ toString m ++ ") cannot exceed `witnesses.len()` (" ++ toString witnesses.length ++ ")"

def missingQuorum (r : Revocation V) : StoreError :=
  .invalid ("retroactive distrust of `" ++ S.subjectLabel r.subject ++
    "` requires a quorum attestation")

def belowThreshold (r : Revocation V) (v : QuorumVerdict) : StoreError :=
  .invalid ("quorum attestation for `" ++ S.subjectLabel r.subject ++
    "` does not reach the threshold (" ++ v.summary ++ ")")

/-- The quorum check of a declaration, which the entry point and `apply_op` both make. -/
def checkQuorum (graph : V.TrustGraph) (r : Revocation V) : Except StoreError Unit :=
  if S.isRetroactive r.reason then
    match r.quorum with
    | none => .error (missingQuorum S r)
    | some quorum =>
      let v := verdict S graph quorum (S.statementBytes r)
      if v.quorate then .ok () else .error (belowThreshold S r v)
  else .ok ()

def checkWitnesses (master : MasterList V) (entry : MasterListEntry V) : Except StoreError Unit :=
  match entry.attestations.find? fun att => !master.witnesses.contains att.witness with
  | some att => .error (unregisteredWitness S att.witness)
  | none => .ok ()

def applyRegisterNode (s : State V) (node : DelegationNode V) : State V :=
  let graph := S.graphAddNode s.graph node
  match S.graphNode graph node.id with
  | some existing => { s with graph := S.graphSetNode graph node.id (mergeNode existing node) }
  | none => { s with graph := graph }

/-- `apply_op`: the result, and the state it leaves. -/
def applyOp (s : State V) : Op V → Except StoreError Unit × State V
  | .registerNode node => (.ok (), applyRegisterNode S s node)
  | .addEdge credential =>
    let (result, graph) := S.graphAddEdge s.graph credential
    (result.mapError .invalid, { s with graph := graph })
  | .registerTrustList jurisdiction framework =>
    let key := toAsciiUppercase jurisdiction
    if s.trustLists.contains key then (.error (alreadyRegistered jurisdiction), s)
    else (.ok (), { s with
      trustLists := s.trustLists.insert key (S.trustListNew jurisdiction)
      frameworks := s.frameworks.insert key framework })
  | .upsertTrustEntry jurisdiction node notBefore supersededAt =>
    let key := toAsciiUppercase jurisdiction
    match s.trustLists[key]? with
    | none => (.error (noTrustList jurisdiction), s)
    | some list => (.ok (), { s with
        trustLists := s.trustLists.insert key (applyEntry list ⟨node, notBefore, supersededAt⟩) })
  | .setWitnesses m witnesses =>
    if m = 0 then (.error (.invalid "`m` must be >= 1"), s)
    else if witnesses.isEmpty then (.error (.invalid "`witnesses` must be non-empty"), s)
    else if m.toNat > witnesses.length then
      (.error (.invalid (exceedsWitnesses m witnesses)), s)
    else
      let master := S.masterNew m (Std.ExtTreeMap.ofList witnesses compare)
      (.ok (), { s with master := { master with entries := s.master.entries } })
  | .upsertMasterEntry entry =>
    match checkWitnesses S s.master entry with
    | .error e => (.error e, s)
    | .ok () => (.ok (), { s with master := S.masterUpsert s.master entry })
  | .declareRevocation revocation =>
    match checkQuorum S s.graph revocation with
    | .error e => (.error e, s)
    | .ok () =>
      let (result, ledger) := S.ledgerDeclare s.ledger revocation
      (result.mapError .invalid, { s with ledger := ledger })
  | .registerEvidence evidence =>
    if s.evidence.contains evidence.id then (.error (evidenceRegistered evidence.id), s)
    else (.ok (), { s with evidence := s.evidence.insert evidence.id evidence })
  | .evidenceReleased _ _ _ => (.ok (), s)

def AuditRecord.line (r : AuditRecord V) : Bytes := bytes (r.toJson S).toString ++ [10]

variable (s : Store V) (t : Tick)

/-- Append a record to the audit log (and journal), then apply it. A failing write and a failing
application are only reported. -/
def Store.record (op : Op V) : AuditRecord V × Store V :=
  let rec_ : AuditRecord V :=
    ⟨UInt64.ofNat s.log.length + 1, S.timeFromSecs t.now.secs, op⟩
  let journal := s.journal.map fun file =>
    if t.written then file ++ rec_.line S else file
  (rec_, { toState := (applyOp S s.toState op).2, log := s.log ++ [rec_], journal := journal })

def Store.recorded (op : Op V) : Except StoreError (AuditRecord V) × Store V :=
  (.ok (s.record S t op).1, (s.record S t op).2)

def Store.registerNode (node : DelegationNode V) : Except StoreError (AuditRecord V) × Store V :=
  s.recorded S t (.registerNode node)

/-- The credential is tried on a clone of the graph. -/
def Store.addEdge (credential : DelegationCredential V) :
    Except StoreError (AuditRecord V) × Store V :=
  match (S.graphAddEdge s.graph credential).1 with
  | .error e => (.error (.invalid e), s)
  | .ok () => s.recorded S t (.addEdge credential)

def Store.registerTrustList (jurisdiction : String) (framework : Option String) :
    Except StoreError (AuditRecord V) × Store V :=
  if s.trustLists.contains (toAsciiUppercase jurisdiction) then
    (.error (alreadyRegistered jurisdiction), s)
  else s.recorded S t (.registerTrustList jurisdiction framework)

def Store.upsertTrustEntry (jurisdiction : String) (node : V.NodeId) (notBefore : V.Time)
    (supersededAt : Option V.Time) : Except StoreError (AuditRecord V) × Store V :=
  if !s.trustLists.contains (toAsciiUppercase jurisdiction) then
    (.error (noTrustList jurisdiction), s)
  else s.recorded S t (.upsertTrustEntry jurisdiction node notBefore supersededAt)

def Store.setWitnesses (m : UInt64) (witnesses : List (V.NodeId × V.PublicKey)) :
    Except StoreError (AuditRecord V) × Store V :=
  if m = 0 ∨ witnesses.isEmpty ∨ m.toNat > witnesses.length then
    let err :=
      if m = 0 then "`m` must be >= 1"
      else if witnesses.isEmpty then "`witnesses` must be non-empty"
      else exceedsWitnesses m witnesses
    (.error (.invalid err), s)
  else s.recorded S t (.setWitnesses m witnesses)

def Store.upsertMasterEntry (entry : MasterListEntry V) :
    Except StoreError (AuditRecord V) × Store V :=
  match checkWitnesses S s.master entry with
  | .error e => (.error e, s)
  | .ok () => s.recorded S t (.upsertMasterEntry entry)

/-- After the quorum check the declaration is tried on a clone of the ledger. -/
def Store.declareRevocation (revocation : Revocation V) :
    Except StoreError (AuditRecord V) × Store V :=
  match checkQuorum S s.graph revocation with
  | .error e => (.error e, s)
  | .ok () =>
    match (S.ledgerDeclare s.ledger revocation).1 with
    | .error e => (.error (.invalid e), s)
    | .ok () => s.recorded S t (.declareRevocation revocation)

def Store.registerEvidence (evidence : Evidence) : Except StoreError (AuditRecord V) × Store V :=
  if s.evidence.contains evidence.id then (.error (evidenceRegistered evidence.id), s)
  else if (trim evidence.id).isEmpty then (.error (.invalid "`id` must not be empty"), s)
  else if (trim evidence.requiredScope).isEmpty then
    (.error (.invalid
      "`required_scope` must not be empty — ungated evidence is a public link, not evidence"), s)
  else if evidence.content.isEmpty then
    (.error (.invalid "`content_hex` must not be empty"), s)
  else s.recorded S t (.registerEvidence evidence)

def wrongScope (evidence : Evidence) (id scope : String) : StoreError :=
  .invalid ("evidence `" ++ id ++ "` requires scope `" ++ evidence.requiredScope ++
    "` — the request carried `" ++ scope ++ "`")

def Store.releaseEvidence (id : String) (requester : Option String) (scope : String) :
    Except StoreError Evidence × Store V :=
  match s.evidence[id]? with
  | none => (.error (.notFound ("no evidence `" ++ id ++ "`")), s)
  | some evidence =>
    if scope ≠ evidence.requiredScope then (.error (wrongScope evidence id scope), s)
    else (.ok evidence, (s.record S t (.evidenceReleased id requester scope)).2)

/-- What a successful mutation hands back. -/
inductive Reply (V : Vocabulary) where
  | recorded (r : AuditRecord V)
  | released (e : Evidence)

def Store.mutate : Op V → Except StoreError (Reply V) × Store V
  | .registerNode node => (s.registerNode S t node).map (·.map .recorded) id
  | .addEdge credential => (s.addEdge S t credential).map (·.map .recorded) id
  | .registerTrustList jurisdiction framework =>
    (s.registerTrustList S t jurisdiction framework).map (·.map .recorded) id
  | .upsertTrustEntry jurisdiction node notBefore supersededAt =>
    (s.upsertTrustEntry S t jurisdiction node notBefore supersededAt).map (·.map .recorded) id
  | .setWitnesses m witnesses => (s.setWitnesses S t m witnesses).map (·.map .recorded) id
  | .upsertMasterEntry entry => (s.upsertMasterEntry S t entry).map (·.map .recorded) id
  | .declareRevocation revocation =>
    (s.declareRevocation S t revocation).map (·.map .recorded) id
  | .registerEvidence evidence => (s.registerEvidence S t evidence).map (·.map .recorded) id
  | .evidenceReleased id_ requester scope =>
    (s.releaseEvidence S t id_ requester scope).map (·.map .released) id

end UnidppTrust
