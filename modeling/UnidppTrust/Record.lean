import UnidppTrust.Wire

namespace UnidppTrust
open Rust Json
set_option autoImplicit true

structure Evidence where
  id : String
  contentType : String
  description : String
  requiredScope : String
  content : Bytes
  deriving DecidableEq

def Evidence.metaJson (e : Evidence) : Value :=
  .object [("id", .str e.id), ("content_type", .str e.contentType),
    ("description", .str e.description), ("required_scope", .str e.requiredScope),
    ("content_bytes", .usize e.content.length)]

/-- An append-only store mutation. -/
inductive Op (V : Vocabulary) where
  | registerNode (node : DelegationNode V)
  | addEdge (credential : DelegationCredential V)
  | registerTrustList (jurisdiction : String) (framework : Option String)
  | upsertTrustEntry (jurisdiction : String) (node : V.NodeId) (notBefore : V.Time)
      (supersededAt : Option V.Time)
  | setWitnesses (m : UInt64) (witnesses : List (V.NodeId × V.PublicKey))
  | upsertMasterEntry (entry : MasterListEntry V)
  | declareRevocation (revocation : Revocation V)
  | registerEvidence (evidence : Evidence)
  | evidenceReleased (id : String) (requester : Option String) (scope : String)

structure AuditRecord (V : Vocabulary) where
  seq : UInt64
  recordedAt : V.Time
  op : Op V

variable {V : Vocabulary} (S : Signatif V)

/-- `Timestamp::from_model`, displayed. -/
def stampStr (t : V.Time) : String := (Timestamp.mk (S.timeSecs t)).toString

def Op.name : Op V → String
  | .registerNode _ => "register-node"
  | .addEdge _ => "add-edge"
  | .registerTrustList _ _ => "register-trust-list"
  | .upsertTrustEntry _ _ _ _ => "upsert-trust-entry"
  | .setWitnesses _ _ => "set-witnesses"
  | .upsertMasterEntry _ => "upsert-master-entry"
  | .declareRevocation _ => "declare-revocation"
  | .registerEvidence _ => "register-evidence"
  | .evidenceReleased _ _ _ => "evidence-released"

def witnessRecordToValue (w : V.NodeId × V.PublicKey) : Value :=
  .object (("node", .str (S.nodeIdStr w.1)) :: publicFields S w.2)

def Op.body : Op V → Value
  | .registerNode node => nodeToValue S node
  | .addEdge credential => edgeToValue S credential
  | .registerTrustList jurisdiction framework =>
    .object [("jurisdiction", .str jurisdiction), ("framework", .ofOption (framework.map .str))]
  | .upsertTrustEntry jurisdiction node notBefore supersededAt =>
    .object [("jurisdiction", .str jurisdiction), ("node", .str (S.nodeIdStr node)),
      ("not_before", .str (stampStr S notBefore)),
      ("superseded_at", .ofOption (supersededAt.map fun t => .str (stampStr S t)))]
  | .setWitnesses m witnesses =>
    .object [("m", .u64 m), ("witnesses", .arr (witnesses.map (witnessRecordToValue S)))]
  | .upsertMasterEntry entry => masterEntryToValue S entry
  | .declareRevocation revocation => revocationToValue S revocation
  | .registerEvidence e =>
    .object [("id", .str e.id), ("content_type", .str e.contentType),
      ("description", .str e.description), ("required_scope", .str e.requiredScope),
      ("content_hex", .str (hexEncode e.content))]
  | .evidenceReleased id requester scope =>
    .object [("id", .str id), ("requester", .ofOption (requester.map .str)),
      ("scope", .str scope)]

def AuditRecord.toJson (r : AuditRecord V) : Value :=
  .object [("op", .str r.op.name), ("body", r.op.body S), ("seq", .u64 r.seq),
    ("recorded_at", .str (stampStr S r.recordedAt))]

def trustListFromJson (body : Value) : Outcome String (Op V) := do
  let j ← objectOf body "`body` not an object"
  let jurisdiction ← strField j "jurisdiction" "`jurisdiction` is required"
  .ok (.registerTrustList jurisdiction ((j.lookup "framework").bind Value.asStr))

def trustEntryFromJson (body : Value) : Outcome String (Op V) := do
  let j ← objectOf body "`body` not an object"
  let jurisdiction ← strField j "jurisdiction" "`jurisdiction` is required"
  let nodeStr ← strField j "node" "`node` is required"
  let node ← lift (S.nodeIdNew nodeStr)
  let notBeforeStr ← strField j "not_before" "`not_before` is required"
  let notBefore ← tsParse S notBeforeStr
  match (j.lookup "superseded_at").bind Value.asStr with
  | none => .ok (.upsertTrustEntry jurisdiction node notBefore none)
  | some s => do
    let supersededAt ← tsParse S s
    .ok (.upsertTrustEntry jurisdiction node notBefore (some supersededAt))

/-- A bad key is an error; a bad node id is unwrapped. -/
def witnessFromJson (w : Value) : Outcome String (V.NodeId × V.PublicKey) := do
  let key ← publicFromValue S w
  match S.nodeIdNew (((w.get "node").bind Value.asStr).getD "") with
  | .ok node => .ok (node, key)
  | .error _ => abort

def setWitnessesFromJson (body : Value) : Outcome String (Op V) := do
  let j ← objectOf body "`body` not an object"
  let m ← u64Field j "m" "`m` is required"
  let ws ← arrayField j "witnesses" "`witnesses` is required"
  let witnesses ← ws.mapM (witnessFromJson S)
  .ok (.setWitnesses m witnesses)

def evidenceFromJson (body : Value) : Outcome String (Op V) := do
  let b ← objectOf body "`body` not an object"
  let id ← strField b "id" "`id` is required"
  let contentType := ((b.lookup "content_type").bind Value.asStr).getD "application/octet-stream"
  let description := ((b.lookup "description").bind Value.asStr).getD ""
  let requiredScope ← strField b "required_scope" "`required_scope` is required"
  let contentHex ← strField b "content_hex" "`content_hex` is required"
  let content ← hexDecode contentHex
  .ok (.registerEvidence ⟨id, contentType, description, requiredScope, content⟩)

def releaseFromJson (body : Value) : Outcome String (Op V) := do
  let b ← objectOf body "`body` not an object"
  let id ← strField b "id" "`id` is required"
  let requester := (b.lookup "requester").bind Value.asStr
  let scope ← strField b "scope" "`scope` is required"
  .ok (.evidenceReleased id requester scope)

def opFromJson (name : String) (body : Value) : Outcome String (Op V) :=
  if name = "register-node" then do
    let node ← nodeFromValue S body
    .ok (.registerNode node)
  else if name = "add-edge" then do
    let credential ← edgeFromValue S body
    .ok (.addEdge credential)
  else if name = "register-trust-list" then trustListFromJson body
  else if name = "upsert-trust-entry" then trustEntryFromJson S body
  else if name = "set-witnesses" then setWitnessesFromJson S body
  else if name = "upsert-master-entry" then do
    let entry ← masterEntryFromValue S body
    .ok (.upsertMasterEntry entry)
  else if name = "declare-revocation" then do
    let revocation ← revocationFromValue S body
    .ok (.declareRevocation revocation)
  else if name = "register-evidence" then evidenceFromJson body
  else if name = "evidence-released" then releaseFromJson body
  else fail ("unknown `op` `" ++ name ++ "`")

def AuditRecord.fromJson (v : Value) : Outcome String (AuditRecord V) := do
  let obj ← objectOf v "audit record must be an object"
  let seq ← u64Field obj "seq" "missing `seq`"
  let stamp ← strField obj "recorded_at" "missing `recorded_at`"
  let recordedAt ← inField "recorded_at" (tsParse S stamp)
  let opName ← strField obj "op" "missing `op`"
  let body ← okOr (obj.lookup "body") "missing `body`"
  let op ← opFromJson S opName body
  .ok ⟨seq, recordedAt, op⟩

end UnidppTrust
