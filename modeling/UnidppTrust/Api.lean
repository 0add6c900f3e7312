import UnidppTrust.Views

namespace UnidppTrust.Api
open Rust Json
set_option autoImplicit true

variable {V : Vocabulary} (A : App V)

def readAt (query : StringMap String) (now : Timestamp)
    (doc : Option Timestamp → Timestamp → Outcome Refusal Value) : Outcome Refusal Doc := do
  let at_ ← parseAt query
  let asOf := at_.getD now
  let d ← doc at_ asOf
  .ok ⟨200, d, asOf, cacheFor at_⟩

def findList (s : State V) (jur : String) : Outcome Refusal (TrustList V) :=
  okOr s.trustLists[toAsciiUppercase jur]? (notFound ("no trust list `" ++ jur ++ "`"))

def graph (s : State V) (asOf : Timestamp) : Outcome Refusal Value :=
  .ok (graphDoc A.crates.signatif s.graph asOf)

def anchorBundle (query : StringMap String) (s : State V) (asOf : Timestamp) :
    Outcome Refusal Value := do
  let jur ← okOr (optQuery query "jurisdiction")
    (badRequest "`jurisdiction` query parameter is required")
  let list ← findList s jur
  .ok (bundleDoc A.crates.signatif jur list s.master asOf)

def trustLists (order : HashOrder) (query : StringMap String) (s : State V) (asOf : Timestamp) :
    Outcome Refusal Value :=
  .ok (listsDoc A.crates.signatif order (listFilter query) s asOf)

def trustListOne (jur : String) (s : State V) (asOf : Timestamp) : Outcome Refusal Value := do
  let list ← findList s jur
  .ok (listDoc A.crates.signatif list (s.frameworkOf (toAsciiUppercase jur)) asOf)

def masterList (s : State V) (asOf : Timestamp) : Outcome Refusal Value :=
  .ok (masterDoc A.crates.signatif s.master asOf)

def revocations (query : StringMap String) (s : State V) (at_ : Option Timestamp)
    (asOf : Timestamp) : Outcome Refusal Value := do
  let q ← revocationQuery query
  .ok (revocationsDoc A.crates.signatif at_ q s asOf)

/-- The views that take an instant and mark their response by it. -/
inductive View where
  | graph
  | anchorBundle
  | trustLists
  | trustListOne (jur : String)
  | masterList
  | revocations
  deriving DecidableEq

def View.doc (order : HashOrder) (query : StringMap String) (s : State V) (at_ : Option Timestamp)
    (asOf : Timestamp) : View → Outcome Refusal Value
  | .graph => Api.graph A s asOf
  | .anchorBundle => Api.anchorBundle A query s asOf
  | .trustLists => Api.trustLists A order query s asOf
  | .trustListOne jur => Api.trustListOne A jur s asOf
  | .masterList => Api.masterList A s asOf
  | .revocations => Api.revocations A query s at_ asOf

def operatorView (order : HashOrder) (node : String) (query : StringMap String) (now : Timestamp)
    (s : State V) : Outcome Refusal Doc := do
  let at_ ← parseAt query
  let asOf := at_.getD now
  let id ← mapErr (fun _ => badRequest ("`" ++ node ++ "` is not a valid operator node id"))
    (lift (A.crates.signatif.nodeIdNew node))
  let dn ← okOr (A.crates.signatif.graphNode s.graph id)
    (notFound ("no operator `" ++ node ++ "`"))
  .ok ⟨200, operatorDoc A.crates.signatif order s dn id asOf, asOf, .current⟩

def evidenceCatalogue (order : HashOrder) (now : Timestamp) (s : State V) : Doc :=
  ⟨200, evidenceListJson order s.evidence, now, .current⟩

def presented (req : Request) (param header : String) : Option String :=
  req.query[param]?.or req.headers[header]?

def scopeOf (req : Request) : String := (presented req "scope" "x-unidpp-scope").getD ""

def released (now : Timestamp) (e : Evidence) : Outcome Empty Response :=
  build 200 ([("content-type", e.contentType), ("x-as-of", now.toString),
    ("x-unidpp-scope", e.requiredScope)] ++ A.signHeaders e.content) e.content

def releaseRefusal : StoreError → Refusal
  | .invalid m => forbidden m
  | .notFound m => notFound m
  | .conflict m => conflict m

def evidenceRelease (id : String) (req : Request) (m : Moment) (s : Store V) :
    Outcome Empty Response × Store V :=
  match s.releaseEvidence A.crates.signatif (m.records 0) id
      (presented req "requester" "x-unidpp-requester") (scopeOf req) with
  | (.ok e, s') => (released A m.now e, s')
  | (.error e, s') => (.ok (errorResponse A (releaseRefusal e) m.now), s')

def logLimit (query : StringMap String) : Nat :=
  min ((query["limit"]?.bind parseUsize).getD 100) 10000

def logOffset (query : StringMap String) : Nat := (query["offset"]?.bind parseUsize).getD 0

def adminLog (req : Request) (now : Timestamp) (s : Store V) : Outcome Refusal Doc := do
  requireAdmin A req
  .ok ⟨200, logJson A.crates.signatif s.log (logLimit req.query) (logOffset req.query), now,
    .current⟩

/-- One call after another: a refusal ends it, and leaves the store as it is then. -/
def followed (x : Outcome ε α × σ) (f : α → σ → Outcome ε β × σ) : Outcome ε β × σ :=
  match x.1 with
  | .ok a => f a x.2
  | .error e => (.error e, x.2)

/-- A mutation handler: the token, the body, the call, and the document of what was recorded. -/
def handle (req : Request) (now : Timestamp) (s : Store V) (decode : Value → Outcome Refusal α)
    (call : α → Store V → Outcome Refusal (AuditRecord V) × Store V)
    (doc : α → AuditRecord V → Store V → Value) : Outcome Refusal Doc × Store V :=
  let request := do
    requireAdmin A req
    let v ← parseBody A req.body
    decode v
  followed (request, s) fun a s => followed (call a s) fun r s =>
    (.ok ⟨201, doc a r s, now, .noStore⟩, s)

def calling (refuse : StoreError → Refusal) (x : Except StoreError (AuditRecord V) × Store V) :
    Outcome Refusal (AuditRecord V) × Store V :=
  (mapErr refuse (lift x.1), x.2)

def withSeq (seq : UInt64) : Value → Value
  | .obj fs => .obj (insertField "audit_seq" (.u64 seq) fs)
  | v => v

def decodeEvidence (v : Value) : Outcome Refusal Evidence := do
  let obj ← okOr v.asObject (badRequest "body must be a JSON object")
  let stating (key : String) := ((obj.lookup key).bind Value.asStr).filter fun s =>
    !(trim s).isEmpty
  let id ← okOr (stating "id") (badRequest "`id` is required")
  let requiredScope ← okOr (stating "requiredScope") (badRequest
    "`requiredScope` is required — ungated evidence is a public link, not evidence")
  let hex ← okOr ((obj.lookup "contentHex").bind Value.asStr)
    (badRequest "`contentHex` is required")
  let content ← stated (inField "contentHex" (hexDecode hex))
  let contentType := ((obj.lookup "contentType").bind Value.asStr).getD "application/octet-stream"
  let description := ((obj.lookup "description").bind Value.asStr).getD ""
  .ok ⟨id, contentType, description, requiredScope, content⟩

def registerEvidence (req : Request) (m : Moment) (s : Store V) :
    Outcome Refusal Doc × Store V :=
  handle A req m.now s decodeEvidence
    (fun e s => calling storeError (s.registerEvidence A.crates.signatif (m.records 0) e))
    fun e r s => withSeq r.seq ((s.evidence[e.id]?.map Evidence.metaJson).getD (.obj []))

def registerNode (req : Request) (m : Moment) (s : Store V) : Outcome Refusal Doc × Store V :=
  let S := A.crates.signatif
  handle A req m.now s (fun v => stated (nodeFromValue S v))
    (fun node s => calling storeError (s.registerNode S (m.records 0) node))
    fun node r _ => withSeq r.seq (nodeToValue S node)

def addEdge (req : Request) (m : Moment) (s : Store V) : Outcome Refusal Doc × Store V :=
  let S := A.crates.signatif
  handle A req m.now s (fun v => stated (edgeFromValue S v))
    (fun cred s => calling storeError (s.addEdge S (m.records 0) cred))
    fun cred r _ => withSeq r.seq (edgeToValue S cred)

structure ListRequest where
  jurisdiction : String
  framework : Option String
  entries : List Value

def decodeList (v : Value) : Outcome Refusal ListRequest := do
  let raw ← reqStr v "jurisdiction"
  let jurisdiction := trim raw
  validateToken jurisdiction "jurisdiction"
  .ok ⟨jurisdiction, optStr v "framework", ((v.get "entries").bind Value.asArray).getD []⟩

/-- Initial entries go in one by one; those before a bad one stay. -/
def applyEntries (s : Store V) (ticks : Nat → Tick) (jurisdiction : String) :
    List Value → Outcome Refusal Unit × Store V
  | [] => (.ok (), s)
  | v :: vs =>
    let S := A.crates.signatif
    followed (stated (trustEntryFromValue S v), s) fun entry s =>
      followed (calling storeError (s.upsertTrustEntry S (ticks 0) jurisdiction entry.node
        entry.notBefore entry.supersededAt)) fun _ s =>
          applyEntries s (fun i => ticks (i + 1)) jurisdiction vs

def registerList (m : Moment) (l : ListRequest) (s : Store V) :
    Outcome Refusal (AuditRecord V) × Store V :=
  followed (calling storeError
    (s.registerTrustList A.crates.signatif (m.records 0) l.jurisdiction l.framework)) fun r s =>
      followed (applyEntries A s (fun i => m.records (i + 1)) l.jurisdiction l.entries) fun _ s =>
        (.ok r, s)

def registerTrustList (req : Request) (m : Moment) (s : Store V) :
    Outcome Refusal Doc × Store V :=
  handle A req m.now s decodeList (registerList A m)
    fun l r _ => .object [("jurisdiction", .str (toAsciiUppercase l.jurisdiction)),
      ("framework", strOrNull l.framework), ("audit_seq", .u64 r.seq),
      ("as_of", .str m.now.toString)]

def upsertTrustEntry (jur : String) (req : Request) (m : Moment) (s : Store V) :
    Outcome Refusal Doc × Store V :=
  let S := A.crates.signatif
  handle A req m.now s (fun v => stated (trustEntryFromValue S v))
    (fun e s => calling storeError
      (s.upsertTrustEntry S (m.records 0) jur e.node e.notBefore e.supersededAt))
    fun e r _ => .object [("jurisdiction", .str jur), ("node", .str (S.nodeIdStr e.node)),
      ("not_before", .str (S.timeStr e.notBefore)),
      ("superseded_at", strOrNull (e.supersededAt.map S.timeStr)), ("audit_seq", .u64 r.seq),
      ("as_of", .str m.now.toString)]

structure WitnessesRequest (V : Vocabulary) where
  m : UInt64
  witnesses : List (V.NodeId × V.PublicKey)

def decodeWitnesses (v : Value) : Outcome Refusal (WitnessesRequest V) := do
  let m ← okOr ((v.get "m").bind Value.asU64) (badRequest "`m` (number >= 1) is required")
  let ws ← okOr ((v.get "witnesses").bind Value.asArray)
    (badRequest "`witnesses` array is required")
  let witnesses ← stated (witnessesFromValue A.crates.signatif (.arr ws))
  .ok ⟨m, witnesses⟩

def setWitnesses (req : Request) (m : Moment) (s : Store V) : Outcome Refusal Doc × Store V :=
  let S := A.crates.signatif
  handle A req m.now s (decodeWitnesses A)
    (fun w s => calling storeError (s.setWitnesses S (m.records 0) w.m w.witnesses))
    fun w r _ => .object [("m", .u64 w.m), ("k", .usize w.witnesses.length),
      ("witnesses",
        witnessesToValue S (S.masterNew w.m (Std.ExtTreeMap.ofList w.witnesses compare))),
      ("audit_seq", .u64 r.seq), ("as_of", .str m.now.toString)]

def upsertMasterEntry (req : Request) (m : Moment) (s : Store V) :
    Outcome Refusal Doc × Store V :=
  let S := A.crates.signatif
  handle A req m.now s (fun v => stated (masterEntryFromValue S v))
    (fun e s => calling storeError (s.upsertMasterEntry S (m.records 0) e))
    fun e r _ => .object [("node", .str (S.nodeIdStr e.node)),
      ("attestations", .arr (e.attestations.map (witnessAttestationToValue S))),
      ("audit_seq", .u64 r.seq), ("as_of", .str m.now.toString)]

def declarationRefusal : StoreError → Refusal
  | .invalid m => unprocessable m
  | .conflict m => conflict m
  | .notFound m => notFound m

def declareRevocation (req : Request) (m : Moment) (s : Store V) :
    Outcome Refusal Doc × Store V :=
  let S := A.crates.signatif
  handle A req m.now s (fun v => stated (revocationFromValue S v))
    (fun r s => calling declarationRefusal (s.declareRevocation S (m.records 0) r))
    fun d r _ => .object [("subject", revokedSubjectToValue S d.subject),
      ("reason", reasonToValue S d.reason), ("declared_at", .str (S.timeStr d.declaredAt)),
      ("declared_by", .str (S.nodeIdStr d.declaredBy)), ("window", intervalToValue S d.window),
      ("audit_seq", .u64 r.seq), ("as_of", .str m.now.toString)]

def healthz (now : Timestamp) : Doc :=
  ⟨200, .object [("status", .str "ok"), ("service", .str "unidpp-trust"),
    ("as_of", .str now.toString)], now, .current⟩

def keyring (now : Timestamp) : Doc :=
  ⟨200, .obj (insertField "as_of" (.str now.toString) A.keyring), now, .pointInTime⟩

/-- The contract document, the one response that is not signed. -/
def openapiYaml : Response :=
  ⟨200, [("content-type", "application/yaml"),
    ("cache-control", CachePolicy.headerValue .current)], bytes A.contract⟩

/-- The routed handlers, with their path parameters. -/
inductive Route where
  | discovery
  | healthz
  | keyring
  | view (v : View)
  | operator (node : String)
  | evidence
  | evidenceOne (id : String)
  | adminLog
  | adminEvidence
  | nodes
  | edges
  | trustLists
  | trustListEntries (jur : String)
  | masterListWitnesses
  | masterListEntries
  | revocations
  | contractYaml
  deriving DecidableEq

/-- One request: the response, unless the handler aborts, and the store after it. -/
def serve (order : HashOrder) (req : Request) (m : Moment) (s : Store V) :
    Route → Outcome Empty Response × Store V
  | .discovery => (answer A m.now (.ok ⟨200, A.discovery, m.now, .current⟩), s)
  | .healthz => (answer A m.now (.ok (healthz m.now)), s)
  | .keyring => (answer A m.now (.ok (keyring A m.now)), s)
  | .view v =>
    (answer A m.now (readAt req.query m.now fun at_ asOf =>
      v.doc A order req.query s.toState at_ asOf), s)
  | .operator node => (answer A m.now (operatorView A order node req.query m.now s.toState), s)
  | .evidence => (answer A m.now (.ok (evidenceCatalogue order m.now s.toState)), s)
  | .evidenceOne id => evidenceRelease A id req m s
  | .adminLog => (answer A m.now (adminLog A req m.now s), s)
  | .adminEvidence => (registerEvidence A req m s).map (answer A m.now) id
  | .nodes => (registerNode A req m s).map (answer A m.now) id
  | .edges => (addEdge A req m s).map (answer A m.now) id
  | .trustLists => (registerTrustList A req m s).map (answer A m.now) id
  | .trustListEntries jur => (upsertTrustEntry A jur req m s).map (answer A m.now) id
  | .masterListWitnesses => (setWitnesses A req m s).map (answer A m.now) id
  | .masterListEntries => (upsertMasterEntry A req m s).map (answer A m.now) id
  | .revocations => (declareRevocation A req m s).map (answer A m.now) id
  | .contractYaml => (.ok (openapiYaml A), s)

inductive Method where
  | get
  | head
  | post
  | other (name : String)
  deriving DecidableEq

/-- A requested path, by the constant of `paths` it matches. -/
inductive Path where
  | root
  | healthz
  | keyring
  | graph
  | anchorBundle
  | trustLists
  | trustListOne (jur : String)
  | trustListEntries (jur : String)
  | masterList
  | masterListWitnesses
  | masterListEntries
  | revocations
  | operator (node : String)
  | evidence
  | evidenceOne (id : String)
  | adminLog
  | adminEvidence
  | nodes
  | edges
  | contractYaml
  | other (path : String)

def getRoute : Path → Option Route
  | .root => some .discovery
  | .healthz => some .healthz
  | .keyring => some .keyring
  | .graph => some (.view .graph)
  | .anchorBundle => some (.view .anchorBundle)
  | .trustLists => some (.view .trustLists)
  | .trustListOne jur => some (.view (.trustListOne jur))
  | .masterList => some (.view .masterList)
  | .revocations => some (.view .revocations)
  | .operator node => some (.operator node)
  | .evidence => some .evidence
  | .evidenceOne id => some (.evidenceOne id)
  | .adminLog => some .adminLog
  | .contractYaml => some .contractYaml
  | .trustListEntries _ | .masterListWitnesses | .masterListEntries | .adminEvidence | .nodes
  | .edges | .other _ => none

def postRoute : Path → Option Route
  | .trustLists => some .trustLists
  | .trustListEntries jur => some (.trustListEntries jur)
  | .masterListWitnesses => some .masterListWitnesses
  | .masterListEntries => some .masterListEntries
  | .revocations => some .revocations
  | .adminEvidence => some .adminEvidence
  | .nodes => some .nodes
  | .edges => some .edges
  | _ => none

/-- `router`; the handler of a GET answers a HEAD too. -/
def router : Method → Path → Option Route
  | .get, p | .head, p => getRoute p
  | .post, p => postRoute p
  | .other _, _ => none

/-- A request as it arrives: what the extractors read of it, unless they reject it, and what the
framework itself answers where no handler does. -/
structure Arrival where
  method : Method
  path : Path
  request : Option Request
  fallback : Response
  order : HashOrder
  moment : Moment

def respond (x : Arrival) (s : Store V) : Outcome Empty Response × Store V :=
  match router x.method x.path, x.request with
  | some route, some req =>
    (serve A x.order req x.moment s route).map
      (·.map fun r => if x.method = .head then { r with body := [] } else r) id
  | _, _ => (.ok x.fallback, s)

def respondAll (s : Store V) : List Arrival → List (Outcome Empty Response) × Store V
  | [] => ([], s)
  | x :: xs =>
    let rest := respondAll (respond A x s).2 xs
    ((respond A x s).1 :: rest.1, rest.2)

end UnidppTrust.Api
