import UnidppTrust.Signatif
import UnidppTrust.Hex

namespace UnidppTrust
open Rust Json
set_option autoImplicit true

variable {V : Vocabulary} (S : Signatif V)

def objectOf (v : Value) (msg : String) : Outcome String Fields := okOr v.asObject msg

def strField (fs : Fields) (key msg : String) : Outcome String String :=
  okOr ((fs.lookup key).bind Value.asStr) msg

def u64Field (fs : Fields) (key msg : String) : Outcome String UInt64 :=
  okOr ((fs.lookup key).bind Value.asU64) msg

def arrayField (fs : Fields) (key msg : String) : Outcome String (List Value) :=
  okOr ((fs.lookup key).bind Value.asArray) msg

def inField (key : String) (x : Outcome String α) : Outcome String α :=
  mapErr (fun e => "`" ++ key ++ "`: " ++ e) x

def publicFields (k : V.PublicKey) : Fields :=
  [("suite", .str (S.suiteStr (S.publicSuite k))),
    ("public", .str (hexEncode (S.publicBytes k))),
    ("public_len", .usize (S.publicBytes k).length)]

def publicToValue (k : V.PublicKey) : Value := .object (publicFields S k)

/-- A suite token as it is compared: case and dashes do not count. -/
def foldSuite (s : String) : String := remove '-' (toAsciiLowercase s)

def publicFromValue (v : Value) : Outcome String V.PublicKey := do
  let obj ← objectOf v "public key must be an object"
  let suite ← strField obj "suite" "public key `suite` is required"
  let hex ← strField obj "public" "public key `public` (hex) is required"
  let b ← hexDecode hex
  let parsed ← lift (S.publicFromBytes b)
  let parsedSuite := S.suiteStr (S.publicSuite parsed)
  if foldSuite parsedSuite ≠ foldSuite suite then
    fail ("public key suite mismatch: declared `" ++ suite ++ "`, bytes are `" ++ parsedSuite ++
      "`")
  .ok parsed

def slotToValue (slot : SignatureSlot V) : Value :=
  .object [("suite", .str (S.suiteStr slot.suite)), ("key_id", .str (S.keyIdStr slot.keyId)),
    ("signature", .ofOption (slot.signature.map fun s => .str (hexEncode s)))]

def signatureFromValue : Option Value → Outcome String (Option Bytes)
  | none | some .null => .ok none
  | some (.str s) => do
    let sig ← inField "signature" (hexDecode s)
    .ok (some sig)
  | some _ => fail "`signature` must be a hex string or null"

def slotFromValue (v : Value) : Outcome String (SignatureSlot V) := do
  let obj ← objectOf v "signature slot must be an object"
  let suiteRaw ← strField obj "suite" "`suite` is required"
  let keyIdRaw ← strField obj "key_id" "`key_id` is required"
  let suite ← lift (S.suiteParseToken suiteRaw)
  let keyId ← lift (S.keyIdNew keyIdRaw)
  let signature ← signatureFromValue (obj.lookup "signature")
  match signature with
  | none => .ok ⟨suite, keyId, none⟩
  | some sig =>
    if sig.length ≠ S.signatureLen suite then
      fail ("signature length " ++ toString sig.length ++ " does not match the " ++
        S.suiteStr suite ++ " framing budget " ++ toString (S.signatureLen suite))
    else .ok ⟨suite, keyId, some sig⟩

def revokedSubjectToValue : RevokedSubject V → Value
  | .key k => .object [("kind", .str "key"), ("id", .str (S.keyIdStr k)),
      ("label", .str ("key:" ++ S.keyIdAsStr k))]
  | .node n => .object [("kind", .str "node"), ("id", .str (S.nodeIdStr n)),
      ("label", .str ("node:" ++ S.nodeIdAsStr n))]
  | .passport p => .object [("kind", .str "passport"), ("id", .str (S.passportIdStr p)),
      ("label", .str ("passport:" ++ S.passportIdAsStr p))]
  | .condition node condition =>
    let id := S.nodeIdStr node ++ ":`" ++ S.conditionStr condition ++ "`"
    .object [("kind", .str "condition"), ("id", .str id), ("label", .str ("condition:" ++ id)),
      ("node", .str (S.nodeIdStr node)), ("condition", S.conditionToValue condition)]

def revokedSubjectFromValue (v : Value) : Outcome String (RevokedSubject V) := do
  let obj ← objectOf v "subject must be an object"
  let kind ← strField obj "kind" "`kind` is required"
  let id ← strField obj "id" "`id` is required"
  if kind = "key" then do
    let k ← lift (S.keyIdNew id)
    .ok (.key k)
  else if kind = "node" then do
    let n ← lift (S.nodeIdNew id)
    .ok (.node n)
  else if kind = "passport" then do
    let p ← inField "id" (lift (S.passportIdNew id))
    .ok (.passport p)
  else if kind = "condition" then do
    let raw ← strField obj "node" "`node` is required for `condition`"
    let node ← inField "node" (lift (S.nodeIdNew raw))
    let value ← okOr (obj.lookup "condition")
      "`condition` (the scope-condition object) is required"
    let condition ← inField "condition" (lift (S.conditionFromValue value))
    .ok (.condition node condition)
  else fail ("unknown subject kind `" ++ kind ++ "` (expected key|node|passport|condition)")

def tsString (t : V.Time) : String := S.timeStr t

def tsParse (s : String) : Outcome String V.Time := do
  let t ← mapErr TimeParseError.toString (Timestamp.parse s)
  .ok (S.timeFromSecs t.secs)

def reasonParams : RevocationReason V → Fields
  | .keyCompromise after => [("after", .str (tsString S after))]
  | .authorityCompromised detectedAt => [("detected_at", .str (tsString S detectedAt))]
  | .supersession by_ => [("by", .str (S.nodeIdStr by_))]
  | _ => []

def reasonToValue (reason : RevocationReason V) : Value :=
  .object ([("token", .str (S.reasonToken reason)),
    ("retroactive", .bool (S.isRetroactive reason))] ++ reasonParams S reason)

def reqTs (obj : Fields) (token key : String) : Outcome String V.Time := do
  let raw ← strField obj key ("`" ++ key ++ "` is required for `" ++ token ++ "`")
  inField key (tsParse S raw)

def reasonFromValue (v : Value) : Outcome String (RevocationReason V) := do
  let obj ← objectOf v "reason must be an object"
  let token ← strField obj "token" "`token` is required"
  if token = "key-compromise" then do
    let after ← reqTs S obj token "after"
    .ok (.keyCompromise after)
  else if token = "cessation" then .ok .cessation
  else if token = "supersession" then do
    let raw ← strField obj "by" "`by` is required for `supersession`"
    let by_ ← inField "by" (lift (S.nodeIdNew raw))
    .ok (.supersession by_)
  else if token = "affiliation-change" then .ok .affiliationChange
  else if token = "misissuance" then .ok .misissuance
  else if token = "fraudulent-issuance" then .ok .fraudulentIssuance
  else if token = "authority-compromised" then do
    let detectedAt ← reqTs S obj token "detected_at"
    .ok (.authorityCompromised detectedAt)
  else if token = "condition-withdrawal" then .ok .conditionWithdrawal
  else fail ("unknown reason token `" ++ token ++ "`")

def intervalToValue (i : Interval V) : Value :=
  .object [("start", .str (S.timeStr i.from_)),
    ("end", .ofOption (i.to_.map fun t => .str (S.timeStr t))), ("open", .bool i.to_.isNone)]

/-- An optional instant: absent, null and the empty string are none. -/
def optTs (key : String) : Option Value → Outcome String (Option V.Time)
  | none | some .null => .ok none
  | some (.str s) =>
    if s.isEmpty then .ok none
    else do
      let t ← tsParse S s
      .ok (some t)
  | some _ => fail ("`" ++ key ++ "` must be an RFC 3339 string or null")

def intervalFromValue (v : Value) : Outcome String (Interval V) := do
  let obj ← objectOf v "interval must be an object"
  let startRaw ← strField obj "start" "`start` is required"
  let from_ ← tsParse S startRaw
  let to_ ← optTs S "end" (obj.lookup "end")
  match to_ with
  | some t =>
    if t < from_ then
      fail ("window end " ++ S.timeStr t ++ " is before start " ++ S.timeStr from_)
    else lift (S.intervalBetween from_ t)
  | none => .ok (S.intervalStarting from_)

def slotsToValue (slots : List (SignatureSlot V)) : Value := .arr (slots.map (slotToValue S))

def quorumToValue (q : QuorumAttestation V) : Value :=
  .object [("quorum", .str (S.nodeIdStr q.quorum)), ("threshold", .u64 q.threshold),
    ("signatures", slotsToValue S q.signatures)]

def quorumFromValue (v : Value) : Outcome String (QuorumAttestation V) := do
  let obj ← objectOf v "quorum attestation must be an object"
  let raw ← strField obj "quorum" "`quorum` is required"
  let quorum ← inField "quorum" (lift (S.nodeIdNew raw))
  let threshold ← u64Field obj "threshold" "`threshold` (number) is required"
  let slots ← arrayField obj "signatures" "`signatures` array is required"
  let signatures ← slots.mapM (slotFromValue S)
  .ok ⟨quorum, threshold, signatures⟩

def revocationToValue (r : Revocation V) : Value :=
  .object [("subject", revokedSubjectToValue S r.subject), ("reason", reasonToValue S r.reason),
    ("declared_at", .str (tsString S r.declaredAt)),
    ("declared_by", .str (S.nodeIdStr r.declaredBy)), ("window", intervalToValue S r.window),
    ("quorum", .ofOption (r.quorum.map (quorumToValue S)))]

def optQuorum : Option Value → Outcome String (Option (QuorumAttestation V))
  | none | some .null => .ok none
  | some v => do
    let q ← quorumFromValue S v
    .ok (some q)

def revocationFromValue (v : Value) : Outcome String (Revocation V) := do
  let obj ← objectOf v "revocation must be an object"
  let subjectV ← okOr (obj.lookup "subject") "`subject` is required"
  let subject ← revokedSubjectFromValue S subjectV
  let reasonV ← okOr (obj.lookup "reason") "`reason` is required"
  let reason ← reasonFromValue S reasonV
  let declaredRaw ← strField obj "declared_at" "`declared_at` (RFC 3339) is required"
  let declaredAt ← tsParse S declaredRaw
  let byRaw ← strField obj "declared_by" "`declared_by` is required"
  let declaredBy ← inField "declared_by" (lift (S.nodeIdNew byRaw))
  let windowV ← okOr (obj.lookup "window") "`window` is required"
  let window ← intervalFromValue S windowV
  let quorum ← optQuorum S (obj.lookup "quorum")
  .ok ⟨subject, reason, declaredAt, declaredBy, window, quorum⟩

def nodeKindToValue : NodeKind V → Value
  | .root => .str "root"
  | .delegated => .str "delegated"
  | .end => .str "end"
  | .thresholdGroup threshold members =>
    .object [("threshold_group", .object [("threshold", .u64 threshold),
      ("members", .arr (members.toList.map fun m => .str (S.nodeIdStr m)))])]

def memberFromValue (v : Value) : Outcome String V.NodeId := do
  let s ← okOr v.asStr "members must be node-id strings"
  lift (S.nodeIdNew s)

def nodeKindFromValue : Value → Outcome String (NodeKind V)
  | .str s =>
    if s = "root" then .ok .root
    else if s = "delegated" then .ok .delegated
    else if s = "end" then .ok .end
    else fail ("unknown node kind `" ++ s ++ "`")
  | .obj o => do
    let g ← okOr ((o.lookup "threshold_group").bind Value.asObject)
      "`threshold_group` object is required"
    let threshold ← u64Field g "threshold" "`threshold_group.threshold` is required"
    let values ← arrayField g "members" "`threshold_group.members` array is required"
    let members ← values.mapM (memberFromValue S)
    .ok (.thresholdGroup threshold (Std.ExtTreeSet.ofList members compare))
  | _ => fail "node kind must be a string or object"

def registeredKeyToValue (k : RegisteredKey V) : Value :=
  .object (("key_id", .str (S.keyIdStr k.keyId)) :: publicFields S k.publicKey)

def nodeToValue (node : DelegationNode V) : Value :=
  .object [("id", .str (S.nodeIdStr node.id)), ("kind", nodeKindToValue S node.kind),
    ("keys", .arr (node.keys.map (registeredKeyToValue S)))]

def registeredKeyFromValue (v : Value) : Outcome String (RegisteredKey V) := do
  let obj ← objectOf v "`keys[].key_id` must be an object"
  let raw ← strField obj "key_id" "`key_id` is required"
  let keyId ← inField "key_id" (lift (S.keyIdNew raw))
  let key ← publicFromValue S (.obj obj)
  if S.keyIdAsStr keyId ≠ S.keyIdAsStr (S.keyIdOf key) then
    fail ("`key_id` `" ++ S.keyIdAsStr keyId ++ "` does not match the declared public key")
  .ok ⟨keyId, key⟩

def nodeFromValue (v : Value) : Outcome String (DelegationNode V) := do
  let obj ← objectOf v "node must be an object"
  let raw ← strField obj "id" "`id` is required"
  let id ← inField "id" (lift (S.nodeIdNew raw))
  let kindV ← okOr (obj.lookup "kind") "`kind` is required"
  let kind ← nodeKindFromValue S kindV
  match (obj.lookup "keys").bind Value.asArray with
  | none => .ok (S.nodeNew id kind)
  | some arr => do
    let keys ← arr.mapM (registeredKeyFromValue S)
    .ok (keys.foldl S.nodeRegister (S.nodeNew id kind))

def edgeToValue (c : DelegationCredential V) : Value :=
  .object [("parent", .str (S.nodeIdStr c.parent)), ("child", .str (S.nodeIdStr c.child)),
    ("scope", match S.scopeToValue c.scope with | .ok v => v | .error _ => .null),
    ("signatures", slotsToValue S c.signatures)]

def edgeFromValue (v : Value) : Outcome String (DelegationCredential V) := do
  let obj ← objectOf v "edge must be an object"
  let parentRaw ← strField obj "parent" "`parent` is required"
  let parent ← inField "parent" (lift (S.nodeIdNew parentRaw))
  let childRaw ← strField obj "child" "`child` is required"
  let child ← inField "child" (lift (S.nodeIdNew childRaw))
  let scopeV ← okOr (obj.lookup "scope") "`scope` is required"
  let scope ← inField "scope" (lift (S.scopeFromValue scopeV))
  let slots ← arrayField obj "signatures" "`signatures` array is required"
  let signatures ← slots.mapM (slotFromValue S)
  .ok ⟨parent, child, scope, signatures⟩

structure TrustListEntryRecord (V : Vocabulary) where
  node : V.NodeId
  notBefore : V.Time
  supersededAt : Option V.Time

def trustEntryFromValue (v : Value) : Outcome String (TrustListEntryRecord V) := do
  let obj ← objectOf v "trust-list entry must be an object"
  let raw ← strField obj "node" "`node` is required"
  let node ← inField "node" (lift (S.nodeIdNew raw))
  let notBeforeRaw ← strField obj "not_before" "`not_before` (RFC 3339) is required"
  let notBefore ← tsParse S notBeforeRaw
  let supersededAt ← optTs S "superseded_at" (obj.lookup "superseded_at")
  .ok ⟨node, notBefore, supersededAt⟩

/-- Upsert of `entry`; a present one has both its instants replaced. -/
def applyEntry (list : TrustList V) (entry : TrustListEntryRecord V) : TrustList V :=
  { list with entries := list.entries.insert entry.node (match list.entries[entry.node]? with
    | some e => { e with notBefore := entry.notBefore, supersededAt := entry.supersededAt }
    | none => ⟨entry.node, entry.notBefore, entry.supersededAt⟩) }

def witnessAttestationToValue (w : WitnessAttestation V) : Value :=
  .object [("witness", .str (S.nodeIdStr w.witness)), ("at", .str (tsString S w.at_)),
    ("slot", slotToValue S w.slot)]

def witnessAttestationFromValue (v : Value) : Outcome String (WitnessAttestation V) := do
  let obj ← objectOf v "witness attestation must be an object"
  let raw ← strField obj "witness" "`witness` is required"
  let witness ← inField "witness" (lift (S.nodeIdNew raw))
  let atRaw ← strField obj "at" "`at` (RFC 3339) is required"
  let at_ ← tsParse S atRaw
  let slotV ← okOr (obj.lookup "slot") "`slot` is required"
  let slot ← slotFromValue S slotV
  .ok ⟨witness, at_, slot⟩

def masterEntryToValue (e : MasterListEntry V) : Value :=
  .object [("node", .str (S.nodeIdStr e.node)),
    ("attestations", .arr (e.attestations.map (witnessAttestationToValue S)))]

def masterEntryFromValue (v : Value) : Outcome String (MasterListEntry V) := do
  let obj ← objectOf v "master-list entry must be an object"
  let raw ← strField obj "node" "`node` is required"
  let node ← inField "node" (lift (S.nodeIdNew raw))
  let values ← arrayField obj "attestations" "`attestations` array is required"
  let attestations ← values.mapM (witnessAttestationFromValue S)
  .ok ⟨node, attestations⟩

def witnessToValue (w : V.NodeId × V.PublicKey) : Value :=
  .object (("node", .str (S.nodeIdStr w.1)) ::
    ("key_id", .str (S.keyIdStr (S.keyIdOf w.2))) :: publicFields S w.2)

def witnessesToValue (master : MasterList V) : Value :=
  .arr (master.witnesses.toList.map (witnessToValue S))

def witnessFromValue (w : Value) : Outcome String (V.NodeId × V.PublicKey) := do
  let obj ← objectOf w "witness must be an object"
  let raw ← strField obj "node" "`node` is required"
  let node ← inField "node" (lift (S.nodeIdNew raw))
  let key ← publicFromValue S (.obj obj)
  .ok (node, key)

def witnessesFromValue (v : Value) : Outcome String (List (V.NodeId × V.PublicKey)) := do
  let arr ← okOr v.asArray "`witnesses` must be an array"
  arr.mapM (witnessFromValue S)

/-- The live verdict on each attestation of an entry. -/
def attestationsVerified (entry : MasterListEntry V) (witnesses : NodeMap V V.PublicKey) :
    List Bool :=
  entry.attestations.map fun att =>
    match witnesses[att.witness]? with
    | some key => S.slotVerify att.slot .masterListWitness (S.witnessBytes entry.node att.at_) key
    | none => false

def verifiedWitnesses (entry : MasterListEntry V) (witnesses : NodeMap V V.PublicKey) :
    NodeSet V :=
  (entry.attestations.zip (attestationsVerified S entry witnesses)).foldl
    (fun distinct (att, ok) => if ok then distinct.insert att.witness else distinct) ∅

def masterEntryQuorate (entry : MasterListEntry V) (witnesses : NodeMap V V.PublicKey)
    (m : UInt64) : Bool :=
  m.toNat ≤ (verifiedWitnesses S entry witnesses).size

end UnidppTrust
