import UnidppTrust.JsonText
import UnidppTrust.Wire

namespace UnidppTrust.Ceremony
open Rust Json
set_option autoImplicit true

structure Options where
  quorum : String
  threshold : UInt64
  members : List String
  signers : List String
  subjectKind : String
  subjectId : String
  reason : String
  detectedAt : Option String
  windowStart : String
  windowEnd : Option String
  declaredAt : String
  outDir : Option String

structure QuorumSpec (V : Vocabulary) where
  quorumId : V.NodeId
  threshold : UInt64
  members : List V.NodeId

structure CeremonyStatement where
  label : String
  payload : Bytes

structure SessionInit (V : Vocabulary) where
  statement : CeremonyStatement
  quorum : QuorumSpec V

inductive CeremonyError where
  | thresholdNotMet (got need : UInt64)
  | other (display : String)

structure GroupKey where
  algorithm : Value
  threshold : UInt64
  members : UInt64
  groupPublic : String
  commitments : Value

/-- The functions of the crates behind a ceremony, which changes as it goes. -/
structure Confium (V : Vocabulary) where
  Real : Type
  Session : Type
  Commitment : Type
  Share : Type
  Aggregated : Type
  new : Real
  validate : QuorumSpec V → Except String Unit
  createSession : Real → SessionInit V → Except String Session × Real
  commitmentFor : Real → Session → V.NodeId → Except String Commitment × Real
  submitCommitment : Real → Session → Commitment → Except String Unit × Real
  shareFor : Real → Session → V.NodeId → Except String Share × Real
  submitShare : Real → Session → Share → Except String Unit × Real
  aggregate : Real → Session → Except CeremonyError Aggregated × Real
  group : Real → Session → Except String GroupKey
  verify : Aggregated → CeremonyStatement → Except String Unit
  toSlot : Aggregated → SignatureSlot V
  sha256Hex : Bytes → String

/-- The file system, and the `{:?}` form of a text. -/
structure Host where
  createDirAll : String → Except String Unit
  write : String → String → Except String Unit
  debug : String → String

variable {V : Vocabulary} (S : Signatif V) (K : Confium V)

def Options.check (o : Options) : Outcome String String :=
  if o.quorum.isEmpty then fail "declare needs --quorum"
  else if o.threshold = 0 then fail "declare needs --threshold"
  else if o.members.length < 2 then fail "declare needs at least two --member ids"
  else if o.signers.isEmpty then fail "declare needs the qualifying set as --signer ids"
  else if o.threshold.toNat < o.signers.length then
    fail ("a qualifying set is exactly " ++ toString o.threshold ++ " signer(s) (" ++
      toString o.signers.length ++ " given): fewer cannot sign, more are redundant")
  else okOr o.outDir "declare needs --out-dir"

def Options.subject (o : Options) : Outcome String (RevokedSubject V) :=
  if o.subjectKind = "key" ∨ o.subjectKind = "node" ∨ o.subjectKind = "passport" then
    mapErr ("--subject-id: " ++ ·) (revokedSubjectFromValue S
      (.object [("kind", .str o.subjectKind), ("id", .str o.subjectId)]))
  else fail ("unknown --subject-kind `" ++ o.subjectKind ++ "`")

def Options.reasonJson (o : Options) : Value :=
  .object (("token", .str o.reason) ::
    (o.detectedAt.toList.map fun d => ("detected_at", .str d)))

def Options.windowJson (o : Options) : Value :=
  .object (("start", .str o.windowStart) :: (o.windowEnd.toList.map fun e => ("end", .str e)))

def ts (s : String) : Outcome String V.Time := mapErr (("`" ++ s ++ "`: ") ++ ·) (tsParse S s)

def Options.revocation (o : Options) : Outcome String (Revocation V) := do
  let subject ← o.subject S
  let reason ← mapErr ("--reason: " ++ ·) (reasonFromValue S o.reasonJson)
  if S.isRetroactive reason = false then
    fail ("reason `" ++ S.reasonToken reason ++
      "` is prospective — it needs no quorum; declare it directly through POST /revocations")
  let declaredAt ← mapErr ("--declared-at: " ++ ·) (ts S o.declaredAt)
  let window ← mapErr ("--window-*: " ++ ·) (intervalFromValue S o.windowJson)
  let quorum ← mapErr ("--quorum: " ++ ·) (lift (S.nodeIdNew o.quorum))
  .ok ⟨subject, reason, declaredAt, quorum, window, none⟩

def nodeIds (flag : String) (ids : List String) : Outcome String (List V.NodeId) :=
  ids.mapM fun x => mapErr ((flag ++ " " ++ x ++ ": ") ++ ·) (lift (S.nodeIdNew x))

def checkSigners (members : List V.NodeId) : List V.NodeId → Outcome String Unit
  | [] => .ok ()
  | signer :: signers =>
    if signer ∈ members then checkSigners members signers
    else fail ("signer " ++ S.nodeIdStr signer ++ " is not a member of the quorum")

def called (pre : String) (x : Except String α × σ) : Outcome String (α × σ) := do
  let a ← mapErr (pre ++ ·) (lift x.1)
  .ok (a, x.2)

def roundOne (session : K.Session) (ceremony : K.Real) : List V.NodeId → Outcome String K.Real
  | [] => .ok ceremony
  | signer :: signers => do
    let pre := "round 1 (" ++ S.nodeIdStr signer ++ "): "
    let x ← called pre (K.commitmentFor ceremony session signer)
    let y ← called pre (K.submitCommitment x.2 session x.1)
    roundOne session y.2 signers

def roundTwo (session : K.Session) (ceremony : K.Real) : List V.NodeId → Outcome String K.Real
  | [] => .ok ceremony
  | signer :: signers => do
    let pre := "round 2 (" ++ S.nodeIdStr signer ++ "): "
    let x ← called pre (K.shareFor ceremony session signer)
    let y ← called pre (K.submitShare x.2 session x.1)
    roundTwo session y.2 signers

def aggregationError : CeremonyError → String
  | .thresholdNotMet got need =>
    "quorum not met: have " ++ toString got ++ " of " ++ toString need ++
      " — the ceremony cannot produce a group signature below the threshold " ++
      "(this is the refusal, not a retry hint)"
  | .other display => "aggregation: " ++ display

/-- What a completed ceremony is written from. -/
structure Completed (V : Vocabulary) where
  revocation : Revocation V
  node : DelegationNode V
  groupKey : GroupKey
  groupPublic : V.PublicKey
  signers : List V.NodeId
  statementBytes : Bytes
  payload : Bytes

/-- The ceremony over a revocation, and the node that pins its group key. -/
def Options.ceremony (o : Options) (revocation : Revocation V) : Outcome String (Completed V) := do
  let quorum := revocation.declaredBy
  let members ← nodeIds S "--member" o.members
  let spec : QuorumSpec V := ⟨quorum, o.threshold, members⟩
  lift (K.validate spec)
  let statementBytes := S.statementBytes revocation
  let payload := S.quorumBytes statementBytes quorum o.threshold
  let label := "retroactive-distrust:" ++ S.subjectLabel revocation.subject
  let created ← called "ceremony session: " (K.createSession K.new ⟨⟨label, payload⟩, spec⟩)
  let session := created.1
  let signers ← nodeIds S "--signer" o.signers
  checkSigners S members signers
  let committed ← roundOne S K session created.2 signers
  let shared ← roundTwo S K session committed signers
  let (result, ceremony) := K.aggregate shared session
  let aggregated ← mapErr aggregationError (lift result)
  mapErr ("group signature self-check: " ++ ·) (lift (K.verify aggregated ⟨"", payload⟩))
  let groupKey ← mapErr ("group: " ++ ·) (lift (K.group ceremony session))
  let raw ← mapErr ("group key: " ++ ·) (hexDecode groupKey.groupPublic)
  let groupPublic ← mapErr ("group key: " ++ ·) (lift (S.publicFromBytes raw))
  let kind := NodeKind.thresholdGroup o.threshold (Std.ExtTreeSet.ofList members compare)
  .ok {
    revocation := { revocation with quorum := some ⟨quorum, o.threshold, [K.toSlot aggregated]⟩ }
    node := S.nodeRegister (S.nodeNew quorum kind) ⟨S.keyIdOf groupPublic, groupPublic⟩
    groupKey := groupKey
    groupPublic := groupPublic
    signers := signers
    statementBytes := statementBytes
    payload := payload }

def Completed.ceremonyJson (c : Completed V) : Value :=
  .object [("algorithm", c.groupKey.algorithm), ("threshold", .u64 c.groupKey.threshold),
    ("members", .u64 c.groupKey.members), ("group_public", .str c.groupKey.groupPublic),
    ("feldman_commitments", c.groupKey.commitments),
    ("signers", .arr (c.signers.map fun s => .str (S.nodeIdStr s))),
    ("statement", .object [("subject", revokedSubjectToValue S c.revocation.subject),
      ("reason", reasonToValue S c.revocation.reason),
      ("window", intervalToValue S c.revocation.window),
      ("declared_by", .str (S.nodeIdStr c.revocation.declaredBy)),
      ("sha256", .object [("statement_bytes", .str (K.sha256Hex c.statementBytes)),
        ("canonical_payload", .str (K.sha256Hex c.payload))])]),
    ("seed_note", .str ("RealCeremony derives the ceremony seed from the public quorum spec — " ++
      "reproducible for rehearsals and demos, not a production root ceremony " ++
      "(see signatif's confium::real module docs)"))]

def pathJoin (dir name : String) : String :=
  if dir.isEmpty || dir.endsWith "/" then dir ++ name else dir ++ "/" ++ name

def Completed.files (dir : String) (c : Completed V) : List (String × String) :=
  [(pathJoin dir "quorum-node.json", (nodeToValue S c.node).toStringPretty),
    (pathJoin dir "revocation.json", (revocationToValue S c.revocation).toStringPretty),
    (pathJoin dir "ceremony.json", (c.ceremonyJson S K).toStringPretty)]

def Completed.summary (H : Host) (dir : String) (c : Completed V) : String :=
  toString c.groupKey.threshold ++ "-of-" ++ toString c.groupKey.members ++
    " ceremony complete — qualifying set [" ++
    ", ".intercalate (c.signers.map fun s => H.debug (S.nodeIdStr s)) ++
    "] (no member key can sign alone; the group key matches no member)\ngroup public key: " ++
    hexEncode (S.publicBytes c.groupPublic) ++ "\nwrote " ++ dir ++
    "/quorum-node.json (POST /nodes — pinning is load-bearing),\n" ++ dir ++
    "/revocation.json (POST /revocations), " ++ dir ++ "/ceremony.json"

def Host.writeAll (H : Host) : List (String × String) → Except String Unit × List (String × String)
  | [] => (.ok (), [])
  | f :: fs =>
    match H.write f.1 f.2 with
    | .error e => (.error ("cannot write " ++ f.1 ++ ": " ++ e), [])
    | .ok () => (H.writeAll fs).map id (f :: ·)

def Options.run (o : Options) : Outcome String (String × Completed V) := do
  let dir ← o.check
  let revocation ← o.revocation S
  let completed ← o.ceremony S K revocation
  .ok (dir, completed)

/-- `declare`: what it returns, and the files it leaves. -/
def declare (H : Host) (o : Options) : Outcome String String × List (String × String) :=
  match o.run S K with
  | .error e => (.error e, [])
  | .ok (dir, completed) =>
    match H.createDirAll dir with
    | .error e => (fail ("cannot create " ++ dir ++ ": " ++ e), [])
    | .ok () =>
      let (written, files) := H.writeAll (completed.files S K dir)
      (lift (written.map fun _ => completed.summary S H dir), files)

variable {S K}

theorem writeAll_ok {H : Host} {fs : List (String × String)} (h : (H.writeAll fs).1 = .ok u) :
    (H.writeAll fs).2 = fs := by
  induction fs with
  | nil => rfl
  | cons f fs ih =>
    rw [Host.writeAll] at h ⊢
    cases hw : H.write f.1 f.2 with
    | error e =>
      rw [hw] at h
      cases h
    | ok v =>
      rw [hw] at h
      exact congrArg (f :: ·) (ih h)

theorem declare_ok {H : Host} {o : Options} (h : (declare S K H o).1 = .ok text) :
    ∃ dir revocation completed, o.check = .ok dir ∧ o.revocation S = .ok revocation ∧
      o.ceremony S K revocation = .ok completed ∧
      (declare S K H o).2 = completed.files S K dir := by
  rw [declare] at h ⊢
  cases hrun : o.run S K with
  | error e =>
    rw [hrun] at h
    cases h
  | ok x =>
    obtain ⟨dir, hdir, hrest⟩ := bind_eq_ok hrun
    obtain ⟨revocation, hrev, hrest⟩ := bind_eq_ok hrest
    obtain ⟨completed, hcer, hx⟩ := bind_eq_ok hrest
    cases hx
    rw [hrun] at h
    refine ⟨dir, revocation, completed, hdir, hrev, hcer, ?_⟩
    dsimp only at h ⊢
    cases hcreate : H.createDirAll dir with
    | error e =>
      rw [hcreate] at h
      cases h
    | ok v =>
      rw [hcreate] at h
      cases hw : (H.writeAll (completed.files S K dir)).1 with
      | error e =>
        dsimp only at h
        rw [hw] at h
        cases h
      | ok v' => exact writeAll_ok hw

/-- What a completed ceremony consists of. -/
theorem ceremony_ok {o : Options} {revocation : Revocation V}
    (h : o.ceremony S K revocation = .ok c) :
    ∃ members aggregated shared session ceremony raw,
      K.aggregate shared session = (.ok aggregated, ceremony) ∧
      K.verify aggregated ⟨"", c.payload⟩ = .ok () ∧
      K.group ceremony session = .ok c.groupKey ∧
      hexDecode c.groupKey.groupPublic = .ok raw ∧
      S.publicFromBytes raw = .ok c.groupPublic ∧
      c.payload = S.quorumBytes (S.statementBytes revocation) revocation.declaredBy o.threshold ∧
      c.revocation = { revocation with
        quorum := some ⟨revocation.declaredBy, o.threshold, [K.toSlot aggregated]⟩ } ∧
      c.node = S.nodeRegister
          (S.nodeNew revocation.declaredBy (.thresholdGroup o.threshold members))
        ⟨S.keyIdOf c.groupPublic, c.groupPublic⟩ := by
  obtain ⟨members, -, h⟩ := bind_eq_ok h
  obtain ⟨-, -, h⟩ := bind_eq_ok h
  obtain ⟨created, -, h⟩ := bind_eq_ok h
  obtain ⟨signers, -, h⟩ := bind_eq_ok h
  obtain ⟨-, -, h⟩ := bind_eq_ok h
  obtain ⟨committed, -, h⟩ := bind_eq_ok h
  obtain ⟨shared, -, h⟩ := bind_eq_ok h
  obtain ⟨aggregated, hagg, h⟩ := bind_eq_ok h
  obtain ⟨⟨⟩, hverify, h⟩ := bind_eq_ok h
  obtain ⟨groupKey, hgroup, h⟩ := bind_eq_ok h
  obtain ⟨raw, hraw, h⟩ := bind_eq_ok h
  obtain ⟨groupPublic, hpublic, h⟩ := bind_eq_ok h
  cases h
  exact ⟨_, aggregated, shared, created.1, _, raw,
    Prod.ext (lift_eq_ok (mapErr_eq_ok hagg)) rfl, lift_eq_ok (mapErr_eq_ok hverify),
    lift_eq_ok (mapErr_eq_ok hgroup), mapErr_eq_ok hraw, lift_eq_ok (mapErr_eq_ok hpublic), rfl,
    rfl, rfl⟩

end UnidppTrust.Ceremony
