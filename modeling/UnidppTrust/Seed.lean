import UnidppTrust.Record

namespace UnidppTrust
open Rust Json
set_option autoImplicit true

variable (V : Vocabulary)

/-- The signing and building functions the seed fixtures call; an error is its display text. -/
structure Fixtures where
  ed25519 : V.Suite
  ecdsaP256 : V.Suite
  keyPairSeeded : V.Suite → Bytes → Except String V.KeyPair
  keyPairPublic : V.KeyPair → V.PublicKey
  keyPairKeyId : V.KeyPair → V.KeyId
  registeredKeyOf : V.KeyPair → RegisteredKey V
  scopeUnconstrained : V.DelegationScope
  scopeAuthority : V.DelegationScope → List String → V.DelegationScope
  scopeProfileVersion : V.DelegationScope → List String → V.DelegationScope
  scopeProductGroup : V.DelegationScope → List String → V.DelegationScope
  scopeWithin : V.DelegationScope → Interval V → V.DelegationScope
  credentialMintSign :
    V.NodeId → V.NodeId → V.DelegationScope → V.KeyPair → Except String (DelegationCredential V)
  credentialCoSign : DelegationCredential V → V.KeyPair → Except String (DelegationCredential V)
  trustListTrust : TrustList V → V.NodeId → V.Time → TrustList V
  witnessMintSign :
    V.NodeId → V.NodeId → V.Time → V.KeyPair → Except String (WitnessAttestation V)
  quorumMintSign :
    V.NodeId → UInt64 → Bytes → List V.KeyPair → Except String (QuorumAttestation V)

variable {V} (S : Signatif V) (F : Fixtures V)

def unwrap (x : Except String α) : Outcome ε α :=
  match x with
  | .ok a => .ok a
  | .error _ => abort

def T0 : Int := 1000000

def ts (offset : Int) : V.Time := S.timeFromSecs (T0 + offset)

structure SeedKeys (V : Vocabulary) where
  root : V.KeyPair
  notified : V.KeyPair
  issuer : V.KeyPair
  issuerAlt : V.KeyPair
  witnesses : NodeMap V V.KeyPair
  quorumMembers : List V.KeyPair

def seeded (suite : V.Suite) (seed : String) : Outcome ε V.KeyPair :=
  unwrap (F.keyPairSeeded suite (bytes seed))

def nodeId (s : String) : Outcome ε V.NodeId := unwrap (S.nodeIdNew s)

def seedWitness (i : String) : Outcome ε (V.NodeId × V.KeyPair) := do
  let id ← nodeId S ("witness-" ++ i)
  let key ← seeded F F.ed25519 ("scenario/w" ++ i)
  .ok (id, key)

def SeedKeys.load : Outcome ε (SeedKeys V) := do
  let root ← seeded F F.ed25519 "scenario/eu-root"
  let notified ← seeded F F.ecdsaP256 "scenario/eu-notified"
  let issuer ← seeded F F.ed25519 "scenario/issuer-a"
  let issuerAlt ← seeded F F.ecdsaP256 "scenario/issuer-a-alt"
  let witnesses ← ["1", "2", "3"].mapM (seedWitness S F)
  let q1 ← seeded F F.ed25519 "scenario/quorum-1"
  let q2 ← seeded F F.ed25519 "scenario/quorum-2"
  let q3 ← seeded F F.ecdsaP256 "scenario/quorum-3"
  .ok ⟨root, notified, issuer, issuerAlt, Std.ExtTreeMap.ofList witnesses compare, [q1, q2, q3]⟩

def nodeWith (id : V.NodeId) (kind : NodeKind V) (keys : List V.KeyPair) : Op V :=
  .registerNode ((keys.map F.registeredKeyOf).foldl S.nodeRegister (S.nodeNew id kind))

def seedNodes (keys : SeedKeys V) (qIds : List V.NodeId) (quorumId rootId notifiedId
    issuerId : V.NodeId) : List (Op V) :=
  keys.witnesses.toList.map (fun (id, key) => nodeWith S F id .end [key]) ++
    (qIds.zip keys.quorumMembers).map (fun (id, key) => nodeWith S F id .end [key]) ++
    [nodeWith S F quorumId (.thresholdGroup 2 (Std.ExtTreeSet.ofList qIds compare)) [],
      nodeWith S F rootId .root [keys.root], nodeWith S F notifiedId .delegated [keys.notified],
      nodeWith S F issuerId .end [keys.issuer, keys.issuerAlt]]

def seedEdges (keys : SeedKeys V) (rootId notifiedId issuerId : V.NodeId) :
    Outcome ε (List (Op V)) := do
  let wide := F.scopeWithin (F.scopeProductGroup (F.scopeProfileVersion
    (F.scopeAuthority F.scopeUnconstrained ["eu"])
    ["urn:unidpp:profile:eu-batt@3", "urn:unidpp:profile:eu-espr@2"])
    ["batteries", "electronics"]) (S.intervalStarting (ts S 0))
  let narrow := F.scopeWithin (F.scopeProductGroup (F.scopeProfileVersion
    (F.scopeAuthority F.scopeUnconstrained ["eu"]) ["urn:unidpp:profile:eu-batt@3"])
    ["batteries"]) (S.intervalStarting (ts S 0))
  let minted ← unwrap (F.credentialMintSign rootId notifiedId wide keys.root)
  let hop1 ← unwrap (F.credentialCoSign minted keys.root)
  let hop2 ← unwrap (F.credentialMintSign notifiedId issuerId narrow keys.notified)
  .ok [.addEdge hop1, .addEdge hop2]

def buildTrustLists : Outcome ε (List (String × Option String × TrustList V)) := do
  let root ← nodeId S "eu-root"
  .ok [("EU", some "espr", F.trustListTrust (S.trustListNew "EU") root (ts S 0))]

def seedLists (lists : List (String × Option String × TrustList V)) : List (Op V) :=
  lists.map (fun (jurisdiction, framework, _) => .registerTrustList jurisdiction framework) ++
    lists.flatMap fun (jurisdiction, _, list) =>
      list.entries.toList.map fun (_, e) =>
        .upsertTrustEntry jurisdiction e.node e.notBefore e.supersededAt

def seedMaster (keys : SeedKeys V) (rootId : V.NodeId) : Outcome ε (List (Op V)) := do
  let pairs := keys.witnesses.toList.map fun (id, key) => (id, F.keyPairPublic key)
  let attestations ← keys.witnesses.toList.mapM fun (id, key) =>
    unwrap (F.witnessMintSign id rootId (ts S 0) key)
  .ok [.setWitnesses 2 pairs, .upsertMasterEntry ⟨rootId, attestations⟩]

def seedRevocations (keys : SeedKeys V) (rootId : V.NodeId) : Outcome ε (List (Op V)) := do
  let window ← unwrap (S.intervalBetween (ts S 3000) (ts S 8000))
  let declaredBy ← nodeId S "eu-super-quorum"
  let retro : Revocation V :=
    ⟨.key (F.keyPairKeyId keys.issuer), .misissuance, ts S 10000, declaredBy, window, none⟩
  let att ← unwrap (F.quorumMintSign retro.declaredBy 2 (S.statementBytes retro)
    keys.quorumMembers)
  .ok [.declareRevocation { retro with quorum := some att },
    .declareRevocation ⟨.key (F.keyPairKeyId keys.issuer), .keyCompromise (ts S 9500),
      ts S 10500, rootId, S.intervalStarting (ts S 9500), none⟩]

/-- The operations that, replayed, re-create the seed state from scratch. -/
def seedOps : Outcome ε (List (Op V)) := do
  let keys ← SeedKeys.load S F
  let qIds ← ["quorum-1", "quorum-2", "quorum-3"].mapM (nodeId S)
  let quorumId ← nodeId S "eu-super-quorum"
  let rootId ← nodeId S "eu-root"
  let notifiedId ← nodeId S "eu-notified"
  let issuerId ← nodeId S "issuer-key-a"
  let edges ← seedEdges S F keys rootId notifiedId issuerId
  let lists ← buildTrustLists S F
  let master ← seedMaster S F keys rootId
  let revocations ← seedRevocations S F keys rootId
  .ok (seedNodes S F keys qIds quorumId rootId notifiedId issuerId ++ edges ++ seedLists lists ++
    master ++ revocations)

/-- The operations on each part of the state, when they are all there. -/
theorem seedOps_ok {S : Signatif V} {F : Fixtures V} (h : (seedOps S F : Outcome ε _) = .ok ops) :
    ∃ keys qIds quorumId rootId notifiedId issuerId edges lists master revocations,
      (seedEdges S F keys rootId notifiedId issuerId : Outcome ε _) = .ok edges ∧
      (buildTrustLists S F : Outcome ε _) = .ok lists ∧
      (seedMaster S F keys rootId : Outcome ε _) = .ok master ∧
      (seedRevocations S F keys rootId : Outcome ε _) = .ok revocations ∧
      ops = seedNodes S F keys qIds quorumId rootId notifiedId issuerId ++ edges ++
        seedLists lists ++ master ++ revocations := by
  rw [seedOps] at h
  obtain ⟨keys, -, h⟩ := bind_eq_ok h
  obtain ⟨qIds, -, h⟩ := bind_eq_ok h
  obtain ⟨quorumId, -, h⟩ := bind_eq_ok h
  obtain ⟨rootId, -, h⟩ := bind_eq_ok h
  obtain ⟨notifiedId, -, h⟩ := bind_eq_ok h
  obtain ⟨issuerId, -, h⟩ := bind_eq_ok h
  obtain ⟨edges, hedges, h⟩ := bind_eq_ok h
  obtain ⟨lists, hlists, h⟩ := bind_eq_ok h
  obtain ⟨master, hmaster, h⟩ := bind_eq_ok h
  obtain ⟨revocations, hrevocations, h⟩ := bind_eq_ok h
  cases h
  exact ⟨keys, qIds, quorumId, rootId, notifiedId, issuerId, edges, lists, master, revocations,
    hedges, hlists, hmaster, hrevocations, rfl⟩

end UnidppTrust
