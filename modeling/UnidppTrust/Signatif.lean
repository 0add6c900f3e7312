import UnidppTrust.Json
import UnidppTrust.Time
import Mathlib.Order.Defs.LinearOrder
import Std.Data.ExtTreeMap
import Std.Data.ExtTreeSet

namespace UnidppTrust
open Rust Json
set_option autoImplicit true

/-- The types of the `unidpp_signatif` and `unidpp_model` crates that the service handles through
their functions only. -/
structure Vocabulary where
  NodeId : Type
  KeyId : Type
  PassportId : Type
  PublicKey : Type
  KeyPair : Type
  Suite : Type
  Time : Type
  DelegationScope : Type
  ScopeCondition : Type
  TrustGraph : Type
  RevocationLedger : Type
  [nodeIdEq : DecidableEq NodeId]
  [nodeIdOrd : Ord NodeId]
  [nodeIdTrans : Std.TransOrd NodeId]
  [nodeIdLawful : Std.LawfulEqOrd NodeId]
  [keyIdEq : DecidableEq KeyId]
  [timeOrder : LinearOrder Time]

attribute [instance] Vocabulary.nodeIdEq Vocabulary.nodeIdOrd Vocabulary.nodeIdTrans
  Vocabulary.nodeIdLawful Vocabulary.keyIdEq Vocabulary.timeOrder

variable (V : Vocabulary)

/-- `BTreeMap<NodeId, β>`. -/
abbrev NodeMap (β : Type) := Std.ExtTreeMap V.NodeId β compare

/-- `BTreeSet<NodeId>`. -/
abbrev NodeSet := Std.ExtTreeSet V.NodeId compare

inductive SigningDomain where
  | delegation
  | quorum
  | masterListWitness
  | treeHead
  deriving DecidableEq

structure SignatureSlot where
  suite : V.Suite
  keyId : V.KeyId
  signature : Option Bytes

structure RegisteredKey where
  keyId : V.KeyId
  publicKey : V.PublicKey

inductive NodeKind where
  | root
  | delegated
  | «end»
  | thresholdGroup (threshold : UInt64) (members : NodeSet V)

structure DelegationNode where
  id : V.NodeId
  kind : NodeKind V
  keys : List (RegisteredKey V)

structure DelegationCredential where
  parent : V.NodeId
  child : V.NodeId
  scope : V.DelegationScope
  signatures : List (SignatureSlot V)

structure TrustListEntry where
  node : V.NodeId
  notBefore : V.Time
  supersededAt : Option V.Time

structure TrustList where
  jurisdiction : String
  entries : NodeMap V (TrustListEntry V)

structure WitnessAttestation where
  witness : V.NodeId
  at_ : V.Time
  slot : SignatureSlot V

structure MasterListEntry where
  node : V.NodeId
  attestations : List (WitnessAttestation V)

structure MasterList where
  m : UInt64
  k : UInt64
  witnesses : NodeMap V V.PublicKey
  entries : NodeMap V (MasterListEntry V)

structure Interval where
  from_ : V.Time
  to_ : Option V.Time

inductive RevokedSubject where
  | key (k : V.KeyId)
  | node (n : V.NodeId)
  | passport (p : V.PassportId)
  | condition (node : V.NodeId) (condition : V.ScopeCondition)

inductive RevocationReason where
  | keyCompromise (after : V.Time)
  | cessation
  | supersession (by_ : V.NodeId)
  | affiliationChange
  | misissuance
  | fraudulentIssuance
  | authorityCompromised (detectedAt : V.Time)
  | conditionWithdrawal

structure QuorumAttestation where
  quorum : V.NodeId
  threshold : UInt64
  signatures : List (SignatureSlot V)

structure Revocation where
  subject : RevokedSubject V
  reason : RevocationReason V
  declaredAt : V.Time
  declaredBy : V.NodeId
  window : Interval V
  quorum : Option (QuorumAttestation V)

/-- The functions of the two crates that the service calls; an error is its display text. -/
structure Signatif where
  nodeIdNew : String → Except String V.NodeId
  nodeIdStr : V.NodeId → String
  nodeIdAsStr : V.NodeId → String
  keyIdNew : String → Except String V.KeyId
  keyIdStr : V.KeyId → String
  keyIdAsStr : V.KeyId → String
  keyIdOf : V.PublicKey → V.KeyId
  passportIdNew : String → Except String V.PassportId
  passportIdStr : V.PassportId → String
  passportIdAsStr : V.PassportId → String
  publicFromBytes : Bytes → Except String V.PublicKey
  publicBytes : V.PublicKey → Bytes
  publicSuite : V.PublicKey → V.Suite
  suiteParseToken : String → Except String V.Suite
  suiteStr : V.Suite → String
  signatureLen : V.Suite → Nat
  timeFromSecs : Int → V.Time
  timeSecs : V.Time → Int
  timeStr : V.Time → String
  intervalBetween : V.Time → V.Time → Except String (Interval V)
  intervalStarting : V.Time → Interval V
  scopeToValue : V.DelegationScope → Except String Value
  scopeFromValue : Value → Except String V.DelegationScope
  conditionToValue : V.ScopeCondition → Value
  conditionFromValue : Value → Except String V.ScopeCondition
  conditionStr : V.ScopeCondition → String
  slotVerify : SignatureSlot V → SigningDomain → Bytes → V.PublicKey → Bool
  quorumBytes : Bytes → V.NodeId → UInt64 → Bytes
  witnessBytes : V.NodeId → V.Time → Bytes
  statementBytes : Revocation V → Bytes
  reasonToken : RevocationReason V → String
  isRetroactive : RevocationReason V → Bool
  subjectLabel : RevokedSubject V → String
  voids : Revocation V → V.Time → Bool
  nodeNew : V.NodeId → NodeKind V → DelegationNode V
  nodeRegister : DelegationNode V → RegisteredKey V → DelegationNode V
  nodeKey : DelegationNode V → V.KeyId → Option V.PublicKey
  kindDebug : NodeKind V → String
  graphNew : V.TrustGraph
  graphAddNode : V.TrustGraph → DelegationNode V → V.TrustGraph
  graphNode : V.TrustGraph → V.NodeId → Option (DelegationNode V)
  graphSetNode : V.TrustGraph → V.NodeId → DelegationNode V → V.TrustGraph
  graphNodes : V.TrustGraph → List (DelegationNode V)
  graphEdges : V.TrustGraph → List (DelegationCredential V)
  graphNodeCount : V.TrustGraph → Nat
  graphEdgeCount : V.TrustGraph → Nat
  graphAddEdge : V.TrustGraph → DelegationCredential V → Except String Unit × V.TrustGraph
  directoryResolve : V.TrustGraph → V.KeyId → Option V.PublicKey
  trustListNew : String → TrustList V
  inForceAt : TrustListEntry V → V.Time → Bool
  masterNew : UInt64 → NodeMap V V.PublicKey → MasterList V
  masterUpsert : MasterList V → MasterListEntry V → MasterList V
  ledgerNew : V.RevocationLedger
  ledgerDeclare :
    V.RevocationLedger → Revocation V → Except String Unit × V.RevocationLedger
  ledgerRevocations : V.RevocationLedger → List (Revocation V)

variable {V}

/-- What a revocation ledger keeps: the accepted declarations, in order. -/
structure Signatif.Ledger (S : Signatif V) : Prop where
  new : S.ledgerRevocations S.ledgerNew = []
  declared : ∀ l r, (S.ledgerDeclare l r).1 = .ok () →
    S.ledgerRevocations (S.ledgerDeclare l r).2 = S.ledgerRevocations l ++ [r]

/-- How the crate keeps the keys of a node: in the order they came, one for each id. -/
structure Signatif.Nodes (S : Signatif V) : Prop where
  new : ∀ id kind, S.nodeNew id kind = ⟨id, kind, []⟩
  register : ∀ n k, S.nodeRegister n k =
    if n.keys.any (·.keyId = k.keyId) then n else { n with keys := n.keys ++ [k] }
  key : ∀ n k, S.nodeKey n k = (n.keys.find? (·.keyId = k)).map (·.publicKey)
  keyIdAsStr : Function.Injective S.keyIdAsStr

/-- How the crate keeps the nodes of a graph: one for each id, which `add_node` leaves as it is. -/
structure Signatif.Graphs (S : Signatif V) : Prop where
  new : ∀ id, S.graphNode S.graphNew id = none
  present : ∀ g n, (S.graphNode g n.id).isSome → S.graphAddNode g n = g
  absent : ∀ g n id, S.graphNode g n.id = none →
    S.graphNode (S.graphAddNode g n) id = if id = n.id then some n else S.graphNode g id
  set : ∀ g key n id, (S.graphNode g key).isSome → n.id = key →
    S.graphNode (S.graphSetNode g key n) id = if id = key then some n else S.graphNode g id
  same : ∀ g id n, S.graphNode g id = some n → S.graphSetNode g id n = g
  edge : ∀ g c id, S.graphNode (S.graphAddEdge g c).2 id = S.graphNode g id

/-- What a new trust list is. -/
structure Signatif.Lists (S : Signatif V) : Prop where
  jurisdiction : ∀ j, (S.trustListNew j).jurisdiction = j
  entries : ∀ j, (S.trustListNew j).entries = ∅

/-- A refused edge or declaration leaves the graph or the ledger as it was. -/
structure Signatif.Atomic (S : Signatif V) : Prop where
  edge : ∀ g c e, (S.graphAddEdge g c).1 = .error e → (S.graphAddEdge g c).2 = g
  declare : ∀ l r e, (S.ledgerDeclare l r).1 = .error e → (S.ledgerDeclare l r).2 = l

end UnidppTrust
