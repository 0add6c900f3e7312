import UnidppTrust.Signatif
import Mathlib.Data.List.Nodup

namespace UnidppTrust
open Rust
set_option autoImplicit true

inductive QuorumForm where
  | memberKeys
  | thresholdGroup
  deriving DecidableEq

def QuorumForm.token : QuorumForm → String
  | .memberKeys => "member-keys"
  | .thresholdGroup => "threshold-group"

/-- The live verdict over one attestation, against one statement. -/
structure QuorumVerdict where
  form : QuorumForm
  memberVerified : Nat
  groupVerified : Bool
  threshold : UInt64
  quorate : Bool
  deriving DecidableEq

def QuorumVerdict.summary (v : QuorumVerdict) : String :=
  match v.form with
  | .memberKeys =>
    toString v.memberVerified ++ " member key(s) verified, threshold " ++ toString v.threshold
  | .thresholdGroup =>
    "threshold-group signature verified (" ++ toString v.threshold ++
      " of the group's members acted), threshold " ++ toString v.threshold

variable {V : Vocabulary} (S : Signatif V)

def slotVerifies (slot : SignatureSlot V) (payload : Bytes) (key : V.PublicKey) : Bool :=
  S.slotVerify slot .quorum payload key

def NodeKind.threshold : NodeKind V → Option UInt64
  | .thresholdGroup threshold _ => some threshold
  | _ => none

/-- Some slot verifies under a key registered on the quorum node itself. -/
def groupVerified (node : Option (DelegationNode V)) (slots : List (SignatureSlot V))
    (payload : Bytes) : Bool :=
  match node with
  | none => false
  | some n => slots.any fun slot =>
    match S.nodeKey n slot.keyId with
    | some key => slotVerifies S slot payload key
    | none => false

def quorumKeys (node : Option (DelegationNode V)) : List V.KeyId :=
  match node with
  | none => []
  | some n => n.keys.map (·.keyId)

/-- A slot counts under a key of the directory that the quorum node does not hold. -/
def memberVerifies (graph : V.TrustGraph) (node : Option (DelegationNode V)) (payload : Bytes)
    (slot : SignatureSlot V) : Bool :=
  if slot.keyId ∈ quorumKeys node then false
  else
    match S.directoryResolve graph slot.keyId with
    | some key => slotVerifies S slot payload key
    | none => false

/-- The set of verifying member keys, as the loop collects it. -/
def verifyingMembers (graph : V.TrustGraph) (node : Option (DelegationNode V))
    (slots : List (SignatureSlot V)) (payload : Bytes) : List V.KeyId :=
  slots.foldl (fun members slot =>
    if memberVerifies S graph node payload slot then members.insert slot.keyId else members) []

def verdict (graph : V.TrustGraph) (quorum : QuorumAttestation V) (statement : Bytes) :
    QuorumVerdict :=
  let payload := S.quorumBytes statement quorum.quorum quorum.threshold
  let node := S.graphNode graph quorum.quorum
  let nodeThreshold := node.bind fun n => n.kind.threshold
  let group := groupVerified S node quorum.signatures payload
  let groupCertifies := group && nodeThreshold == some quorum.threshold
  let members := verifyingMembers S graph node quorum.signatures payload
  let form := if groupCertifies then QuorumForm.thresholdGroup else .memberKeys
  let quorate := if groupCertifies then true else decide (quorum.threshold.toNat ≤ members.length)
  ⟨form, members.length, group, quorum.threshold, quorate⟩

theorem mem_foldl_insert {p : SignatureSlot V → Bool} (slots : List (SignatureSlot V))
    (acc : List V.KeyId) (k : V.KeyId) :
    k ∈ slots.foldl (fun ms slot => if p slot then ms.insert slot.keyId else ms) acc ↔
      k ∈ acc ∨ ∃ slot ∈ slots, p slot = true ∧ slot.keyId = k := by
  induction slots generalizing acc with
  | nil => simp
  | cons slot slots ih =>
    rw [List.foldl_cons, ih]
    cases hp : p slot with
    | false => simp [hp]
    | true =>
      simp only [if_true, List.mem_insert_iff, List.mem_cons, exists_eq_or_imp, hp, true_and]
      constructor
      · rintro ((rfl | h) | h)
        · exact .inr (.inl rfl)
        · exact .inl h
        · exact .inr (.inr h)
      · rintro (h | rfl | h)
        · exact .inl (.inr h)
        · exact .inl (.inl rfl)
        · exact .inr h

theorem nodup_foldl_insert {p : SignatureSlot V → Bool} (slots : List (SignatureSlot V))
    (acc : List V.KeyId) (h : acc.Nodup) :
    (slots.foldl (fun ms slot => if p slot then ms.insert slot.keyId else ms) acc).Nodup := by
  induction slots generalizing acc with
  | nil => exact h
  | cons slot slots ih =>
    rw [List.foldl_cons]
    apply ih
    split
    · exact List.Nodup.insert h
    · exact h

theorem mem_verifyingMembers {slots : List (SignatureSlot V)} :
    k ∈ verifyingMembers S graph node slots payload ↔
      ∃ slot ∈ slots, memberVerifies S graph node payload slot = true ∧ slot.keyId = k := by
  simp only [verifyingMembers, mem_foldl_insert, List.not_mem_nil, false_or]

theorem nodup_verifyingMembers (graph : V.TrustGraph) (node : Option (DelegationNode V))
    (slots : List (SignatureSlot V)) (payload : Bytes) :
    (verifyingMembers S graph node slots payload).Nodup :=
  nodup_foldl_insert slots [] List.nodup_nil

theorem memberVerifies_iff : memberVerifies S graph node payload slot = true ↔
    slot.keyId ∉ quorumKeys node ∧
      ∃ key, S.directoryResolve graph slot.keyId = some key ∧
        slotVerifies S slot payload key = true := by
  unfold memberVerifies
  split
  · rename_i h
    simp [h]
  · rename_i h
    cases S.directoryResolve graph slot.keyId <;> simp [h]

theorem groupVerified_iff : groupVerified S node slots payload = true ↔
    ∃ n, node = some n ∧ ∃ slot ∈ slots, ∃ key, S.nodeKey n slot.keyId = some key ∧
      slotVerifies S slot payload key = true := by
  cases node with
  | none => simp [groupVerified]
  | some n =>
    simp only [groupVerified, List.any_eq_true, Option.some.injEq, exists_eq_left']
    constructor
    · rintro ⟨slot, hslot, h⟩
      refine ⟨slot, hslot, ?_⟩
      cases hk : S.nodeKey n slot.keyId with
      | none => rw [hk] at h; cases h
      | some key => rw [hk] at h; exact ⟨key, rfl, h⟩
    · rintro ⟨slot, hslot, key, hk, h⟩
      exact ⟨slot, hslot, by rw [hk]; exact h⟩

/-- A verdict is quorate in the group form or by its count of member keys. -/
theorem quorate_iff (graph : V.TrustGraph) (quorum : QuorumAttestation V) (statement : Bytes) :
    let payload := S.quorumBytes statement quorum.quorum quorum.threshold
    let node := S.graphNode graph quorum.quorum
    (verdict S graph quorum statement).quorate = true ↔
      (groupVerified S node quorum.signatures payload = true ∧
        (node.bind fun n => n.kind.threshold) = some quorum.threshold) ∨
      quorum.threshold.toNat ≤
        (verifyingMembers S graph node quorum.signatures payload).length := by
  simp only [verdict]
  split
  · rename_i h
    simp only [Bool.and_eq_true, beq_iff_eq] at h
    simp [h]
  · rename_i h
    simp only [Bool.and_eq_true, beq_iff_eq] at h
    simp [h]

end UnidppTrust
