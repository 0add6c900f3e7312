import UnidppTrust.Quorum
import UnidppTrust.Reference
import Mathlib.Data.List.Perm.Subperm
import Mathlib.Data.Set.Card

namespace UnidppTrust
open Rust
set_option autoImplicit true

variable {V : Vocabulary} {S : Signatif V}

def registeredOn (node : Option (DelegationNode V)) (k : V.KeyId) : Option V.PublicKey :=
  node.bind fun n => (n.keys.find? (·.keyId = k)).map (·.publicKey)

/-- Some slot verifies under the key registered for it on the quorum node. -/
def GroupSigned (S : Signatif V) (node : Option (DelegationNode V))
    (slots : List (SignatureSlot V)) (payload : Bytes) : Prop :=
  ∃ slot ∈ slots, ∃ key, registeredOn node slot.keyId = some key ∧
    slotVerifies S slot payload key = true

/-- The keys that are not registered on the quorum node, resolve in the whole graph's directory and
have a slot that verifies under what they resolve to. -/
def memberKeys (S : Signatif V) (graph : V.TrustGraph) (node : Option (DelegationNode V))
    (slots : List (SignatureSlot V)) (payload : Bytes) : Set V.KeyId :=
  {k | registeredOn node k = none ∧ ∃ key, S.directoryResolve graph k = some key ∧
    ∃ slot ∈ slots, slot.keyId = k ∧ slotVerifies S slot payload key = true}

def IsGroupOf (node : Option (DelegationNode V)) (threshold : UInt64) : Prop :=
  ∃ n members, node = some n ∧ n.kind = .thresholdGroup threshold members

theorem registeredOn_none : registeredOn node k = none ↔ k ∉ quorumKeys node := by
  cases node with
  | none => simp [registeredOn, quorumKeys]
  | some n => simp [registeredOn, quorumKeys]

theorem groupVerified_signed (hS : S.Nodes) :
    groupVerified S node slots payload = true ↔ GroupSigned S node slots payload := by
  rw [groupVerified_iff, GroupSigned]
  constructor
  · rintro ⟨n, rfl, slot, hslot, key, hkey, hver⟩
    rw [hS.key] at hkey
    exact ⟨slot, hslot, key, hkey, hver⟩
  · rintro ⟨slot, hslot, key, hkey, hver⟩
    obtain ⟨n, rfl, hfound⟩ := Option.bind_eq_some_iff.1 hkey
    rw [← hS.key] at hfound
    exact ⟨n, rfl, slot, hslot, key, hfound, hver⟩

theorem mem_memberKeys : k ∈ memberKeys S graph node slots payload ↔
    k ∈ verifyingMembers S graph node slots payload := by
  rw [mem_verifyingMembers]
  constructor
  · rintro ⟨hnone, key, hkey, slot, hslot, rfl, hver⟩
    exact ⟨slot, hslot, (memberVerifies_iff S).2 ⟨registeredOn_none.1 hnone, key, hkey, hver⟩, rfl⟩
  · rintro ⟨slot, hslot, hv, rfl⟩
    obtain ⟨hnone, key, hkey, hver⟩ := (memberVerifies_iff S).1 hv
    exact ⟨registeredOn_none.2 hnone, key, hkey, slot, hslot, rfl, hver⟩

theorem ncard_memberKeys (graph : V.TrustGraph) (node : Option (DelegationNode V))
    (slots : List (SignatureSlot V)) (payload : Bytes) :
    (memberKeys S graph node slots payload).ncard =
      (verifyingMembers S graph node slots payload).length := by
  have hset : memberKeys S graph node slots payload =
      ((verifyingMembers S graph node slots payload).toFinset : Set V.KeyId) := by
    ext k
    rw [mem_memberKeys, Finset.mem_coe, List.mem_toFinset]
  rw [hset, Set.ncard_coe_finset,
    List.toFinset_card_of_nodup (nodup_verifyingMembers S graph node slots payload)]

theorem isGroupOf_iff :
    (node.bind fun n => n.kind.threshold) = some threshold ↔ IsGroupOf node threshold := by
  rw [Option.bind_eq_some_iff]
  constructor
  · rintro ⟨n, rfl, h⟩
    cases hk : n.kind with
    | thresholdGroup t members =>
      rw [hk] at h
      cases h
      exact ⟨n, members, rfl, hk⟩
    | _ =>
      rw [hk] at h
      cases h
  · rintro ⟨n, members, rfl, h⟩
    refine ⟨n, rfl, ?_⟩
    rw [h]
    rfl

theorem form_iff (graph : V.TrustGraph) (quorum : QuorumAttestation V) (statement : Bytes) :
    (verdict S graph quorum statement).form = .thresholdGroup ↔
      (verdict S graph quorum statement).groupVerified = true ∧
        IsGroupOf (S.graphNode graph quorum.quorum) quorum.threshold := by
  rw [← isGroupOf_iff]
  simp only [verdict]
  split
  · rename_i h
    simpa using h
  · rename_i h
    simpa using h

theorem verifyingMembers_length (h : slots ⊆ slots') :
    (verifyingMembers S graph node slots payload).length ≤
      (verifyingMembers S graph node slots' payload).length := by
  have hsub : verifyingMembers S graph node slots payload ⊆
      verifyingMembers S graph node slots' payload := by
    intro k hk
    obtain ⟨slot, hslot, hv⟩ := (mem_verifyingMembers S).1 hk
    exact (mem_verifyingMembers S).2 ⟨slot, h hslot, hv⟩
  exact ((nodup_verifyingMembers S graph node slots payload).subperm hsub).length_le

theorem groupVerified_mono (h : slots ⊆ slots')
    (hg : groupVerified S node slots payload = true) :
    groupVerified S node slots' payload = true := by
  rw [groupVerified_iff] at hg ⊢
  obtain ⟨n, hn, slot, hslot, hkey⟩ := hg
  exact ⟨n, hn, slot, h hslot, hkey⟩

theorem quorate_group_or_members (graph : V.TrustGraph) (quorum : QuorumAttestation V)
    (statement : Bytes) :
    (verdict S graph quorum statement).quorate = true ↔
      ((verdict S graph quorum statement).groupVerified = true ∧
        IsGroupOf (S.graphNode graph quorum.quorum) quorum.threshold) ∨
      quorum.threshold.toNat ≤ (verdict S graph quorum statement).memberVerified := by
  rw [← isGroupOf_iff]
  exact quorate_iff S graph quorum statement

theorem quorate_mono {q p : QuorumAttestation V} (hquorum : p.quorum = q.quorum)
    (hthreshold : p.threshold = q.threshold) (h : q.signatures ⊆ p.signatures)
    (hq : (verdict S graph q statement).quorate = true) :
    (verdict S graph p statement).quorate = true := by
  rw [quorate_group_or_members] at hq ⊢
  simp only [verdict, hquorum, hthreshold] at hq ⊢
  rcases hq with ⟨hg, ht⟩ | hle
  · exact .inl ⟨groupVerified_mono h hg, ht⟩
  · exact .inr (Nat.le_trans hle (verifyingMembers_length h))

/-- The verdict reads the slots as a set. -/
theorem verdict_congr {q q' : QuorumAttestation V} (hquorum : q'.quorum = q.quorum)
    (hthreshold : q'.threshold = q.threshold)
    (h : ∀ slot, slot ∈ q'.signatures ↔ slot ∈ q.signatures) :
    verdict S graph q' statement = verdict S graph q statement := by
  have hle : q.signatures ⊆ q'.signatures := fun slot hslot => (h slot).2 hslot
  have hge : q'.signatures ⊆ q.signatures := fun slot hslot => (h slot).1 hslot
  have hgroup (node : Option (DelegationNode V)) (payload : Bytes) :
      groupVerified S node q'.signatures payload = groupVerified S node q.signatures payload :=
    Bool.eq_iff_iff.2 ⟨groupVerified_mono hge, groupVerified_mono hle⟩
  have hmembers (node : Option (DelegationNode V)) (payload : Bytes) :
      (verifyingMembers S graph node q'.signatures payload).length =
        (verifyingMembers S graph node q.signatures payload).length :=
    Nat.le_antisymm (verifyingMembers_length hge) (verifyingMembers_length hle)
  simp only [verdict, hquorum, hthreshold, hgroup, hmembers]

theorem verifyingMembers_unregistered (node : Option (DelegationNode V))
    (slots : List (SignatureSlot V)) :
    (verifyingMembers S graph node (slots.filter fun s => (registeredOn node s.keyId).isNone)
      payload).length = (verifyingMembers S graph node slots payload).length := by
  rw [← ncard_memberKeys, ← ncard_memberKeys]
  congr 1
  ext k
  constructor
  · rintro ⟨hnone, key, hkey, slot, hslot, hv⟩
    exact ⟨hnone, key, hkey, slot, (List.mem_filter.1 hslot).1, hv⟩
  · rintro ⟨hnone, key, hkey, slot, hslot, rfl, hver⟩
    refine ⟨hnone, key, hkey, slot, List.mem_filter.2 ⟨hslot, ?_⟩, rfl, hver⟩
    rw [hnone]
    rfl

/-- The verdict over every attestation is its definition, in sets of keys; the order and the
repetition of slots do not enter it, more slots take no quorum away, and no key of the quorum node
counts as a member. -/
theorem verdict_definition (hS : S.Nodes) (graph : V.TrustGraph) (quorum : QuorumAttestation V)
    (statement : Bytes) :
    let node := S.graphNode graph quorum.quorum
    let payload := S.quorumBytes statement quorum.quorum quorum.threshold
    let v := verdict S graph quorum statement
    (v.groupVerified = true ↔ GroupSigned S node quorum.signatures payload) ∧
    v.memberVerified = (memberKeys S graph node quorum.signatures payload).ncard ∧
    (v.quorate = true ↔ (v.groupVerified = true ∧ IsGroupOf node quorum.threshold) ∨
      quorum.threshold.toNat ≤ v.memberVerified) ∧
    (v.form = .thresholdGroup ↔ v.groupVerified = true ∧ IsGroupOf node quorum.threshold) ∧
    (∀ slots, (∀ slot, slot ∈ slots ↔ slot ∈ quorum.signatures) →
      verdict S graph { quorum with signatures := slots } statement = v) ∧
    (∀ more, v.quorate = true → (verdict S graph
      { quorum with signatures := quorum.signatures ++ more } statement).quorate = true) ∧
    (verdict S graph { quorum with signatures := quorum.signatures.filter fun s =>
      (registeredOn node s.keyId).isNone } statement).memberVerified = v.memberVerified := by
  have happend (more : List (SignatureSlot V)) :
      quorum.signatures ⊆ quorum.signatures ++ more := List.subset_append_left _ more
  exact ⟨groupVerified_signed hS, (ncard_memberKeys _ _ _ _).symm,
    quorate_group_or_members graph quorum statement, form_iff graph quorum statement,
    fun slots h => verdict_congr rfl rfl h,
    fun more => quorate_mono (p := ⟨_, _, _⟩) rfl rfl (happend more),
    verifyingMembers_unregistered _ _⟩

open Reference

def pinnedGraph : Graph :=
  ⟨[⟨"group", .thresholdGroup 1 (Std.ExtTreeSet.ofList ["member"] compare), [⟨"g", [1]⟩]⟩,
    ⟨"member", .end, [⟨"k", [7]⟩]⟩], []⟩

def pinned : QuorumAttestation vocabulary :=
  let slot (id : String) (key : Bytes) : SignatureSlot vocabulary :=
    ⟨.ed25519, id, some (sign (signatif.quorumBytes [1] "group" 1) key)⟩
  ⟨"group", 1, [slot "k" [7], slot "g" [1], slot "k" [7]]⟩

theorem verdict_definition_pinned :
    (memberKeys signatif pinnedGraph (signatif.graphNode pinnedGraph "group") pinned.signatures
      (signatif.quorumBytes [1] "group" 1)).ncard = 1 := by
  have hcount := (verdict_definition reference_nodes pinnedGraph pinned [1]).2.1
  have hone : (verdict signatif pinnedGraph pinned [1]).memberVerified = 1 := by decide +kernel
  exact hcount.symm.trans hone

end UnidppTrust
