import UnidppTrust.KeyedUnion
import UnidppTrust.WireForms
import UnidppTrust.Store

namespace UnidppTrust
open Rust Json KeyedUnion
set_option autoImplicit true

variable {V : Vocabulary} {S : Signatif V}

theorem foldl_nodeRegister (hN : S.Nodes) (n : DelegationNode V) (ks : List (RegisteredKey V)) :
    ks.foldl S.nodeRegister n = ⟨n.id, n.kind, union (·.keyId) n.keys ks⟩ := by
  induction ks generalizing n with
  | nil => rfl
  | cons k ks ih =>
    rw [List.foldl_cons, ih, hN.register, union, union, List.foldl_cons, add]
    split <;> rfl

theorem foldl_nodeNew (hN : S.Nodes) (id : V.NodeId) (kind : NodeKind V)
    (ks : List (RegisteredKey V)) :
    List.foldl S.nodeRegister (S.nodeNew id kind) ks = ⟨id, kind, firsts (·.keyId) ks⟩ := by
  rw [foldl_nodeRegister hN, hN.new, union_nil]

theorem nodes_rebuild (hN : S.Nodes) (id : V.NodeId) (kind : NodeKind V)
    (ks : List (RegisteredKey V)) :
    let n := List.foldl S.nodeRegister (S.nodeNew id kind) ks
    n.id = id ∧ n.kind = kind ∧ (∀ k ∈ n.keys, k ∈ ks) ∧
      n.keys.foldl S.nodeRegister (S.nodeNew id kind) = n := by
  intro n
  have hn : n = ⟨id, kind, firsts (·.keyId) ks⟩ := foldl_nodeNew hN id kind ks
  rw [hn]
  refine ⟨rfl, rfl, fun k hk => (firsts_sublist ks).subset hk, ?_⟩
  rw [foldl_nodeNew hN, firsts_eq_self (nodup_firsts ks)]

/-- Merging keeps the keys that are there and adds the ones with new ids. -/
theorem mergeNode_eq (existing node : DelegationNode V) :
    mergeNode existing node =
      ⟨existing.id, node.kind, union (·.keyId) existing.keys node.keys⟩ := rfl

theorem mergeNode_twice (existing node : DelegationNode V) :
    mergeNode (mergeNode existing node) node = mergeNode existing node := by
  rw [mergeNode_eq, mergeNode_eq, union_twice]

/-- Each key of a node has an id of its own, that of its bytes. -/
structure DelegationNode.Sound (S : Signatif V) (n : DelegationNode V) : Prop where
  distinct : (n.keys.map (·.keyId)).Nodup
  named : ∀ k ∈ n.keys, k.keyId = S.keyIdOf k.publicKey

theorem sound_nodeFromValue (hN : S.Nodes) (h : nodeFromValue S v = .ok n) : n.Sound S := by
  obtain ⟨id, kind, ks, hmatches, rfl⟩ := nodeFromValue_foldl h
  rw [foldl_nodeNew hN]
  refine ⟨nodup_firsts ks, fun k hk => hN.keyIdAsStr ?_⟩
  exact hmatches k ((firsts_sublist ks).subset hk)

theorem graphNode_applyRegisterNode (hG : S.Graphs) {s : State V} {node : DelegationNode V}
    (hid : ∀ n, S.graphNode s.graph node.id = some n → n.id = node.id) (id : V.NodeId) :
    S.graphNode (applyRegisterNode S s node).graph id =
      if id = node.id then some (mergeNode ((S.graphNode s.graph node.id).getD node) node)
      else S.graphNode s.graph id := by
  rw [applyRegisterNode]
  cases hn : S.graphNode s.graph node.id with
  | none =>
    have hadd := fun id => hG.absent s.graph node id hn
    have hself : S.graphNode (S.graphAddNode s.graph node) node.id = some node := by
      rw [hadd, if_pos rfl]
    simp only [hself]
    rw [hG.set _ node.id (mergeNode node node) _ (by rw [hself]; rfl) rfl, hadd, Option.getD_none]
    by_cases h : id = node.id
    · rw [if_pos h, if_pos h]
    · rw [if_neg h, if_neg h, if_neg h]
  | some n =>
    have hadd : S.graphAddNode s.graph node = s.graph := hG.present _ _ (by rw [hn]; rfl)
    simp only [hadd, hn]
    exact hG.set _ _ (mergeNode n node) _ (by rw [hn]; rfl) (hid n hn)

theorem applyRegisterNode_twice (hG : S.Graphs) {s : State V} {node : DelegationNode V}
    (hid : ∀ n, S.graphNode s.graph node.id = some n → n.id = node.id) :
    (applyRegisterNode S (applyRegisterNode S s node) node).graph =
      (applyRegisterNode S s node).graph := by
  have hnode := graphNode_applyRegisterNode hG hid node.id
  rw [if_pos rfl] at hnode
  have hadd := hG.present (applyRegisterNode S s node).graph node (by rw [hnode]; rfl)
  rw [applyRegisterNode, hadd]
  simp only [hnode, mergeNode_twice]
  exact hG.same _ _ _ hnode

end UnidppTrust
