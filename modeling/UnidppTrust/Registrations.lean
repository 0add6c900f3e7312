import UnidppTrust.Accepted
import UnidppTrust.Reference

namespace UnidppTrust
open Rust Json KeyedUnion
set_option autoImplicit true

variable {V : Vocabulary} {S : Signatif V}

def Op.nodeUnder (id : V.NodeId) : Op V → Option (DelegationNode V)
  | .registerNode n => if n.id = id then some n else none
  | _ => none

def nodeRegistrations (id : V.NodeId) (ops : List (Op V)) : List (DelegationNode V) :=
  ops.filterMap (Op.nodeUnder id)

def merged (x : Option (DelegationNode V)) (node : DelegationNode V) : Option (DelegationNode V) :=
  some (mergeNode (x.getD node) node)

def State.Filed (S : Signatif V) (s : State V) : Prop :=
  ∀ id n, S.graphNode s.graph id = some n → n.id = id

theorem graphNode_applyOp (hG : S.Graphs) {s : State V} (h : s.Filed S) (op : Op V)
    (id : V.NodeId) :
    match op.nodeUnder id with
    | some node => node.id = id ∧
        S.graphNode (applyOp S s op).2.graph id = merged (S.graphNode s.graph id) node
    | none => S.graphNode (applyOp S s op).2.graph id = S.graphNode s.graph id := by
  cases op with
  | registerNode node =>
    have hnode := graphNode_applyRegisterNode hG (h node.id) id
    rw [Op.nodeUnder]
    by_cases hid : node.id = id
    · subst hid
      rw [if_pos rfl] at hnode ⊢
      exact ⟨rfl, hnode⟩
    · rw [if_neg (Ne.symm hid)] at hnode
      rw [if_neg hid]
      exact hnode
  | addEdge credential => exact hG.edge s.graph credential id
  | _ => exact congrArg (S.graphNode · id) ((applyOp_sameBut S s _).graph fun h => by cases h)

theorem applyOp_filed (hG : S.Graphs) {s : State V} (h : s.Filed S) (op : Op V) :
    (applyOp S s op).2.Filed S := by
  intro id n hn
  have hop := graphNode_applyOp hG h op id
  cases hr : op.nodeUnder id with
  | none =>
    rw [hr] at hop
    dsimp only at hop
    rw [hop] at hn
    exact h id n hn
  | some node =>
    rw [hr] at hop
    obtain ⟨hid, hop⟩ := hop
    rw [hop, merged, Option.some_inj, mergeNode_eq] at hn
    subst hn
    cases hx : S.graphNode s.graph id with
    | none => exact hid
    | some x => exact h id x hx

theorem filed_initial {C : Crates V} (hG : C.signatif.Graphs) :
    (State.initial C).Filed C.signatif := by
  intro id n hn
  rw [State.initial, hG.new] at hn
  cases hn

theorem held_filed {C : Crates V} (hG : C.signatif.Graphs) {s : Store V} (h : s.Held C) :
    s.toState.Filed C.signatif :=
  held_keeps (filed_initial hG) (fun _ op hs => applyOp_filed hG hs op) h

theorem graphNode_applyAll (hG : S.Graphs) {s : State V} (h : s.Filed S) (ops : List (Op V)) :
    (s.applyAll S ops).Filed S ∧ ∀ id, S.graphNode (s.applyAll S ops).graph id =
      (nodeRegistrations id ops).foldl merged (S.graphNode s.graph id) := by
  induction ops generalizing s with
  | nil => exact ⟨h, fun _ => rfl⟩
  | cons op ops ih =>
    obtain ⟨hfiled, hnode⟩ := ih (applyOp_filed hG h op)
    refine ⟨hfiled, fun id => (hnode id).trans ?_⟩
    have hop := graphNode_applyOp hG h op id
    rw [nodeRegistrations, nodeRegistrations, List.filterMap_cons]
    cases hr : op.nodeUnder id with
    | none =>
      rw [hr] at hop
      dsimp only at hop ⊢
      rw [hop]
    | some node =>
      rw [hr] at hop
      rw [hop.2]
      rfl

/-- The registrations of an id, merged: the last kind, and the keys of all of them. -/
theorem foldl_merged {id : V.NodeId} (regs : List (DelegationNode V))
    (h : ∀ n ∈ regs, n.id = id ∧ n.Sound S) :
    regs.foldl merged none = regs.getLast?.map fun last =>
      ⟨id, last.kind, firsts (·.keyId) (regs.flatMap (·.keys))⟩ := by
  induction regs using List.reverseRecOn with
  | nil => rfl
  | append_singleton regs node ih =>
    have hregs := fun n hn => h n (List.mem_append_left [node] hn)
    obtain ⟨hid, hsound⟩ := h node List.mem_concat_self
    rw [List.foldl_append, ih hregs, List.getLast?_concat, List.flatMap_append, firsts_append,
      List.flatMap_singleton, List.foldl_cons, List.foldl_nil, merged, mergeNode_eq]
    cases hlast : regs.getLast? with
    | none =>
      rw [List.getLast?_eq_none_iff] at hlast
      subst hlast
      have htwice : union (·.keyId) node.keys node.keys = node.keys :=
        union_eq_self fun k hk => ⟨k, hk, rfl⟩
      have honce : union (·.keyId) (firsts (·.keyId) []) node.keys = node.keys :=
        (union_nil _).trans (firsts_eq_self hsound.distinct)
      rw [Option.map_none, Option.getD_none, htwice, hid, List.flatMap_nil, Option.map_some, honce]
    | some last => rfl

theorem merged_keys (x node : DelegationNode V) :
    ∃ y, merged (some x) node = some y ∧ x.keys <+: y.keys :=
  ⟨_, rfl, prefix_union x.keys node.keys⟩

theorem foldl_merged_keys (x : DelegationNode V) (regs : List (DelegationNode V)) :
    ∃ y, regs.foldl merged (some x) = some y ∧ x.keys <+: y.keys := by
  induction regs generalizing x with
  | nil => exact ⟨x, rfl, List.prefix_rfl⟩
  | cons node regs ih =>
    obtain ⟨y, hy, hxy⟩ := merged_keys x node
    obtain ⟨z, hz, hyz⟩ := ih y
    exact ⟨z, by rw [List.foldl_cons, hy, hz], hxy.trans hyz⟩

/-- A key id found among some keys is found there when keys are appended. -/
theorem nodeKey_of_prefix (hN : S.Nodes) {x y : DelegationNode V} (h : x.keys <+: y.keys)
    (hkey : S.nodeKey x keyId = some key) : S.nodeKey y keyId = some key := by
  obtain ⟨ks, hks⟩ := h
  rw [hN.key] at hkey ⊢
  obtain ⟨k, hk, rfl⟩ := Option.map_eq_some_iff.1 hkey
  rw [← hks, List.find?_append, hk]
  rfl

theorem nodeRegistrations_acceptedOp (s : Store V) (c : Op V × Tick) (id : V.NodeId) :
    nodeRegistrations id (s.acceptedOp S c) = nodeRegistrations id [c.1] := by
  obtain ⟨op, t⟩ := c
  have hother (h : op.nodeUnder id = none) :
      nodeRegistrations id (s.acceptedOp S (op, t)) = nodeRegistrations id [op] := by
    rcases mutate_accepted (S := S) s (op, t) with ⟨hop, -⟩ | ⟨hop, -⟩
    · rw [hop, nodeRegistrations, nodeRegistrations, List.filterMap_cons, h]
    · rw [hop]
  cases op with
  | registerNode node => rfl
  | _ => exact hother rfl

theorem nodeRegistrations_accepted (s : Store V) (calls : List (Op V × Tick)) (id : V.NodeId) :
    nodeRegistrations id (s.accepted S calls) = nodeRegistrations id (calls.map (·.1)) := by
  induction calls generalizing s with
  | nil => rfl
  | cons c cs ih =>
    have hhead := nodeRegistrations_acceptedOp (S := S) s c id
    have htail := ih (s.mutate S c.2 c.1).2
    rw [nodeRegistrations] at hhead htail
    rw [nodeRegistrations, Store.accepted, List.filterMap_append, hhead, htail, nodeRegistrations,
      nodeRegistrations, ← List.filterMap_append]
    rfl

theorem graphNode_mutateAll {C : Crates V} (hG : C.signatif.Graphs) (calls : List (Op V × Tick)) :
    let s := (Store.empty C).mutateAll C.signatif calls
    s.Filed C.signatif ∧ ∀ id, C.signatif.graphNode s.graph id =
      (nodeRegistrations id (calls.map (·.1))).foldl merged none := by
  intro s
  have hempty : (Store.empty C).Filed C.signatif := filed_initial hG
  obtain ⟨hfiled, hnode⟩ := graphNode_applyAll hG hempty
    ((Store.empty C).accepted C.signatif calls)
  obtain ⟨-, hstate⟩ := mutateAll_accepted (S := C.signatif) (Store.empty C) calls
  rw [← hstate] at hfiled hnode
  refine ⟨hfiled, fun id => (hnode id).trans ?_⟩
  rw [nodeRegistrations_accepted, Store.empty, State.initial, hG.new]

theorem nodeRegistrations_sound (hN : S.Nodes) {calls : List (Op V × Tick)}
    (hdecoded : ∀ c ∈ calls, ∀ n, c.1 = .registerNode n → ∃ v, nodeFromValue S v = .ok n)
    (id : V.NodeId) : ∀ n ∈ nodeRegistrations id (calls.map (·.1)), n.id = id ∧ n.Sound S := by
  intro n hn
  obtain ⟨op, hop, hreg⟩ := List.mem_filterMap.1 hn
  obtain ⟨c, hc, rfl⟩ := List.mem_map.1 hop
  cases hop' : c.1 with
  | registerNode m =>
    rw [hop', Op.nodeUnder] at hreg
    split at hreg
    · rename_i hid
      cases hreg
      obtain ⟨v, hv⟩ := hdecoded c hc n hop'
      exact ⟨hid, sound_nodeFromValue hN hv⟩
    · cases hreg
  | _ => rw [hop'] at hreg; cases hreg

/-- What the registrations of an id make of no node: the node of the last kind with all keys. -/
theorem graphNode_registered {C : Crates V} (hN : C.signatif.Nodes) (hG : C.signatif.Graphs)
    {calls : List (Op V × Tick)} (hdecoded : ∀ c ∈ calls, ∀ n, c.1 = .registerNode n →
      ∃ v, nodeFromValue C.signatif v = .ok n) (id : V.NodeId) :
    C.signatif.graphNode ((Store.empty C).mutateAll C.signatif calls).graph id =
      (nodeRegistrations id (calls.map (·.1))).getLast?.map fun last => ⟨id, last.kind,
        firsts (·.keyId) ((nodeRegistrations id (calls.map (·.1))).flatMap (·.keys))⟩ :=
  ((graphNode_mutateAll hG calls).2 id).trans
    (foldl_merged _ (nodeRegistrations_sound hN hdecoded id))

theorem sound_registered {C : Crates V} (hN : C.signatif.Nodes) (hG : C.signatif.Graphs)
    {calls : List (Op V × Tick)} (hdecoded : ∀ c ∈ calls, ∀ n, c.1 = .registerNode n →
      ∃ v, nodeFromValue C.signatif v = .ok n) {id : V.NodeId} {n : DelegationNode V}
    (hn : C.signatif.graphNode ((Store.empty C).mutateAll C.signatif calls).graph id = some n) :
    n.Sound C.signatif := by
  rw [graphNode_registered hN hG hdecoded] at hn
  obtain ⟨last, -, rfl⟩ := Option.map_eq_some_iff.1 hn
  refine ⟨nodup_firsts _, ?_⟩
  intro k hk
  obtain ⟨m, hm, hkm⟩ := List.mem_flatMap.1 ((firsts_sublist _).subset hk)
  exact (nodeRegistrations_sound hN hdecoded id m hm).2.named k hkm

theorem publicKey_of_keyId {n n' : DelegationNode V} (hn : n.Sound S) (hn' : n'.Sound S)
    {k k' : RegisteredKey V} (hk : k ∈ n.keys) (hk' : k' ∈ n'.keys) :
    (k.keyId ≠ k'.keyId → k.publicKey ≠ k'.publicKey) ∧
      (Function.Injective S.keyIdOf → k.keyId = k'.keyId → k.publicKey = k'.publicKey) := by
  rw [hn.named k hk, hn'.named k' hk']
  constructor
  · intro hne heq
    exact hne (congrArg S.keyIdOf heq)
  · intro hinjective heq
    exact hinjective heq

theorem nodeKey_mutateAll (hN : S.Nodes) (hG : S.Graphs) {s : Store V} (hs : s.Filed S)
    (calls : List (Op V × Tick)) {id : V.NodeId} (hn : S.graphNode s.graph id = some n)
    (hkey : S.nodeKey n keyId = some key) :
    ∃ n', S.graphNode (s.mutateAll S calls).graph id = some n' ∧ S.nodeKey n' keyId = some key := by
  obtain ⟨-, hstate⟩ := mutateAll_accepted (S := S) s calls
  obtain ⟨n', hn', hprefix⟩ := foldl_merged_keys n (nodeRegistrations id (s.accepted S calls))
  refine ⟨n', ?_, nodeKey_of_prefix hN hprefix hkey⟩
  rw [hstate, (graphNode_applyAll hG hs _).2, hn]
  exact hn'

/-- After any run from the empty store a node is in the graph if and only if it was registered, with
the kind of its last registration and the keys of all of them, each under the id of its bytes;
whatever follows, a key id resolves to the key it did, and a registration made twice changes what
it changed the first time. -/
theorem node_registration_union (C : Crates V) (hN : C.signatif.Nodes) (hG : C.signatif.Graphs)
    (calls : List (Op V × Tick))
    (hdecoded : ∀ c ∈ calls, ∀ n, c.1 = .registerNode n →
      ∃ v, nodeFromValue C.signatif v = .ok n) :
    let S := C.signatif
    let s := (Store.empty C).mutateAll S calls
    let registered := fun id => nodeRegistrations id (calls.map (·.1))
    (∀ id, ((S.graphNode s.graph id).isSome ↔ registered id ≠ []) ∧
      S.graphNode s.graph id = (registered id).getLast?.map fun last =>
        ⟨id, last.kind, firsts (·.keyId) ((registered id).flatMap (·.keys))⟩) ∧
    (∀ id n, S.graphNode s.graph id = some n → (n.keys.map (·.keyId)).Nodup ∧ ∀ k ∈ n.keys,
      k.keyId = S.keyIdOf k.publicKey ∧
      ∀ id' n', S.graphNode s.graph id' = some n' → ∀ k' ∈ n'.keys,
        (k.keyId ≠ k'.keyId → k.publicKey ≠ k'.publicKey) ∧
        (Function.Injective S.keyIdOf → k.keyId = k'.keyId → k.publicKey = k'.publicKey)) ∧
    (∀ id n keyId key more, S.graphNode s.graph id = some n → S.nodeKey n keyId = some key →
      ∃ n', S.graphNode (s.mutateAll S more).graph id = some n' ∧
        S.nodeKey n' keyId = some key) ∧
    ∀ n t t', let once := (s.mutate S t (.registerNode n)).2
      (once.mutate S t' (.registerNode n)).2.graph = once.graph := by
  intro S s registered
  have hregistered := graphNode_registered hN hG hdecoded
  obtain ⟨hfiled, -⟩ := graphNode_mutateAll hG calls
  refine ⟨?_, ?_, ?_, ?_⟩
  · intro id
    refine ⟨?_, hregistered id⟩
    rw [hregistered id, Option.isSome_map]
    exact List.getLast?_isSome
  · intro id n hn
    have hsound := sound_registered hN hG hdecoded hn
    refine ⟨hsound.distinct, ?_⟩
    intro k hk
    refine ⟨hsound.named k hk, ?_⟩
    intro id' n' hn' k' hk'
    exact publicKey_of_keyId hsound (sound_registered hN hG hdecoded hn') hk hk'
  · intro id n keyId key more hn hkey
    exact nodeKey_mutateAll hN hG hfiled more hn hkey
  · intro n t t'
    exact applyRegisterNode_twice hG (hfiled n.id)

open Reference

def rootA : DelegationNode vocabulary :=
  ⟨"node-a", .root, [⟨"aa", [0xaa]⟩, ⟨"bb", [0xbb]⟩]⟩

def delegatedA : DelegationNode vocabulary :=
  ⟨"node-a", .delegated, [⟨"cc", [0xcc]⟩, ⟨"bb", [0xbb]⟩]⟩

def nodeJson (kind : String) (hexes : List String) : Value :=
  .object [("id", .str "node-a"), ("kind", .str kind), ("keys", .arr (hexes.map fun hex =>
    .object [("key_id", .str hex), ("suite", .str "ECDSA-P256"), ("public", .str hex)]))]

def overlapping : List (Op vocabulary × Tick) :=
  [(.registerNode rootA, noon 0), (.registerNode delegatedA, noon 1)]

theorem overlapping_decodable (hc : c ∈ overlapping) : c.1.Decodable signatif := by
  rcases List.mem_pair.1 hc with rfl | rfl
  · exact ⟨nodeJson "root" ["aa", "bb"], rfl⟩
  · exact ⟨nodeJson "delegated" ["cc", "bb"], rfl⟩

theorem node_registration_union_overlapping :
    signatif.graphNode ((Store.empty crates).mutateAll signatif overlapping).graph "node-a" =
      some ⟨"node-a", .delegated, [⟨"aa", [0xaa]⟩, ⟨"bb", [0xbb]⟩, ⟨"cc", [0xcc]⟩]⟩ := by
  have hdecoded : ∀ c ∈ overlapping, ∀ n, c.1 = .registerNode n →
      ∃ v, nodeFromValue signatif v = .ok n := by
    intro c hc n hn
    have hdecodable := overlapping_decodable hc
    rw [hn] at hdecodable
    exact hdecodable
  obtain ⟨hnodes, -⟩ := node_registration_union crates reference_nodes reference_graphs overlapping
    hdecoded
  exact (hnodes "node-a").2

end UnidppTrust
