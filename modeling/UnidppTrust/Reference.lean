import UnidppTrust.JournalLines
import UnidppTrust.Http
import UnidppTrust.Nodes

namespace UnidppTrust.Reference
open Rust Json
set_option autoImplicit true

inductive Suite where
  | ed25519
  | ecdsaP256
  deriving DecidableEq

abbrev vocab (G L : Type) : Vocabulary where
  NodeId := String
  KeyId := String
  PassportId := String
  PublicKey := Bytes
  KeyPair := Suite × Bytes
  Suite := Suite
  Time := Int
  DelegationScope := String
  ScopeCondition := String
  TrustGraph := G
  RevocationLedger := L

def recastNode (n : DelegationNode (vocab G L)) : DelegationNode (vocab G' L') where
  id := n.id
  kind := match n.kind with
    | .root => .root
    | .delegated => .delegated
    | .end => .end
    | .thresholdGroup threshold members => .thresholdGroup threshold members
  keys := n.keys.map fun k => ⟨k.keyId, k.publicKey⟩

def recastSlot (s : SignatureSlot (vocab G L)) : SignatureSlot (vocab G' L') :=
  ⟨s.suite, s.keyId, s.signature⟩

def recastCredential (c : DelegationCredential (vocab G L)) :
    DelegationCredential (vocab G' L') :=
  ⟨c.parent, c.child, c.scope, c.signatures.map recastSlot⟩

def recastRevocation (r : Revocation (vocab G L)) : Revocation (vocab G' L') where
  subject := match r.subject with
    | .key k => .key k
    | .node n => .node n
    | .passport p => .passport p
    | .condition n c => .condition n c
  reason := match r.reason with
    | .keyCompromise after => .keyCompromise after
    | .cessation => .cessation
    | .supersession by_ => .supersession by_
    | .affiliationChange => .affiliationChange
    | .misissuance => .misissuance
    | .fraudulentIssuance => .fraudulentIssuance
    | .authorityCompromised detectedAt => .authorityCompromised detectedAt
    | .conditionWithdrawal => .conditionWithdrawal
  declaredAt := r.declaredAt
  declaredBy := r.declaredBy
  window := ⟨r.window.from_, r.window.to_⟩
  quorum := r.quorum.map fun q => ⟨q.quorum, q.threshold, q.signatures.map recastSlot⟩

structure Graph where
  nodes : List (DelegationNode (vocab Unit Unit))
  edges : List (DelegationCredential (vocab Unit Unit))

abbrev vocabulary : Vocabulary := vocab Graph (List (Revocation (vocab Unit Unit)))

def findNode (g : Graph) (id : String) : Option (DelegationNode vocabulary) :=
  (g.nodes.find? (·.id = id)).map recastNode

def setNode (id : String) (n : DelegationNode (vocab Unit Unit)) :
    List (DelegationNode (vocab Unit Unit)) → List (DelegationNode (vocab Unit Unit))
  | [] => []
  | x :: xs => if x.id = id then n :: xs else x :: setNode id n xs

def retroactive : RevocationReason V → Bool
  | .misissuance | .fraudulentIssuance | .authorityCompromised _ => true
  | _ => false

/-- A checksum in place of a signature. -/
def sign (payload key : Bytes) : Bytes := List.replicate 64 ((payload ++ key).foldl (· + ·) 0)

def suiteStr : Suite → String
  | .ed25519 => "Ed25519"
  | .ecdsaP256 => "ECDSA-P256"

def inWindow (i : Interval (vocab G L)) (t : Int) : Bool :=
  i.from_ ≤ t && i.to_.all (t ≤ ·)

def asText : Value → Except String String
  | .str s => .ok s
  | _ => .error "expected a string"

def register (n : DelegationNode vocabulary) (k : RegisteredKey vocabulary) :
    DelegationNode vocabulary :=
  if n.keys.any (·.keyId = k.keyId) then n else { n with keys := n.keys ++ [k] }

def signatif : Signatif vocabulary where
  nodeIdNew := .ok
  nodeIdStr := id
  nodeIdAsStr := id
  keyIdNew := .ok
  keyIdStr := id
  keyIdAsStr := id
  keyIdOf := hexEncode
  passportIdNew := .ok
  passportIdStr := id
  passportIdAsStr := id
  publicFromBytes := .ok
  publicBytes := id
  publicSuite k := if k.length = 32 then .ed25519 else .ecdsaP256
  suiteParseToken s := if s = "Ed25519" then .ok .ed25519
    else if s = "ECDSA-P256" then .ok .ecdsaP256
    else .error ("unknown suite `" ++ s ++ "`")
  suiteStr := suiteStr
  signatureLen _ := 64
  timeFromSecs := id
  timeSecs := id
  timeStr t := (Timestamp.mk t).toString
  intervalBetween f t := if t < f then .error "empty interval" else .ok ⟨f, some t⟩
  intervalStarting f := ⟨f, none⟩
  scopeToValue s := .ok (.str s)
  scopeFromValue := asText
  conditionToValue := .str
  conditionFromValue := asText
  conditionStr := id
  slotVerify s _ payload key := s.signature == some (sign payload key)
  quorumBytes statement quorum threshold := statement ++ bytes quorum ++ bytes (toString threshold)
  witnessBytes node at_ := bytes node ++ bytes (Timestamp.mk at_).toString
  statementBytes r := bytes r.reason.taxonomy ++ bytes r.declaredBy
  reasonToken := RevocationReason.taxonomy
  isRetroactive := retroactive
  subjectLabel
    | .key k => "key:" ++ k
    | .node n => "node:" ++ n
    | .passport p => "passport:" ++ p
    | .condition n c => "condition:" ++ n ++ ":" ++ c
  voids r t := inWindow r.window t
  nodeNew id kind := ⟨id, kind, []⟩
  nodeRegister := register
  nodeKey n k := (n.keys.find? (·.keyId = k)).map (·.publicKey)
  kindDebug
    | .root => "Root"
    | .delegated => "Delegated"
    | .end => "End"
    | .thresholdGroup threshold members => "ThresholdGroup(" ++ toString threshold ++ ", " ++
        String.join (members.toList.map (· ++ ", ")) ++ ")"
  graphNew := ⟨[], []⟩
  graphAddNode g n := if g.nodes.any (·.id = n.id) then g else ⟨g.nodes ++ [recastNode n], g.edges⟩
  graphNode := findNode
  graphSetNode g id n := ⟨setNode id (recastNode n) g.nodes, g.edges⟩
  graphNodes g := g.nodes.map recastNode
  graphEdges g := g.edges.map recastCredential
  graphNodeCount g := g.nodes.length
  graphEdgeCount g := g.edges.length
  graphAddEdge g c :=
    if (findNode g c.parent).isNone then (.error ("unknown node `" ++ c.parent ++ "`"), g)
    else if (findNode g c.child).isNone then (.error ("unknown node `" ++ c.child ++ "`"), g)
    else (.ok (), ⟨g.nodes, g.edges ++ [recastCredential c]⟩)
  directoryResolve g k := (g.nodes.flatMap (·.keys)).find? (·.keyId = k) |>.map (·.publicKey)
  trustListNew j := ⟨j, ∅⟩
  inForceAt e t := e.notBefore ≤ t && e.supersededAt.all (t < ·)
  masterNew m ws := ⟨m, UInt64.ofNat ws.size, ws, ∅⟩
  masterUpsert m e := { m with entries := m.entries.insert e.node e }
  ledgerNew := []
  ledgerDeclare l r :=
    if retroactive r.reason && r.quorum.isNone then (.error "quorum attestation required", l)
    else (.ok (), l ++ [recastRevocation r])
  ledgerRevocations l := l.map recastRevocation

def publicOf (k : Suite × Bytes) : Bytes :=
  match k.1 with
  | .ed25519 => (k.2 ++ List.replicate 32 0).take 32
  | .ecdsaP256 => (k.2 ++ List.replicate 33 0).take 33

def slotOf (payload : Bytes) (k : Suite × Bytes) : SignatureSlot vocabulary :=
  ⟨k.1, hexEncode (publicOf k), some (sign payload (publicOf k))⟩

def fixtures : Fixtures vocabulary where
  ed25519 := .ed25519
  ecdsaP256 := .ecdsaP256
  keyPairSeeded suite seed := .ok (suite, seed)
  keyPairPublic := publicOf
  keyPairKeyId k := hexEncode (publicOf k)
  registeredKeyOf k := ⟨hexEncode (publicOf k), publicOf k⟩
  scopeUnconstrained := ""
  scopeAuthority s xs := String.join (s :: " authority:" :: xs)
  scopeProfileVersion s xs := String.join (s :: " profile:" :: xs)
  scopeProductGroup s xs := String.join (s :: " product:" :: xs)
  scopeWithin s i := s ++ " from:" ++ (Timestamp.mk i.from_).toString
  credentialMintSign p c s k := .ok ⟨p, c, s, [slotOf (bytes (p ++ c ++ s)) k]⟩
  credentialCoSign c k := .ok { c with
    signatures := c.signatures ++ [slotOf (bytes (c.parent ++ c.child ++ c.scope)) k] }
  trustListTrust l n t := { l with entries := l.entries.insert n ⟨n, t, none⟩ }
  witnessMintSign w n t k := .ok ⟨w, t, slotOf (signatif.witnessBytes n t) k⟩
  quorumMintSign q m b ks := .ok ⟨q, m, ks.map (slotOf (signatif.quorumBytes b q m))⟩

def crates : Crates vocabulary := ⟨signatif, Serde.reference, fixtures⟩

def app : App vocabulary := ⟨crates, none, .object [], [], "", fun _ => []⟩

@[simp] theorem app_crates : app.crates = crates := rfl

@[simp] theorem crates_signatif : crates.signatif = signatif := rfl

theorem reference_nodes : signatif.Nodes where
  new _ _ := rfl
  register _ _ := rfl
  key _ _ := rfl
  keyIdAsStr _ _ h := h

/-- Nothing is lost between graphs of different makes. -/
theorem recast_revocation (r : Revocation (vocab G L)) :
    recastRevocation (recastRevocation r : Revocation (vocab G' L')) = r := by
  obtain ⟨subject, reason, declaredAt, declaredBy, window, quorum⟩ := r
  have hslots : ∀ slots : List (SignatureSlot (vocab G L)),
      (slots.map recastSlot : List (SignatureSlot (vocab G' L'))).map recastSlot = slots := by
    intro slots
    rw [List.map_map]
    exact List.map_id' slots
  cases subject <;> cases reason <;> cases quorum <;>
    simp only [recastRevocation, Option.map_none, Option.map_some, hslots]

theorem recast_node (n : DelegationNode (vocab G L)) :
    recastNode (recastNode n : DelegationNode (vocab G' L')) = n := by
  obtain ⟨id, kind, keys⟩ := n
  have hkeys : (keys.map fun k => (⟨k.keyId, k.publicKey⟩ : RegisteredKey (vocab G' L'))).map
      (fun k => (⟨k.keyId, k.publicKey⟩ : RegisteredKey (vocab G L))) = keys := by
    rw [List.map_map]
    exact List.map_id' keys
  cases kind <;> simp only [recastNode, hkeys]

theorem setNode_self {id : String} {xs : List (DelegationNode (vocab Unit Unit))}
    (h : xs.find? (·.id = id) = some x) : setNode id x xs = xs := by
  induction xs with
  | nil => cases h
  | cons y ys ih =>
    rw [List.find?_cons] at h
    rw [setNode]
    by_cases hy : y.id = id
    · rw [decide_eq_true hy] at h
      cases h
      rw [if_pos hy]
    · rw [decide_eq_false hy] at h
      rw [if_neg hy, ih h]

theorem find?_setNode {xs : List (DelegationNode (vocab Unit Unit))}
    {n : DelegationNode (vocab Unit Unit)} (hn : n.id = key)
    (h : (xs.find? (·.id = key)).isSome) (id : String) :
    (setNode key n xs).find? (·.id = id) = if id = key then some n else xs.find? (·.id = id) := by
  induction xs with
  | nil => cases h
  | cons y ys ih =>
    rw [List.find?_cons] at h
    rw [setNode]
    by_cases hy : y.id = key
    · rw [if_pos hy, List.find?_cons, List.find?_cons, hn, hy]
      by_cases hid : id = key
      · rw [if_pos hid, decide_eq_true hid.symm]
      · rw [if_neg hid, decide_eq_false (Ne.symm hid)]
    · rw [decide_eq_false hy] at h
      rw [if_neg hy, List.find?_cons, List.find?_cons, ih h]
      by_cases hid : id = key
      · rw [if_pos hid, if_pos hid, hid, decide_eq_false hy]
      · rw [if_neg hid, if_neg hid]

theorem reference_graphNode (g : Graph) (id : String) :
    signatif.graphNode g id = (g.nodes.find? (·.id = id)).map recastNode := rfl

theorem reference_graphs : signatif.Graphs where
  new _ := rfl
  present g n h := by
    obtain ⟨x, hx⟩ := List.find?_isSome.1 (Option.isSome_map.symm.trans h)
    exact if_pos (List.any_eq_true.2 ⟨x, hx⟩)
  absent g n id h := by
    have hnone := Option.map_eq_none_iff.1 h
    have hadd : signatif.graphAddNode g n = ⟨g.nodes ++ [recastNode n], g.edges⟩ := by
      apply if_neg
      intro hany
      obtain ⟨x, hx, hxn⟩ := List.any_eq_true.1 hany
      exact List.find?_eq_none.1 hnone x hx hxn
    rw [hadd, reference_graphNode, reference_graphNode, List.find?_append]
    by_cases hid : id = n.id
    · subst hid
      have hlast : [(recastNode n : DelegationNode (vocab Unit Unit))].find? (·.id = n.id) =
          some (recastNode n) := List.find?_cons_of_pos (decide_eq_true rfl)
      rw [if_pos rfl, hnone, Option.none_or, hlast, Option.map_some, recast_node]
    · have hlast :
          [(recastNode n : DelegationNode (vocab Unit Unit))].find? (·.id = id) = none := by
        apply List.find?_eq_none.2
        intro x hx heq
        rw [List.mem_singleton.1 hx] at heq
        exact hid (of_decide_eq_true heq).symm
      rw [if_neg hid, hlast, Option.or_none]
  set g key n id h hid := by
    have hfind := find?_setNode (n := recastNode n) hid (Option.isSome_map.symm.trans h) id
    refine (congrArg (Option.map recastNode) hfind).trans ?_
    by_cases hkey : id = key
    · rw [if_pos hkey, if_pos hkey, Option.map_some, recast_node]
    · rw [if_neg hkey, if_neg hkey]
      rfl
  same g id n h := by
    obtain ⟨x, hx, rfl⟩ := Option.map_eq_some_iff.1 h
    have hset : setNode id (recastNode (recastNode x : DelegationNode vocabulary)) g.nodes =
        g.nodes := by
      rw [recast_node, setNode_self hx]
    exact congrArg (Graph.mk · g.edges) hset
  edge g c id := by
    simp only [signatif]
    split
    · rfl
    · split
      · rfl
      · rfl

theorem signatif_lawful : signatif.Lawful fun _ => True where
  nodeId _ := rfl
  keyId _ := rfl
  passportId _ := rfl
  publicKey _ := rfl
  suite s := by cases s <;> rfl
  timeSecs _ _ := rfl
  timeMono _ _ h := h
  timeStr t h := Timestamp.parse_toString t h
  between f t i h := by
    simp only [signatif] at h
    split at h
    · cases h
    · cases h; rfl
  starting _ := rfl
  scope x := ⟨.str x, rfl, trivial, rfl⟩
  condition _ := ⟨trivial, rfl⟩
  token _ := rfl
  rebuild := nodes_rebuild reference_nodes

theorem framed_slotOf (payload : Bytes) (k : Suite × Bytes) :
    (slotOf payload k).Framed signatif := by
  intro s hs
  cases hs
  exact List.length_replicate

theorem fixtures_lawful : fixtures.Lawful signatif where
  registered _ := rfl
  minted p c x k e h := by
    cases h
    intro s hs
    rw [List.mem_singleton.1 hs]
    exact framed_slotOf _ _
  coSigned c k e h hc := by
    cases h
    intro s hs
    rcases List.mem_append.1 hs with hs | hs
    · exact hc s hs
    · rw [List.mem_singleton.1 hs]
      exact framed_slotOf _ _
  trusted j n t e he := by
    obtain ⟨m, e⟩ := e
    simp only [fixtures, signatif, Std.ExtTreeMap.mem_toList_iff_getElem?_eq_some,
      Std.ExtTreeMap.getElem?_insert, Std.ExtTreeMap.getElem?_empty] at he
    split at he
    · cases he
      exact ⟨rfl, rfl⟩
    · cases he
  witnessed w n t k a h := by
    cases h
    exact ⟨rfl, framed_slotOf _ _⟩
  attested n m b ks q h := by
    cases h
    intro s hs
    obtain ⟨k, -, rfl⟩ := List.mem_map.1 hs
    exact framed_slotOf _ _

theorem crates_lawful : crates.Lawful where
  json := Serde.reference_lawful
  signatif := signatif_lawful
  fixtures := fixtures_lawful

theorem reference_ledger : signatif.Ledger where
  new := rfl
  declared l r h := by
    simp only [signatif] at h ⊢
    split at h
    · cases h
    · rename_i hr
      rw [if_neg hr, List.map_append, List.map_singleton, recast_revocation]

theorem reference_lists : signatif.Lists where
  jurisdiction _ := rfl
  entries _ := rfl

def noon (_ : Nat) : Tick := ⟨⟨43200⟩, true⟩

theorem noon_inYears (i : Nat) : (noon i).now.InYears ∧ (noon i).written = true := by
  have h : (Timestamp.mk 43200).InYears := by
    rw [Timestamp.InYears]
    decide
  exact ⟨h, rfl⟩

end UnidppTrust.Reference
