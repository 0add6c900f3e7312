import UnidppTrust.Ceremony
import UnidppTrust.Registrations
import UnidppTrust.JournalLines

namespace UnidppTrust
open Rust Json KeyedUnion Ceremony
set_option autoImplicit true

variable {V : Vocabulary} {S : Signatif V} {C : Crates V} {K : Confium V}

/-- What the two programs rely on: a ceremony's self-check is a check of its slot under the group
key, a slot has the length of its suite, a statement does not depend on its attestation, a ledger
only refuses a retroactive declaration without one, and printed JSON reads back. -/
structure Ceremony.Confium.Sound (K : Confium V) (C : Crates V) : Prop where
  checked : ∀ shared session ceremony aggregated statement groupKey raw key,
    K.aggregate shared session = (.ok aggregated, ceremony) →
    K.verify aggregated statement = .ok () → K.group ceremony session = .ok groupKey →
    hexDecode groupKey.groupPublic = .ok raw → C.signatif.publicFromBytes raw = .ok key →
    C.signatif.slotVerify (K.toSlot aggregated) .quorum statement.payload key = true ∧
      (K.toSlot aggregated).keyId = C.signatif.keyIdOf key
  framed : ∀ aggregated, (K.toSlot aggregated).Framed C.signatif
  statement : ∀ r q, C.signatif.statementBytes { r with quorum := q } =
    C.signatif.statementBytes r
  declared : ∀ l r, (C.signatif.isRetroactive r.reason = true → r.quorum ≠ none) →
    (C.signatif.ledgerDeclare l r).1 = .ok ()
  pretty : ∀ v : Value, v.Canonical C.json.printed 127 → C.json.fromStr v.toStringPretty = .ok v

theorem options_revocation (hS : S.Lawful P) {o : Options} (h : o.revocation S = .ok r) :
    r.window.Bounded S ∧ r.Instants (FromClock S) := by
  obtain ⟨subject, -, h⟩ := bind_eq_ok h
  obtain ⟨reason, hreason, h⟩ := bind_eq_ok h
  obtain ⟨-, h⟩ := check_eq_ok h
  obtain ⟨declaredAt, hdeclared, h⟩ := bind_eq_ok h
  obtain ⟨window, hwindow, h⟩ := bind_eq_ok h
  obtain ⟨quorum, -, h⟩ := bind_eq_ok h
  cases h
  obtain ⟨hbounded, hinstants⟩ := intervalFromValue_ok hS (mapErr_eq_ok hwindow)
  exact ⟨hbounded, reasonFromValue_clock (mapErr_eq_ok hreason),
    fromClock_tsParse (mapErr_eq_ok (mapErr_eq_ok hdeclared)), hinstants⟩

theorem options_quorum {o : Options} (h : o.revocation S = .ok r) :
    S.nodeIdNew o.quorum = .ok r.declaredBy := by
  obtain ⟨subject, -, h⟩ := bind_eq_ok h
  obtain ⟨reason, -, h⟩ := bind_eq_ok h
  obtain ⟨-, h⟩ := check_eq_ok h
  obtain ⟨declaredAt, -, h⟩ := bind_eq_ok h
  obtain ⟨window, -, h⟩ := bind_eq_ok h
  obtain ⟨quorum, hquorum, h⟩ := bind_eq_ok h
  cases h
  exact lift_eq_ok (mapErr_eq_ok hquorum)

/-- A key that is held under the id of a node has the id of one of its keys, and is another. -/
def State.Collides (S : Signatif V) (s : State V) (node : DelegationNode V) : Prop :=
  ∃ n, S.graphNode s.graph node.id = some n ∧ ∃ k ∈ n.keys, ∃ k' ∈ node.keys,
    k.keyId = k'.keyId ∧ k.publicKey ≠ k'.publicKey

/-- A registered node with one key resolves its id to it, whatever was under the id of the node
before, but another key of that id. -/
theorem graphNode_pinned (hN : S.Nodes) (hG : S.Graphs) {s : State V} (hs : s.Filed S)
    {node : DelegationNode V} (hone : node.keys = [k]) (hfree : ¬ s.Collides S node) :
    ∃ n, S.graphNode (applyRegisterNode S s node).graph node.id = some n ∧ n.kind = node.kind ∧
      S.nodeKey n k.keyId = some k.publicKey := by
  have hn := graphNode_applyRegisterNode hG (hs node.id) node.id
  rw [if_pos rfl] at hn
  refine ⟨_, hn, rfl, ?_⟩
  have hheld : k ∈ node.keys := hone ▸ List.mem_singleton_self k
  obtain ⟨x, hx, hkey⟩ : ∃ x ∈ (mergeNode ((S.graphNode s.graph node.id).getD node) node).keys,
      x.keyId = k.keyId := exists_union_key hheld
  rw [hN.key]
  cases hfind : (mergeNode ((S.graphNode s.graph node.id).getD node) node).keys.find?
      (·.keyId = k.keyId) with
  | none => exact absurd (decide_eq_true hkey) (List.find?_eq_none.1 hfind x hx)
  | some y =>
    have hid : y.keyId = k.keyId := by
      have hdecide := List.find?_some hfind
      exact of_decide_eq_true hdecide
    have hown : y ∈ node.keys → y.publicKey = k.publicKey := by
      intro hy
      rw [hone, List.mem_singleton] at hy
      rw [hy]
    rw [Option.map_some, Option.some_inj]
    rcases mem_union (List.mem_of_find?_eq_some hfind) with hold | hnew
    · cases hbefore : S.graphNode s.graph node.id with
      | none =>
        rw [hbefore] at hold
        exact hown hold
      | some m =>
        rw [hbefore] at hold
        by_contra hne
        exact hfree ⟨m, hbefore, y, hold, k, hheld, hid, hne⟩
    · exact hown hnew

/-- A slot under a key pinned to its quorum makes the attestation quorate in the group form. -/
theorem verdict_pinned {graph : V.TrustGraph} {q : QuorumAttestation V} {n : DelegationNode V}
    (hn : S.graphNode graph q.quorum = some n)
    (hkind : n.kind = .thresholdGroup q.threshold members)
    (hslot : slot ∈ q.signatures) (hkey : S.nodeKey n slot.keyId = some key)
    (hverify : slotVerifies S slot (S.quorumBytes statement q.quorum q.threshold) key = true) :
    (verdict S graph q statement).quorate = true ∧
      (verdict S graph q statement).form = .thresholdGroup := by
  have hgroup : groupVerified S (S.graphNode graph q.quorum) q.signatures
      (S.quorumBytes statement q.quorum q.threshold) = true :=
    (groupVerified_iff S).2 ⟨n, hn, slot, hslot, key, hkey, hverify⟩
  have hthreshold : ((S.graphNode graph q.quorum).bind fun n => n.kind.threshold) =
      some q.threshold := by
    rw [hn, Option.bind_some, hkind]
    rfl
  simp only [verdict, hgroup, hthreshold, beq_self_eq_true, Bool.and_self, if_true, and_self]

theorem declareRevocation_ok (hK : K.Sound C) {s : Store V} {r : Revocation V}
    (hq : r.quorum = some q)
    (hv : (verdict C.signatif s.graph q (C.signatif.statementBytes r)).quorate = true) (t : Tick) :
    ∃ a, (s.declareRevocation C.signatif t r).1 = .ok a := by
  have hcheck : checkQuorum C.signatif s.graph r = .ok () := by
    rw [checkQuorum]
    split
    · rw [hq]
      exact if_pos hv
    · rfl
  have hdeclare := hK.declared s.ledger r fun _ => by rw [hq]; exact Option.some_ne_none q
  rw [Store.declareRevocation, hcheck]
  dsimp only
  rw [hdeclare]
  exact ⟨_, rfl⟩

theorem completed_node (hS : S.Lawful P) (hN : S.Nodes) {o : Options} {r : Revocation V}
    (h : o.ceremony S K r = .ok c) :
    ∃ members, c.node = ⟨r.declaredBy, .thresholdGroup o.threshold members,
        [⟨S.keyIdOf c.groupPublic, c.groupPublic⟩]⟩ ∧ c.node.Built S := by
  obtain ⟨members, -, -, -, -, -, -, -, -, -, -, -, -, hnode⟩ := ceremony_ok h
  have hmatches : ∀ k ∈ [RegisteredKey.mk (S.keyIdOf c.groupPublic) c.groupPublic],
      k.Matches S := by
    intro k hk
    rw [List.mem_singleton.1 hk]
    rfl
  refine ⟨members, ?_, ?_⟩
  · rw [hnode, hN.new, hN.register]
    rfl
  · rw [hnode]
    exact built_foldl hS hmatches r.declaredBy (.thresholdGroup o.threshold members)

theorem completed_revocation (hS : C.signatif.Lawful P) (hK : K.Sound C) {o : Options}
    (hr : o.revocation C.signatif = .ok r) (hyears : r.Instants (InYears C.signatif))
    (h : o.ceremony C.signatif K r = .ok c) :
    ∃ slot, c.revocation.quorum = some ⟨r.declaredBy, o.threshold, [slot]⟩ ∧
      slot.keyId = C.signatif.keyIdOf c.groupPublic ∧
      slotVerifies C.signatif slot (C.signatif.quorumBytes
        (C.signatif.statementBytes c.revocation) r.declaredBy o.threshold) c.groupPublic = true ∧
      c.revocation.Framed C.signatif ∧ c.revocation.Instants (OnClock C.signatif) := by
  obtain ⟨hbounded, hclock⟩ := options_revocation hS hr
  obtain ⟨-, aggregated, shared, session, ceremony, raw, hagg, hverify, hgroup, hraw, hpublic,
    hpayload, hrev, -⟩ := ceremony_ok h
  obtain ⟨hslot, hid⟩ := hK.checked _ _ _ _ _ _ _ _ hagg hverify hgroup hraw hpublic
  have hon := hclock.onClock hS hyears
  rw [hrev]
  refine ⟨K.toSlot aggregated, rfl, hid, ?_, ⟨hbounded, ?_⟩, hon.reason, hon.declaredAt, hon.window⟩
  · rw [hK.statement, ← hpayload]
    exact hslot
  · intro q hq slot hs
    cases hq
    rw [List.mem_singleton.1 hs]
    exact hK.framed aggregated

/-- The files of a ceremony that `declare` reports: what is read back and decoded of them is its
node and its revocation. -/
theorem declare_written (hC : C.Lawful) (hN : C.signatif.Nodes) (hK : K.Sound C) {H : Host}
    {o : Options} (hdeclare : ∃ text, (declare C.signatif K H o).1 = .ok text)
    (hyears : ∀ r, o.revocation C.signatif = .ok r → r.Instants (InYears C.signatif)) :
    ∃ dir r c nodeText revocationText ceremonyText, o.revocation C.signatif = .ok r ∧
      o.ceremony C.signatif K r = .ok c ∧
      (declare C.signatif K H o).2 = [(pathJoin dir "quorum-node.json", nodeText),
        (pathJoin dir "revocation.json", revocationText),
        (pathJoin dir "ceremony.json", ceremonyText)] ∧
      (∃ v, C.json.fromStr nodeText = .ok v ∧ nodeFromValue C.signatif v = .ok c.node) ∧
      ∃ v, C.json.fromStr revocationText = .ok v ∧
        revocationFromValue C.signatif v = .ok c.revocation := by
  obtain ⟨text, hdeclare⟩ := hdeclare
  obtain ⟨dir, r, c, -, hr, hc, hfiles⟩ := declare_ok hdeclare
  obtain ⟨members, hnode, hbuilt⟩ := completed_node hC.signatif hN hc
  obtain ⟨slot, hquorum, hid, hslot, hframed, hinstants⟩ :=
    completed_revocation hC.signatif hK hr (hyears r hr) hc
  exact ⟨dir, r, c, _, _, _, hr, hc, hfiles,
    ⟨_, hK.pretty _ (canonical_node c.node), node_round_trip hC.signatif hbuilt⟩,
    ⟨_, hK.pretty _ (canonical_revocation hC.signatif c.revocation),
      revocation_round_trip hC.signatif hframed hinstants⟩⟩

/-- What `declare` reports is accepted by the service: on any store it can hold, its node is decoded
and registered, and then its revocation is decoded and declared, on a group signature, unless a key
of the same id stands in for the group key there. -/
theorem ceremony_accepted (C : Crates V) (K : Confium V) (H : Host) (hC : C.Lawful)
    (hN : C.signatif.Nodes) (hG : C.signatif.Graphs) (hK : K.Sound C) (o : Options)
    (hdeclare : ∃ text, (declare C.signatif K H o).1 = .ok text)
    (hyears : ∀ r, o.revocation C.signatif = .ok r → r.Instants (InYears C.signatif)) :
    let S := C.signatif
    ∃ dir nodeText revocationText ceremonyText,
      (declare S K H o).2 = [(pathJoin dir "quorum-node.json", nodeText),
        (pathJoin dir "revocation.json", revocationText),
        (pathJoin dir "ceremony.json", ceremonyText)] ∧
      ∃ nodeV node revocationV r q, C.json.fromStr nodeText = .ok nodeV ∧
        nodeFromValue S nodeV = .ok node ∧ C.json.fromStr revocationText = .ok revocationV ∧
        revocationFromValue S revocationV = .ok r ∧ r.quorum = some q ∧
        S.nodeIdNew o.quorum = .ok node.id ∧ q.quorum = node.id ∧
        ∀ (s : Store V) (t t' : Tick), s.Held C →
          (∃ a, (s.registerNode S t node).1 = .ok a) ∧
          (¬ s.Collides S node → let s' := (s.registerNode S t node).2
            (∃ a, (s'.declareRevocation S t' r).1 = .ok a) ∧
            (verdict S s'.graph q (S.statementBytes r)).quorate = true ∧
            (verdict S s'.graph q (S.statementBytes r)).form = .thresholdGroup) := by
  intro S
  obtain ⟨dir, r, c, nodeText, revocationText, ceremonyText, hr, hc, hfiles,
    ⟨nodeV, hnodeV, hnodeRead⟩, ⟨revocationV, hrevocationV, hrevocationRead⟩⟩ :=
    declare_written hC hN hK hdeclare hyears
  obtain ⟨members, hnode, -⟩ := completed_node hC.signatif hN hc
  obtain ⟨slot, hquorum, hid, hslot, -⟩ := completed_revocation hC.signatif hK hr (hyears r hr) hc
  have hnodeId : c.node.id = r.declaredBy := by rw [hnode]
  refine ⟨dir, nodeText, revocationText, ceremonyText, hfiles, nodeV, c.node, revocationV,
    c.revocation, _, hnodeV, hnodeRead, hrevocationV, hrevocationRead, hquorum, ?_, hnodeId.symm,
    ?_⟩
  · rw [hnodeId]
    exact options_quorum hr
  intro s t t' hs
  refine ⟨⟨_, rfl⟩, fun hfree => ?_⟩
  obtain ⟨n, hn, hkind, hkey⟩ := graphNode_pinned hN hG (held_filed hG hs)
    (congrArg DelegationNode.keys hnode) hfree
  rw [← hid] at hkey
  rw [hnode] at hkind
  have hn' : S.graphNode (applyRegisterNode S s.toState c.node).graph r.declaredBy = some n := by
    rw [← hn, hnode]
  let q : QuorumAttestation V := ⟨r.declaredBy, o.threshold, [slot]⟩
  have hv : (verdict S (applyRegisterNode S s.toState c.node).graph q
        (S.statementBytes c.revocation)).quorate = true ∧
      (verdict S (applyRegisterNode S s.toState c.node).graph q
        (S.statementBytes c.revocation)).form = .thresholdGroup :=
    verdict_pinned hn' hkind List.mem_cons_self hkey hslot
  exact ⟨declareRevocation_ok hK hquorum hv.1 t', hv⟩

open Reference

/-- A ceremony that gathers the shares of its signers, and signs with one group key. -/
def rehearsal : Confium vocabulary where
  Real := List String
  Session := SessionInit vocabulary
  Commitment := String
  Share := String
  Aggregated := Bytes
  new := []
  validate _ := .ok ()
  createSession c i := (.ok i, c)
  commitmentFor c _ n := (.ok n, c)
  submitCommitment c _ _ := (.ok (), c)
  shareFor c _ n := (.ok n, c)
  submitShare c _ n := (.ok (), c ++ [n])
  aggregate c i :=
    if c.length < i.quorum.threshold.toNat then
      (.error (.thresholdNotMet (UInt64.ofNat c.length) i.quorum.threshold), c)
    else (.ok i.statement.payload, c)
  group _ i := .ok ⟨.str "frost-ed25519", i.quorum.threshold, UInt64.ofNat i.quorum.members.length,
    hexEncode [7], .arr []⟩
  verify payload statement := if payload = statement.payload then .ok () else .error "mismatch"
  toSlot payload := ⟨.ed25519, hexEncode [7], some (sign payload [7])⟩
  sha256Hex _ := ""

def disk : Host := ⟨fun _ => .ok (), fun _ _ => .ok (), id⟩

theorem rehearsal_signed (hverify : rehearsal.verify aggregated statement = .ok ())
    (hgroup : rehearsal.group ceremony session = .ok groupKey)
    (hraw : hexDecode groupKey.groupPublic = .ok key) :
    signatif.slotVerify (rehearsal.toSlot aggregated) .quorum statement.payload key = true ∧
      key = [7] := by
  simp only [rehearsal] at hverify
  split at hverify
  · rename_i heq
    cases hgroup
    rw [hexDecode_hexEncode] at hraw
    cases hraw
    exact ⟨by rw [← heq]; exact beq_self_eq_true _, rfl⟩
  · cases hverify

theorem rehearsal_sound : rehearsal.Sound crates where
  checked shared session ceremony aggregated statement groupKey raw key _ hverify hgroup hraw
      hpublic := by
    cases hpublic
    obtain ⟨hslot, rfl⟩ := rehearsal_signed hverify hgroup hraw
    exact ⟨hslot, rfl⟩
  framed aggregated sig hsig := by
    cases hsig
    exact List.length_replicate
  statement _ _ := rfl
  declared l r h := by
    have hno : ¬ (retroactive r.reason && r.quorum.isNone) = true := by
      rw [Bool.and_eq_true, Option.isNone_iff_eq_none]
      exact fun hr => h hr.1 hr.2
    exact congrArg Prod.fst (if_neg hno)
  pretty v hv := by
    have hparse := parse_render .pretty v hv
    simp only [crates, Serde.reference, Value.toStringPretty, String.toList_ofList, hparse]

/-- Two of three members distrust an issuer from the second day of 1970, for the id of a node that
is there already, of another kind and with other keys. -/
def misissued : Options :=
  ⟨"node-a", 2, ["a", "b", "c"], ["a", "b"], "node", "issuer", "misissuance", none, "1970-01-02",
    some "1970-01-03", "1970-01-04", some "out"⟩

def misissuedStatement : Revocation vocabulary :=
  ⟨.node "issuer", .misissuance, (259200 : Int), "node-a",
    ⟨(86400 : Int), some (172800 : Int)⟩, none⟩

theorem misissued_inYears (h : misissued.revocation signatif = .ok r) :
    r.Instants (InYears signatif) := by
  have hr : misissued.revocation signatif = .ok misissuedStatement := rfl
  rw [hr] at h
  cases h
  have hyears : (Timestamp.mk 86400).InYears ∧ (Timestamp.mk 172800).InYears ∧
      (Timestamp.mk 259200).InYears := by
    simp only [Timestamp.InYears]
    decide
  obtain ⟨hstart, hend, hdeclared⟩ := hyears
  refine ⟨trivial, hdeclared, hstart, fun t ht => ?_⟩
  cases ht
  exact hend

theorem misissued_declared : ∃ text, (declare signatif rehearsal disk misissued).1 = .ok text :=
  ⟨_, rfl⟩

theorem misissued_node {rest : List (String × String)}
    (hfiles : (declare signatif rehearsal disk misissued).2 = (path, nodeText) :: rest)
    (hread : crates.json.fromStr nodeText = .ok v) (hnode : nodeFromValue signatif v = .ok node) :
    node.id = "node-a" ∧ node.keys = [⟨"07", [7]⟩] := by
  obtain ⟨dir, r, c, nodeText', revocationText, ceremonyText, hr, hc, hfiles',
    ⟨v', hread', hnode'⟩, -⟩ := declare_written crates_lawful reference_nodes rehearsal_sound
      misissued_declared fun r => misissued_inYears
  rw [crates_signatif, hfiles, List.cons.injEq, Prod.mk.injEq] at hfiles'
  obtain ⟨⟨-, rfl⟩, -⟩ := hfiles'
  rw [hread, Except.ok.injEq] at hread'
  subst hread'
  rw [crates_signatif, hnode, Except.ok.injEq] at hnode'
  subst hnode'
  have hcompleted : ∃ c', misissued.ceremony signatif rehearsal misissuedStatement = .ok c' ∧
      c'.node.id = "node-a" ∧ c'.node.keys = [⟨"07", [7]⟩] := ⟨_, rfl, rfl, rfl⟩
  obtain ⟨c', hc', hnode'⟩ := hcompleted
  have hsame : misissued.revocation signatif = .ok misissuedStatement := rfl
  rw [crates_signatif, hsame, Except.ok.injEq] at hr
  rw [← hr, crates_signatif, hc', Except.ok.injEq] at hc
  rw [← hc]
  exact hnode'

theorem misissued_free {node : DelegationNode vocabulary} (hid : node.id = "node-a")
    (hkeys : node.keys = [⟨"07", [7]⟩]) :
    ¬ State.Collides signatif ((Store.empty crates).mutateAll signatif overlapping).toState
      node := by
  rintro ⟨n, hn, k, hk, k', hk', heq, -⟩
  have hheld : signatif.graphNode ((Store.empty crates).mutateAll signatif overlapping).graph
      "node-a" = some ⟨"node-a", .delegated,
        [⟨"aa", [0xaa]⟩, ⟨"bb", [0xbb]⟩, ⟨"cc", [0xcc]⟩]⟩ := rfl
  rw [hid, hheld, Option.some_inj] at hn
  subst hn
  rw [hkeys, List.mem_singleton] at hk'
  subst hk'
  have hids : ∀ k ∈ [RegisteredKey.mk (V := vocabulary) "aa" [0xaa], ⟨"bb", [0xbb]⟩,
      ⟨"cc", [0xcc]⟩], k.keyId ≠ "07" := by decide
  exact hids k hk heq

theorem overlapping_held :
    Store.Held crates ((Store.empty crates).mutateAll signatif overlapping) :=
  ⟨none, false, noon, Store.empty crates, overlapping, rfl, fun _ hc => overlapping_decodable hc,
    rfl⟩

theorem ceremony_accepted_rehearsal :
    let s := (Store.empty crates).mutateAll signatif overlapping
    ∃ node r q, (∃ a, (s.registerNode signatif (noon 2) node).1 = .ok a) ∧ r.quorum = some q ∧
      let s' := (s.registerNode signatif (noon 2) node).2
      (∃ a, (s'.declareRevocation signatif (noon 3) r).1 = .ok a) ∧
      (verdict signatif s'.graph q (signatif.statementBytes r)).quorate = true ∧
      (verdict signatif s'.graph q (signatif.statementBytes r)).form = .thresholdGroup := by
  obtain ⟨dir, nodeText, revocationText, ceremonyText, hfiles, nodeV, node, revocationV, r, q,
    hread, hnode, -, -, hq, -, -, haccepted⟩ :=
    ceremony_accepted crates rehearsal disk crates_lawful reference_nodes reference_graphs
      rehearsal_sound misissued misissued_declared fun r => misissued_inYears
  obtain ⟨hid, hkeys⟩ := misissued_node hfiles hread hnode
  obtain ⟨hregistered, hdeclared⟩ := haccepted _ (noon 2) (noon 3) overlapping_held
  obtain ⟨hdeclared, hverdict⟩ := hdeclared (misissued_free hid hkeys)
  exact ⟨node, r, q, hregistered, hq, hdeclared, hverdict⟩

def shortId (k : Bytes) : String := hexEncode (k.take 1)

/-- The same crates, but for their key ids. -/
def shortened : Crates vocabulary where
  signatif := { signatif with keyIdOf := shortId }
  json := Serde.reference
  fixtures := { fixtures with
    keyPairKeyId := fun k => shortId (publicOf k)
    registeredKeyOf := fun k => ⟨shortId (publicOf k), publicOf k⟩ }

theorem shortened_lawful : shortened.Lawful where
  json := Serde.reference_lawful
  signatif := { signatif_lawful with }
  fixtures := { fixtures_lawful with registered := fun _ => rfl }

theorem shortened_nodes : shortened.signatif.Nodes := { reference_nodes with }

theorem shortened_graphs : shortened.signatif.Graphs := { reference_graphs with }

theorem shortened_sound : rehearsal.Sound shortened where
  checked shared session ceremony aggregated statement groupKey raw key _ hverify hgroup hraw
      hpublic := by
    cases hpublic
    obtain ⟨hslot, rfl⟩ := rehearsal_signed hverify hgroup hraw
    exact ⟨hslot, rfl⟩
  framed := rehearsal_sound.framed
  statement := rehearsal_sound.statement
  declared := rehearsal_sound.declared
  pretty := rehearsal_sound.pretty

def standIn : List (Op vocabulary × Tick) :=
  [(.registerNode ⟨"node-a", .end, [⟨"07", [7, 1]⟩]⟩, noon 0)]

/-- A service that holds it does not accept the ceremony. -/
theorem ceremony_unaccepted :
    let S := shortened.signatif
    let s := (Store.empty shortened).mutateAll S standIn
    shortened.Lawful ∧ S.Nodes ∧ S.Graphs ∧ rehearsal.Sound shortened ∧ s.Held shortened ∧
      (∃ text, (declare S rehearsal disk misissued).1 = .ok text) ∧
      (∀ r, misissued.revocation S = .ok r → r.Instants (InYears S)) ∧
      ∃ dir nodeText revocationText ceremonyText,
        (declare S rehearsal disk misissued).2 = [(pathJoin dir "quorum-node.json", nodeText),
          (pathJoin dir "revocation.json", revocationText),
          (pathJoin dir "ceremony.json", ceremonyText)] ∧
        ∃ nodeV node revocationV r, shortened.json.fromStr nodeText = .ok nodeV ∧
          nodeFromValue S nodeV = .ok node ∧
          shortened.json.fromStr revocationText = .ok revocationV ∧
          revocationFromValue S revocationV = .ok r ∧
          ∃ e, ((s.registerNode S (noon 1) node).2.declareRevocation S (noon 2) r).1 =
            .error e := by
  have hdeclare : ∃ text, (declare shortened.signatif rehearsal disk misissued).1 = .ok text :=
    ⟨_, rfl⟩
  have hyears : ∀ r, misissued.revocation shortened.signatif = .ok r →
      r.Instants (InYears shortened.signatif) := fun r => misissued_inYears
  have hheld :
      Store.Held shortened ((Store.empty shortened).mutateAll shortened.signatif standIn) := by
    refine ⟨none, false, noon, Store.empty shortened, standIn, rfl, fun c hc => ?_, rfl⟩
    rw [List.mem_singleton.1 hc]
    exact ⟨.object [("id", .str "node-a"), ("kind", .str "end"), ("keys", .arr [.object
      [("key_id", .str "07"), ("suite", .str "ECDSA-P256"), ("public", .str "0701")]])], rfl⟩
  obtain ⟨dir, r, c, nodeText, revocationText, ceremonyText, hr, hc, hfiles,
    ⟨nodeV, hnodeV, hnode⟩, ⟨revocationV, hrevocationV, hrevocation⟩⟩ :=
    declare_written shortened_lawful shortened_nodes shortened_sound hdeclare hyears
  have hrefused : ∃ c',
      misissued.ceremony shortened.signatif rehearsal misissuedStatement = .ok c' ∧
      ∃ e, ((((Store.empty shortened).mutateAll shortened.signatif standIn).registerNode
        shortened.signatif (noon 1) c'.node).2.declareRevocation shortened.signatif (noon 2)
          c'.revocation).1 = .error e := ⟨_, rfl, _, rfl⟩
  obtain ⟨c', hc', hrefused⟩ := hrefused
  have hsame : misissued.revocation shortened.signatif = .ok misissuedStatement := rfl
  rw [hsame, Except.ok.injEq] at hr
  rw [← hr, hc', Except.ok.injEq] at hc
  subst hc
  exact ⟨shortened_lawful, shortened_nodes, shortened_graphs, shortened_sound, hheld, hdeclare,
    hyears, dir, nodeText, revocationText, ceremonyText, hfiles, nodeV, c'.node, revocationV,
    c'.revocation, hnodeV, hnode, hrevocationV, hrevocation, hrefused⟩

end UnidppTrust
