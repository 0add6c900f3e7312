import UnidppTrust.MasterMirroring

namespace UnidppTrust
open Rust Json Api
set_option autoImplicit true

variable {V : Vocabulary} {S : Signatif V} {A : App V}

/-- What the crate finds of a graph it lists. -/
structure Signatif.ListedNodes (S : Signatif V) : Prop where
  found : ∀ g id n, S.graphNode g id = some n → n.id = id ∧ n ∈ S.graphNodes g

def arrayAt (key : String) (v : Value) : List Value := ((v.get key).bind Value.asArray).getD []

def instantAt (key : String) (v : Value) : Option (Outcome TimeParseError Timestamp) :=
  ((v.get key).bind Value.asStr).map Timestamp.parse

/-- What a client makes of an entry: its window, and whether it is in force. -/
def tenureAt (v : Value) : Option (Outcome TimeParseError Timestamp) ×
    Option (Outcome TimeParseError Timestamp) × Option Value :=
  (instantAt "not_before" v, instantAt "superseded_at" v, v.get "in_force_at_as_of")

def entriesFor (node : String) (list : Value) :=
  ((arrayAt "entries" list).filter (textAt "node" · = node)).map fun e =>
    (toAsciiUppercase (textAt "jurisdiction" list), tenureAt e)

def standingOf (e : Value) : Value :=
  .object [("attested_by", .usize (arrayAt "attestations" e).length),
    ("witnesses", .arr ((arrayAt "attestations" e).filterMap (Value.get · "witness")))]

def declaredOn (node : String) (r : Value) : Bool :=
  let subject := (r.get "subject").getD .null
  textAt "kind" subject = "node" ∧ textAt "id" subject = node

def pick (keys : List String) (v : Value) : List (Option Value) := keys.map v.get

abbrev declaration : Value → List (Option Value) :=
  pick ["subject", "reason", "declared_by", "window"]

/-- The operator view says of its node what the other views say of it. -/
structure Projected (op graph lists master revocations : Value) : Prop where
  keys : ∃ n ∈ arrayAt "nodes" graph, textAt "id" n = textAt "operator" op ∧
    (arrayAt "keys" op).map (pick ["key_id", "suite"]) =
      (arrayAt "keys" n).map (pick ["key_id", "suite"])
  delegated : arrayAt "delegated_by" op =
    (arrayAt "edges" graph).filter (textAt "child" · = textAt "operator" op)
  delegates : arrayAt "delegates" op = (arrayAt "edges" graph).filter fun e =>
    textAt "child" e ≠ textAt "operator" op ∧ textAt "parent" e = textAt "operator" op
  memberships : ((arrayAt "trust_list_memberships" op).map fun m =>
      (textAt "jurisdiction" m, tenureAt m)).Perm
    ((arrayAt "trust_lists" lists).flatMap (entriesFor (textAt "operator" op)))
  sorted : (arrayAt "trust_list_memberships" op).Pairwise fun a b =>
    textAt "jurisdiction" a ≤ textAt "jurisdiction" b
  master : op.get "master_list" = some (.ofOption
    (((arrayAt "entries" master).find? (textAt "node" · = textAt "operator" op)).map standingOf))
  revocations : (arrayAt "revocations" op).map declaration =
    ((arrayAt "revocations" revocations).filter (declaredOn (textAt "operator" op))).map
      declaration

theorem nodeIdStr_inj (hS : S.Lawful P) {n n' : V.NodeId} :
    S.nodeIdStr n = S.nodeIdStr n' ↔ n = n' := by
  constructor
  · intro h
    have hn := hS.nodeId n
    rw [h, hS.nodeId] at hn
    exact (Except.ok.inj hn).symm
  · rintro rfl
    rfl

theorem parse_stampStr (hS : S.Lawful P) (h : OnClock S t) :
    Timestamp.parse (stampStr S t) = Timestamp.parse (S.timeStr t) := by
  obtain ⟨s, hs, rfl⟩ := h
  rw [stampStr, hS.timeSecs s hs.fits, hS.timeStr s hs]
  exact s.parse_toString hs

section Documents
variable (hS : S.Lawful P)
include hS

theorem tenureAt_membership {e : TrustListEntry V}
    (he : OnClock S e.notBefore ∧ ∀ t ∈ e.supersededAt, OnClock S t) (jur : String)
    (asOf : Timestamp) :
    tenureAt (membership S jur asOf e) = tenureAt (entryInForce S asOf e) := by
  obtain ⟨hstart, hend⟩ := he
  have hend : (e.supersededAt.map (stampStr S)).map Timestamp.parse =
      (e.supersededAt.map S.timeStr).map Timestamp.parse := by
    cases hsuperseded : e.supersededAt with
    | none => simp only [Option.map_none]
    | some t => exact congrArg some (parse_stampStr hS (hend t hsuperseded))
  have hstr (x : Option String) : (strOrNull x).asStr = x := by cases x <;> rfl
  simp [tenureAt, instantAt, membership, entryInForce, entryFields, lookup_cons_ite, hstr,
    parse_stampStr hS hstart, hend]

/-- A list of `/trust-lists` has for a node the memberships that the operator view gives it. -/
theorem entriesFor_shown {l : TrustList V} (hl : l.Keyed key)
    (hclock : ∀ (n : V.NodeId) (e : TrustListEntry V), l.entries[n]? = some e →
      OnClock S e.notBefore ∧ ∀ t ∈ e.supersededAt, OnClock S t)
    (node : V.NodeId) (fw : Option String) (asOf : Timestamp) :
    entriesFor (S.nodeIdStr node) (shownRow S asOf (key, l, fw)) =
      (((valuesOf l.entries).filter (·.node = node)).map (membership S key asOf)).map fun m =>
        (textAt "jurisdiction" m, tenureAt m) := by
  have hentries : arrayAt "entries" (shownRow S asOf (key, l, fw)) =
      (valuesOf l.entries).map (entryInForce S asOf) := by
    simp [arrayAt, shownRow, listFields, Value.asArray]
  have hnode (e : TrustListEntry V) :
      textAt "node" (entryInForce S asOf e) = S.nodeIdStr e.node := by
    simp [textAt, entryInForce, entryFields, lookup_cons_ite]
  rw [entriesFor, hentries, shownRow, textAt_list, hl.jurisdiction, List.filter_map, List.map_map,
    List.map_map]
  simp only [Function.comp_def, hnode, nodeIdStr_inj hS, textAt_membership]
  apply List.map_congr_left
  intro e he
  obtain ⟨n, hn⟩ := Refill.mem_values.1 (List.mem_filter.1 he).1
  rw [tenureAt_membership hS (hclock n e hn)]

theorem memberships_listed {s : State V} (hkeyed : s.Keyed) (hpublishable : s.Publishable S)
    (order order' : HashOrder) (node : V.NodeId) (asOf : Timestamp)
    {rows : List (String × TrustList V × Option String)}
    (hrows : rows.Perm (listRows order' ⟨none, none⟩ s)) :
    ((sortByKey (textAt "jurisdiction") (memberships S (order.entries s.trustLists) node asOf)).map
        fun m => (textAt "jurisdiction" m, tenureAt m)).Perm
      ((rows.map (shownRow S asOf)).flatMap (entriesFor (S.nodeIdStr node))) := by
  have hlisted : (rows.map (shownRow S asOf)).flatMap (entriesFor (S.nodeIdStr node)) =
      rows.flatMap fun r => ((((valuesOf r.2.1.entries).filter (·.node = node)).map
        (membership S r.1 asOf)).map fun m => (textAt "jurisdiction" m, tenureAt m)) := by
    rw [List.flatMap_map]
    apply List.flatMap_congr
    rintro ⟨key, l, fw⟩ hr
    have hl := ((mem_listRows order' _ s).1 (hrows.mem_iff.1 hr)).1
    exact entriesFor_shown hS (hkeyed.list key l hl) (hpublishable.list key l hl).clock node fw asOf
  have hall : (order'.entries s.trustLists).filter (fun l =>
      ListFilter.admits ⟨none, none⟩ l.1 (s.frameworkOf l.1)) = order'.entries s.trustLists :=
    List.filter_eq_self.2 fun _ _ => rfl
  rw [hlisted]
  refine ((sortByKey_perm _ _).map _).trans (.trans ?_ (hrows.flatMap_right _).symm)
  rw [listRows, hall, List.flatMap_map, memberships, List.map_flatMap]
  exact (entries_perm order order' s.trustLists).flatMap_right _

/-- Without filters, the declarations on a node are those that the operator view gives. -/
theorem declarations_listed (s : State V) (knownBy : Option Timestamp) (node : V.NodeId)
    (asOf : Timestamp) :
    ((revocationViews S ⟨knownBy, none, none, none⟩ s asOf).filter
        (declaredOn (S.nodeIdStr node))).map declaration =
      (((S.ledgerRevocations s.ledger).filter (namesNode node)).map (revocationToValue S)).map
        declaration := by
  have hnames (r : Revocation V) (seq : Nat) :
      declaredOn (S.nodeIdStr node) (revocationView S s.graph knownBy asOf seq r) =
        namesNode node r := by
    cases hsubject : r.subject with
    | _ =>
      simp [declaredOn, namesNode, revocationView, lookup_cons_ite, hsubject, textAt,
        revokedSubjectToValue, nodeIdStr_inj hS]
  have hsaid (r : Revocation V) (seq : Nat) :
      declaration (revocationView S s.graph knownBy asOf seq r) =
        declaration (revocationToValue S r) := by
    simp [declaration, pick, revocationView, revocationToValue, lookup_cons_ite]
  have hall : ((S.ledgerRevocations s.ledger).zipIdx 1).filter (fun r =>
      RevocationQuery.admits S ⟨knownBy, none, none, none⟩ r.1) =
      (S.ledgerRevocations s.ledger).zipIdx 1 := List.filter_eq_self.2 fun _ _ => rfl
  have hplain : (S.ledgerRevocations s.ledger).filter (namesNode node) =
      (((S.ledgerRevocations s.ledger).zipIdx 1).filter (namesNode node ∘ Prod.fst)).map
        Prod.fst := by
    rw [← List.filter_map, List.zipIdx_map_fst]
  rw [revocationViews, hall, hplain, List.filter_map, List.map_map, List.map_map, List.map_map]
  simp only [Function.comp_def, hnames, hsaid]

omit hS in
theorem standingOf_shown (l : MasterList V) (e : MasterListEntry V) :
    standingOf (masterEntryView S l e) = masterStanding S e := by
  obtain ⟨verified, hverified⟩ : ∃ f, attestationsVerified S e l.witnesses =
      e.attestations.map f := ⟨_, rfl⟩
  have hshown : arrayAt "attestations" (masterEntryView S l e) =
      e.attestations.map fun a => attestationView S a (verified a) := by
    simp [arrayAt, masterEntryView, lookup_cons_ite, Value.asArray, hverified,
      List.zipWith_map_right, List.zipWith_self]
  have hwitness (a : WitnessAttestation V) (ok : Bool) :
      (attestationView S a ok).get "witness" = some (.str (S.nodeIdStr a.witness)) := by
    simp [attestationView, lookup_cons_ite]
  simp only [standingOf, hshown, masterStanding, List.length_map, List.filterMap_map,
    Function.comp_def, hwitness, List.filterMap_eq_map']

omit hS in
theorem master_listed {l : MasterList V} (hl : l.Publishable S) (hS : S.Lawful P)
    (node : V.NodeId) (asOf : Timestamp) :
    ((arrayAt "entries" (masterDoc S l asOf)).find?
        (textAt "node" · = S.nodeIdStr node)).map standingOf =
      l.entries[node]?.map (masterStanding S) := by
  have hentries : arrayAt "entries" (masterDoc S l asOf) =
      (valuesOf l.entries).map (masterEntryView S l) := by
    simp [arrayAt, masterDoc, Value.asArray]
  have hnode (e : MasterListEntry V) :
      textAt "node" (masterEntryView S l e) = S.nodeIdStr e.node := by
    simp [textAt, masterEntryView, lookup_cons_ite]
  rw [hentries, List.find?_map]
  simp only [Function.comp_def, hnode, nodeIdStr_inj hS, Option.map_map, standingOf_shown]
  rw [valuesOf, Refill.find_values hl.entry]

theorem canonical_operatorDoc (order : HashOrder) (s : State V) (dn : DelegationNode V)
    (node : V.NodeId) (asOf : Timestamp) :
    (operatorDoc S order s dn node asOf).Canonical P 127 := by
  have hedges (p : DelegationCredential V → Bool) : (Value.arr (((S.graphEdges s.graph).filter
      p).map (edgeToValue S))).Canonical P 126 := by
    refine canonical_arr.2 fun v hv => ?_
    obtain ⟨c, -, rfl⟩ := List.mem_map.1 hv
    exact canonical_edge hS c
  have hmemberships : (Value.arr (sortByKey (textAt "jurisdiction")
      (memberships S (order.entries s.trustLists) node asOf))).Canonical P 126 := by
    refine canonical_arr.2 fun v hv => ?_
    obtain ⟨l, -, hl⟩ := List.mem_flatMap.1 ((sortByKey_perm _ _).mem_iff.1 hv)
    obtain ⟨e, -, rfl⟩ := List.mem_map.1 hl
    exact canonical_fields ⟨trivial, trivial, canonical_option fun _ _ => trivial, trivial⟩
  have hkeys : (Value.arr (dn.keys.map (operatorKey S))).Canonical P 126 := by
    refine canonical_arr.2 fun v hv => ?_
    obtain ⟨k, -, rfl⟩ := List.mem_map.1 hv
    exact canonical_fields ⟨trivial, trivial⟩
  have hstanding (e : MasterListEntry V) : (masterStanding S e).Canonical P 126 := by
    refine canonical_fields ⟨trivial, canonical_arr.2 fun v hv => ?_⟩
    obtain ⟨a, -, rfl⟩ := List.mem_map.1 hv
    exact trivial
  have hrevocations : (Value.arr (((S.ledgerRevocations s.ledger).filter (namesNode node)).map
      (revocationToValue S))).Canonical P 126 := by
    refine canonical_arr.2 fun v hv => ?_
    obtain ⟨r, -, rfl⟩ := List.mem_map.1 hv
    exact canonical_revocation hS r
  exact canonical_fields ⟨trivial, trivial, hkeys, hedges _, hedges _, hmemberships,
    canonical_option fun e _ => hstanding e, hrevocations, trivial⟩

omit hS in
theorem textAt_operator (order : HashOrder) (s : State V) (dn : DelegationNode V)
    (node : V.NodeId) (asOf : Timestamp) :
    textAt "operator" (operatorDoc S order s dn node asOf) = S.nodeIdStr node := by
  simp [textAt, operatorDoc, lookup_cons_ite]

omit hS in
theorem arrayAt_memberships (order : HashOrder) (s : State V) (dn : DelegationNode V)
    (node : V.NodeId) (asOf : Timestamp) :
    arrayAt "trust_list_memberships" (operatorDoc S order s dn node asOf) =
      sortByKey (textAt "jurisdiction")
        (memberships S (order.entries s.trustLists) node asOf) := by
  simp [arrayAt, operatorDoc, lookup_cons_ite, Value.asArray]

theorem edges_graphed (graph : V.TrustGraph) (asOf : Timestamp) (node : V.NodeId) :
    (arrayAt "edges" (graphDoc S graph asOf)).filter (textAt "child" · = S.nodeIdStr node) =
        ((S.graphEdges graph).filter (·.child = node)).map (edgeToValue S) ∧
      (arrayAt "edges" (graphDoc S graph asOf)).filter (fun e =>
          textAt "child" e ≠ S.nodeIdStr node ∧ textAt "parent" e = S.nodeIdStr node) =
        ((S.graphEdges graph).filter fun e => e.child ≠ node ∧ e.parent = node).map
          (edgeToValue S) := by
  have hedges : arrayAt "edges" (graphDoc S graph asOf) =
      (S.graphEdges graph).map (edgeToValue S) := by
    simp [arrayAt, graphDoc, Value.asArray]
  have hchild (c : DelegationCredential V) :
      textAt "child" (edgeToValue S c) = S.nodeIdStr c.child := by
    simp [textAt, edgeToValue, lookup_cons_ite]
  have hparent (c : DelegationCredential V) :
      textAt "parent" (edgeToValue S c) = S.nodeIdStr c.parent := by
    simp [textAt, edgeToValue, lookup_cons_ite]
  rw [hedges, List.filter_map, List.filter_map]
  simp only [Function.comp_def, hchild, hparent, ne_eq, nodeIdStr_inj hS, and_self]

/-- The documents of one state agree on a node of its graph. -/
theorem projected_docs {s : State V} (hkeyed : s.Keyed) (hpublishable : s.Publishable S)
    (hmaster : s.master.Publishable S) {dn : DelegationNode V} (hdn : dn ∈ S.graphNodes s.graph)
    (order order' : HashOrder) (asOf asOf₁ asOf₂ asOf₃ : Timestamp) (knownBy : Option Timestamp)
    {rows : List (String × TrustList V × Option String)}
    (hrows : rows.Perm (listRows order' ⟨none, none⟩ s)) {lists revocations : Value}
    (hlists : lists.get "trust_lists" = some (.arr (rows.map (shownRow S asOf))))
    (hrevocations : (revocations.get "revocations").bind Value.asArray =
      some (revocationViews S ⟨knownBy, none, none, none⟩ s asOf₃)) :
    Projected (operatorDoc S order s dn dn.id asOf) (graphDoc S s.graph asOf₁) lists
      (masterDoc S s.master asOf₂) revocations where
  keys := by
    refine ⟨nodeToValue S dn, ?_, ?_, ?_⟩
    · simp only [arrayAt, graphDoc, get_object, lookup_fieldsOf]
      exact List.mem_map_of_mem hdn
    · rw [textAt_operator]
      simp [textAt, nodeToValue, lookup_cons_ite]
    · simp [arrayAt, operatorDoc, nodeToValue, lookup_cons_ite, Value.asArray, pick, operatorKey,
        registeredKeyToValue, publicFields]
  delegated := by
    rw [textAt_operator, (edges_graphed hS s.graph asOf₁ dn.id).1]
    simp [arrayAt, operatorDoc, lookup_cons_ite, Value.asArray]
  delegates := by
    rw [textAt_operator, (edges_graphed hS s.graph asOf₁ dn.id).2]
    simp [arrayAt, operatorDoc, lookup_cons_ite, Value.asArray]
  memberships := by
    have hshown : arrayAt "trust_lists" lists = rows.map (shownRow S asOf) := by
      rw [arrayAt, hlists]
      rfl
    rw [textAt_operator, arrayAt_memberships, hshown]
    exact memberships_listed hS hkeyed hpublishable order order' dn.id asOf hrows
  sorted := by
    rw [arrayAt_memberships]
    exact sortByKey_pairwise _ _
  master := by
    rw [textAt_operator, master_listed hmaster hS]
    simp [operatorDoc, lookup_cons_ite]
  revocations := by
    rw [textAt_operator, arrayAt, arrayAt, hrevocations, Option.getD_some,
      declarations_listed hS]
    simp [operatorDoc, lookup_cons_ite, Value.asArray]

end Documents

theorem operatorView_found {query : StringMap String} (hat : parseAt query = .ok (some t))
    {id : V.NodeId} (hid : A.crates.signatif.nodeIdNew node = .ok id) {s : State V}
    (hdn : A.crates.signatif.graphNode s.graph id = some dn) :
    operatorView A order node query now s =
      .ok ⟨200, operatorDoc A.crates.signatif order s dn id t, t, .current⟩ := by
  simp only [operatorView, hat, ok_bind, hid, lift_ok, mapErr_ok, hdn, okOr_some,
    Option.getD_some]

theorem Reads.operator (hC : A.crates.Lawful) (hA : A.Legible) {s : Store V} {doc : Value}
    (h : Reads A (.operator node) req s doc) :
    ∃ order id dn asOf, A.crates.signatif.graphNode s.graph id = some dn ∧
      doc = operatorDoc A.crates.signatif order s.toState dn id asOf ∧
      ∀ t, parseAt req.query = .ok (some t) → asOf = t := by
  have hread {order : HashOrder} {now : Timestamp} {d : Doc}
      (hd : operatorView A order node req.query now s.toState = .ok d) :
      ∃ at_ id dn, parseAt req.query = .ok at_ ∧
        A.crates.signatif.graphNode s.graph id = some dn ∧
        d.doc = operatorDoc A.crates.signatif order s.toState dn id (at_.getD now) := by
    obtain ⟨at_, hat, hd⟩ := bind_eq_ok hd
    obtain ⟨id, -, hd⟩ := bind_eq_ok hd
    obtain ⟨dn, hdn, hd⟩ := bind_eq_ok hd
    cases hd
    exact ⟨at_, id, dn, hat, okOr_eq_ok hdn, rfl⟩
  obtain ⟨order, m, d, hd, rfl⟩ := h.doc (x := fun order m =>
      operatorView A order node req.query m.now s.toState) hA rfl (fun _ _ => rfl)
    (fun _ _ => states_operatorView _ _ _ _ _) fun _ m d hd => by
      obtain ⟨at_, id, dn, -, -, hdoc⟩ := hread hd
      rw [hdoc]
      exact canonical_operatorDoc hC.signatif _ _ _ _ _
  obtain ⟨at_, id, dn, hat, hdn, hdoc⟩ := hread hd
  refine ⟨order, id, dn, _, hdn, hdoc, fun t ht => ?_⟩
  rw [hat] at ht
  cases ht
  rfl

/-- What the operator view says of a node at an instant is what the graph, the trust lists, the
master list and the revocations say of it there, once a service was started anew and whatever
arrived. -/
theorem operator_projected (A : App V) (hC : A.crates.Lawful) (hA : A.Legible)
    (hS : A.crates.signatif.Lists) (hM : A.crates.signatif.Masters)
    (hE : A.crates.signatif.MasterEntries) (hN : A.crates.signatif.ListedNodes) (seed : Bool)
    (ticks : Nat → Tick) (ht : ∀ i, (ticks i).now.InYears ∧ (ticks i).written = true)
    (s₀ : Store V) (hopen : Store.open_ A.crates (some []) seed ticks = .ok s₀)
    (xs : List Arrival) (hxs : ∀ x ∈ xs, (Happening.arrival x).Admissible A) (req : Request)
    (t : Timestamp) (hat : parseAt req.query = .ok (some t))
    (hlisted : listFilter req.query = ⟨none, none⟩) (knownBy : Option Timestamp)
    (hdeclared : revocationQuery req.query = .ok ⟨knownBy, none, none, none⟩) (node : String)
    (op graph lists master revocations : Value) :
    let s := (respondAll A s₀ xs).2
    Reads A (.operator node) req s op → Reads A .graph req s graph →
      Reads A .trustLists req s lists → Reads A .masterList req s master →
      Reads A .revocations req s revocations → Projected op graph lists master revocations := by
  intro s hop hgraph hlists hmaster hrevocations
  obtain ⟨hpublishable, -, hkeyed⟩ := served_publishable hC hS ht hopen hxs
  have hreached : Reached A.crates seed (Event.Ordinary A.crates) s :=
    (Reached.opened ticks (ordinary_restart ht) hopen).respondAll hxs
  have hmasterList := hreached.publishableMaster hC hM hE
  obtain ⟨order, id, dn, asOf, hfound, rfl, hasOf⟩ := hop.operator hC hA
  obtain ⟨rfl, hdn⟩ := hN.found _ _ _ hfound
  obtain ⟨_, _, asOf₁, hgraph, -⟩ := hgraph.viewed (v := .graph) hA rfl fun _ _ _ _ hd => by
    cases hd
    exact canonical_graphDoc hC.signatif _ _
  obtain ⟨_, _, asOf₂, hmaster, -⟩ := hmaster.viewed (v := .masterList) hA rfl
    fun _ _ _ _ hd => by
      cases hd
      exact canonical_masterDoc _ _
  obtain ⟨asOf', order', hasOf', rows, hrows, hlists⟩ := hlists.lists hA
  obtain ⟨q, asOf₃, hq, -, hrevocations⟩ := hrevocations.revocations hC hA
  -- the entries in force are those at the instant asked for
  have hsame : asOf' = asOf := (hasOf' t hat).trans (hasOf t hat).symm
  rw [hlisted] at hrows
  rw [hdeclared] at hq
  cases hq
  cases hgraph
  cases hmaster
  rw [hsame] at hlists
  exact projected_docs hC.signatif hkeyed hpublishable hmasterList hdn order order' asOf asOf₁
    asOf₂ asOf₃ knownBy hrows hlists hrevocations

open Reference

theorem reference_listedNodes : signatif.ListedNodes where
  found g id n h := by
    rw [reference_graphNode] at h
    obtain ⟨m, hm, rfl⟩ := Option.map_eq_some_iff.1 h
    have hid := List.find?_some hm
    exact ⟨of_decide_eq_true hid, List.mem_map_of_mem (List.mem_of_find?_eq_some hm)⟩

theorem seeded_root :
    ∃ s dn, Store.open_ crates (some []) true noon = .ok s ∧
      signatif.graphNode s.graph "eu-root" = some dn := by
  have hroot : (match Store.open_ crates (some []) true noon with
      | .ok s => (signatif.graphNode s.graph "eu-root").isSome
      | .error _ => false) = true := by decide +kernel
  split at hroot
  · obtain ⟨dn, hdn⟩ := Option.isSome_iff_exists.1 hroot
    exact ⟨_, dn, by assumption, hdn⟩
  · cases hroot

theorem reads_midnight {v : View} (hroute : getRoute path = some (.view v)) {s : Store vocabulary}
    (h : v.doc app .ascending midnight.query s.toState (some ⟨0⟩) ⟨0⟩ = .ok d)
    (hd : d.Canonical crates.json.printed 127) : Reads app path midnight s d := by
  refine reads_doc (A := app) (x := fun order m => readAt midnight.query m.now fun at_ asOf =>
    v.doc app order midnight.query s.toState at_ asOf) (d := ⟨200, d, ⟨0⟩, cacheFor (some ⟨0⟩)⟩)
    app_legible hroute (fun _ _ => rfl) .ascending atNoon ?_ rfl hd
  simp only [readAt, midnight_at, ok_bind, Option.getD_some, h]

/-- What the seeded service says of its root at the epoch. -/
theorem operator_projected_root :
    ∃ s op graph lists master revocations,
      Store.open_ crates (some []) true noon = .ok s ∧
      Reads app (.operator "eu-root") midnight s op ∧ Reads app .graph midnight s graph ∧
      Projected op graph lists master revocations := by
  obtain ⟨s, dn, hopen, hdn⟩ := seeded_root
  have hop : Reads app (.operator "eu-root") midnight s _ := reads_doc (A := app)
    (x := fun order m => operatorView app order "eu-root" midnight.query m.now s.toState)
    app_legible rfl (fun _ _ => rfl) .ascending atNoon
    (operatorView_found midnight_at rfl hdn) rfl
    (canonical_operatorDoc crates_lawful.signatif _ _ _ _ _)
  have hgraph : Reads app .graph midnight s _ :=
    reads_midnight rfl rfl (canonical_graphDoc crates_lawful.signatif _ _)
  have hlists : Reads app .trustLists midnight s _ :=
    reads_midnight rfl rfl (canonical_listsDoc _ _ _ _)
  have hmaster : Reads app .masterList midnight s _ :=
    reads_midnight rfl rfl (canonical_masterDoc _ _)
  have hrevocations : Reads app .revocations midnight s _ :=
    reads_midnight rfl rfl (canonical_revocationsDoc crates_lawful.signatif _ _ _ _)
  exact ⟨s, _, _, _, _, _, hopen, hop, hgraph, operator_projected app crates_lawful app_legible
    reference_lists reference_masters reference_masterEntries reference_listedNodes true noon
    noon_inYears s hopen [] (List.forall_mem_nil _) midnight ⟨0⟩ midnight_at rfl none rfl
    "eu-root" _ _ _ _ _ hop hgraph hlists hmaster hrevocations⟩

end UnidppTrust
