import UnidppTrust.Declarations

namespace UnidppTrust
open Rust Json Api Ceremony
set_option autoImplicit true

variable {V : Vocabulary} {A : App V} {K : Confium V} {s : Store V}

def SparesNode (A : App V) (id : V.NodeId) (x : Arrival) : Prop :=
  ∀ c, Posted A x c → c.1.nodeUnder id = none

theorem graphNode_respondAll (hG : A.crates.signatif.Graphs) {id : V.NodeId} {s : Store V}
    (hs : s.Filed A.crates.signatif) {xs : List Arrival} (h : ∀ x ∈ xs, SparesNode A id x) :
    (respondAll A s xs).2.Filed A.crates.signatif ∧
      A.crates.signatif.graphNode (respondAll A s xs).2.graph id =
        A.crates.signatif.graphNode s.graph id := by
  obtain ⟨calls, hposted, hstore⟩ := respondAll_calls A s xs
  rw [hstore]
  clear hstore
  induction calls generalizing s with
  | nil => exact ⟨hs, rfl⟩
  | cons c calls ih =>
    obtain ⟨x, hx, hc⟩ := hposted c List.mem_cons_self
    have hstep := graphNode_applyOp hG hs c.1 id
    rw [h x hx c hc] at hstep
    have hnext : (s.mutate A.crates.signatif c.2 c.1).2.Filed A.crates.signatif ∧
        A.crates.signatif.graphNode (s.mutate A.crates.signatif c.2 c.1).2.graph id =
          A.crates.signatif.graphNode s.graph id := by
      rcases mutate_cases A.crates.signatif s c.2 c.1 with ⟨e, hm⟩ | ⟨-, a, hm⟩
      · rw [hm]
        exact ⟨hs, rfl⟩
      · rw [hm]
        exact ⟨applyOp_filed hG hs c.1, hstep⟩
    obtain ⟨hfiled, hnode⟩ := ih hnext.1 fun d hd => hposted d (List.mem_cons_of_mem c hd)
    exact ⟨hfiled, hnode.trans hnext.2⟩

theorem node_created {x : Arrival} (h : Posting A .nodes text x)
    (hread : A.crates.json.fromStr text = .ok v)
    (hnode : nodeFromValue A.crates.signatif v = .ok node) (s : Store V) :
    ∃ r, (respond A x s).1 = .ok r ∧ r.status = 201 ∧
      (respond A x s).2.toState = applyRegisterNode A.crates.signatif s.toState node := by
  obtain ⟨req, hreq, hdecoded⟩ := h.decoded (fun v =>
    stated (nodeFromValue A.crates.signatif v)) hread (by rw [hnode]; rfl)
  obtain ⟨hmethod, hpath, -⟩ := h
  have hroute : router x.method x.path = some .nodes := by
    rw [hmethod, hpath]
    rfl
  rw [respond_routed hroute hreq (by rw [hmethod]; decide), serve, Api.registerNode,
    handle_ok hdecoded rfl, Prod.map, answer]
  exact ⟨_, rfl, rfl, rfl⟩

theorem spares_revocation {x : Arrival} (h : Posting A .revocations text x) (id : V.NodeId) :
    SparesNode A id x := by
  obtain ⟨hmethod, hpath, -⟩ := h
  rintro c ⟨route, req, hroute, -, hposts, -⟩
  rw [hmethod, hpath] at hroute
  cases hroute
  generalize c.1 = op at hposts ⊢
  cases hposts
  rfl

theorem revocationView_quorate {S : Signatif V} {graph : V.TrustGraph} {d : Revocation V}
    (hretroactive : S.isRetroactive d.reason = true) (hq : d.quorum = some q)
    (hverdict : (verdict S graph q (S.statementBytes d)).quorate = true)
    (knownBy : Option Timestamp) (asOf : Timestamp) (n : Nat) :
    ((revocationView S graph knownBy asOf n d).get "quorum").bind (·.get "quorate") =
      some (.bool true) := by
  have hjudged : revocationVerdict S graph d = some (verdict S graph q (S.statementBytes d)) := by
    rw [revocationVerdict, if_pos hretroactive, hq, Option.map_some]
  have hquorum : (revocationView S graph knownBy asOf n d).get "quorum" =
      some (quorumView S (revocationVerdict S graph d) q) := by
    rw [revocationView, get_object, lookup_fieldsOf, hq]
    rfl
  rw [hquorum, Option.bind_some, hjudged, quorumView, get_object, lookup_fieldsOf]
  change some (Value.bool (verdict S graph q (S.statementBytes d)).quorate) = _
  rw [hverdict]

theorem completed_retroactive {S : Signatif V} {o : Options} (h : o.revocation S = .ok r)
    (hc : o.ceremony S K r = .ok c) : S.isRetroactive c.revocation.reason = true := by
  obtain ⟨-, aggregated, -, -, -, -, -, -, -, -, -, -, hrev, -⟩ := ceremony_ok hc
  obtain ⟨subject, -, h⟩ := bind_eq_ok h
  obtain ⟨reason, -, h⟩ := bind_eq_ok h
  obtain ⟨hretroactive, h⟩ := check_eq_ok h
  obtain ⟨declaredAt, -, h⟩ := bind_eq_ok h
  obtain ⟨window, -, h⟩ := bind_eq_ok h
  obtain ⟨quorum, -, h⟩ := bind_eq_ok h
  cases h
  rw [hrev]
  exact Bool.not_eq_false _ ▸ hretroactive

/-- The node of a ceremony, posted to a service, is answered as created, and has the group key there
under the threshold of the ceremony, if no other key stands in for it. -/
theorem completed_posted (hC : A.crates.Lawful) (hN : A.crates.signatif.Nodes)
    (hG : A.crates.signatif.Graphs) {o : Options}
    (hc : o.ceremony A.crates.signatif K revocation = .ok c) (hs : s.Held A.crates)
    (hfree : ¬ s.Collides A.crates.signatif c.node) {x : Arrival}
    (hread : A.crates.json.fromStr text = .ok v)
    (hdecoded : nodeFromValue A.crates.signatif v = .ok c.node) (hx : Posting A .nodes text x) :
    (∃ r, (respond A x s).1 = .ok r ∧ r.status = 201) ∧
      (respond A x s).2.Filed A.crates.signatif ∧
      ∃ n members,
        A.crates.signatif.graphNode (respond A x s).2.graph revocation.declaredBy = some n ∧
        n.kind = .thresholdGroup o.threshold members ∧
        A.crates.signatif.nodeKey n (A.crates.signatif.keyIdOf c.groupPublic) =
          some c.groupPublic := by
  obtain ⟨members, hnode, -⟩ := completed_node hC.signatif hN hc
  have hfiled := held_filed hG hs
  obtain ⟨n, hn, hkind, hkey⟩ := graphNode_pinned hN hG hfiled
    (congrArg DelegationNode.keys hnode) hfree
  obtain ⟨r, hr, hstatus, hstate⟩ := node_created hx hread hdecoded s
  rw [← hstate, hnode] at hn
  rw [hnode] at hkind
  refine ⟨⟨r, hr, hstatus⟩, ?_, n, members, hn, hkind, hkey⟩
  rw [hstate]
  exact applyOp_filed hG hfiled (.registerNode c.node)

/-- A retroactive declaration that is answered as created is shown as quorate wherever its quorum
is quorate. -/
theorem quorate_shown (hC : A.crates.Lawful) (hA : A.Legible) (hL : A.crates.signatif.Ledger)
    {y : Arrival} (hy : Posting A .revocations text y) (hreq : y.request = some req)
    (hdecoded : decoded A req (fun v => stated (revocationFromValue A.crates.signatif v)) = .ok d)
    (hr : (respond A y s).1 = .ok r) (hstatus : r.status = 201)
    (hretroactive : A.crates.signatif.isRetroactive d.reason = true)
    (hquorum : d.quorum = some attestation) {ys : List Arrival}
    (hverdict : (verdict A.crates.signatif (respondAll A (respond A y s).2 ys).2.graph attestation
      (A.crates.signatif.statementBytes d)).quorate = true) {doc : Value}
    (hdoc : Reads A .revocations asked (respondAll A (respond A y s).2 ys).2 doc)
    (hq : revocationQuery asked.query = .ok q) (hadmits : q.admits A.crates.signatif d = true) :
    ∃ vs v n asOf, (doc.get "revocations").bind Value.asArray = some vs ∧ v ∈ vs ∧
      v = revocationView A.crates.signatif (respondAll A (respond A y s).2 ys).2.graph q.knownBy
        asOf n d ∧
      v.get "subject" = some (revokedSubjectToValue A.crates.signatif d.subject) ∧
      (v.get "quorum").bind (·.get "quorate") = some (.bool true) := by
  obtain ⟨d', hd, hledger⟩ := declared_last hL hy.1 hy.2.1 hreq hr hstatus
  rw [hdecoded] at hd
  cases hd
  obtain ⟨later, hlater⟩ := ledger_later hL hledger ys
  obtain ⟨q', asOf, hq', -, hvs⟩ := hdoc.revocations hC hA
  rw [hq] at hq'
  cases hq'
  refine ⟨_, _, _, _, hvs, mem_revocationViews hlater hadmits asOf, rfl, ?_, ?_⟩
  · rw [revocationView, get_object, lookup_fieldsOf]
    rfl
  · exact revocationView_quorate hretroactive hquorum hverdict _ _ _

/-- What a ceremony reports can be posted, where no key of the same id stands in for the group key:
its node, and then, after requests that do not register that node anew, its revocation, are answered
as created, and the revocation is shown as quorate from then on, as long as no request registers the
node anew. -/
theorem ceremony_posted (A : App V) (K : Confium V) (H : Host) (hC : A.crates.Lawful)
    (hN : A.crates.signatif.Nodes) (hG : A.crates.signatif.Graphs) (hL : A.crates.signatif.Ledger)
    (hK : K.Sound A.crates) (o : Options)
    (hdeclare : ∃ text, (declare A.crates.signatif K H o).1 = .ok text)
    (hyears : ∀ r, o.revocation A.crates.signatif = .ok r →
      r.Instants (InYears A.crates.signatif)) :
    let S := A.crates.signatif
    ∃ dir nodeText revocationText ceremonyText,
      (declare S K H o).2 = [(pathJoin dir "quorum-node.json", nodeText),
        (pathJoin dir "revocation.json", revocationText),
        (pathJoin dir "ceremony.json", ceremonyText)] ∧
      ∃ nodeV node revocationV d, A.crates.json.fromStr nodeText = .ok nodeV ∧
        nodeFromValue S nodeV = .ok node ∧
        A.crates.json.fromStr revocationText = .ok revocationV ∧
        revocationFromValue S revocationV = .ok d ∧ S.nodeIdNew o.quorum = .ok node.id ∧
        ∀ s, s.Held A.crates → ¬ s.Collides S node → ∀ x y xs ys, Posting A .nodes nodeText x →
          Posting A .revocations revocationText y → (∀ z ∈ xs ++ ys, SparesNode A node.id z) →
          let s₁ := (respondAll A (respond A x s).2 xs).2
          let s₂ := (respondAll A (respond A y s₁).2 ys).2
          (∃ r, (respond A x s).1 = .ok r ∧ r.status = 201) ∧
          (∃ r, (respond A y s₁).1 = .ok r ∧ r.status = 201) ∧
          ∀ asked doc q, Reads A .revocations asked s₂ doc → revocationQuery asked.query = .ok q →
            q.admits S d = true →
            ∃ vs v n asOf, (doc.get "revocations").bind Value.asArray = some vs ∧ v ∈ vs ∧
              v = revocationView S s₂.graph q.knownBy asOf n d ∧
              v.get "subject" = some (revokedSubjectToValue S d.subject) ∧
              (v.get "quorum").bind (·.get "quorate") = some (.bool true) := by
  intro S
  obtain ⟨dir, r, c, nodeText, revocationText, ceremonyText, hr, hc, hfiles,
    ⟨nodeV, hnodeV, hnodeRead⟩, ⟨revocationV, hrevocationV, hrevocationRead⟩⟩ :=
    declare_written hC hN hK hdeclare hyears
  obtain ⟨slot, hquorum, hid, hslot, -⟩ := completed_revocation hC.signatif hK hr (hyears r hr) hc
  have hnodeId : c.node.id = r.declaredBy := by
    obtain ⟨members, hnode, -⟩ := completed_node hC.signatif hN hc
    rw [hnode]
  refine ⟨dir, nodeText, revocationText, ceremonyText, hfiles, nodeV, c.node, revocationV,
    c.revocation, hnodeV, hnodeRead, hrevocationV, hrevocationRead, ?_, ?_⟩
  · rw [hnodeId]
    exact options_quorum hr
  intro s hs hfree x y xs ys hx hy hspares s₁ s₂
  rw [hnodeId] at hspares
  obtain ⟨hcreated, hfiled, n, members, hn, hkind, hkey⟩ :=
    completed_posted hC hN hG hc hs hfree hnodeV hnodeRead hx
  rw [← hid] at hkey
  -- the node stays as it is up to the declaration and after it
  obtain ⟨hfiled₁, hn₁⟩ := graphNode_respondAll hG hfiled fun z hz =>
    hspares z (List.mem_append_left ys hz)
  rw [hn] at hn₁
  have hspares₂ : ∀ z ∈ y :: ys, SparesNode A r.declaredBy z := by
    intro z hz
    rcases List.mem_cons.1 hz with rfl | hz
    · exact spares_revocation hy _
    · exact hspares z (List.mem_append_right xs hz)
  obtain ⟨-, hn₂⟩ := graphNode_respondAll hG hfiled₁ hspares₂
  rw [hn₁] at hn₂
  have hverdict (graph : V.TrustGraph)
      (hgraph : A.crates.signatif.graphNode graph r.declaredBy = some n) :
      (verdict A.crates.signatif graph ⟨r.declaredBy, o.threshold, [slot]⟩
        (A.crates.signatif.statementBytes c.revocation)).quorate = true :=
    (verdict_pinned (q := ⟨r.declaredBy, o.threshold, [slot]⟩) hgraph hkind List.mem_cons_self
      hkey hslot).1
  obtain ⟨req, r₂, hreq, hdecoded, hr₂, hstatus₂⟩ := revocation_created (s := s₁) hy
    hrevocationV hrevocationRead (declareRevocation_ok hK hquorum (hverdict _ hn₁) _)
  refine ⟨hcreated, ⟨r₂, hr₂, hstatus₂⟩, fun asked doc q hdoc hq hadmits => ?_⟩
  exact quorate_shown hC hK.pretty hL hy hreq hdecoded hr₂ hstatus₂ (completed_retroactive hr hc)
    hquorum (hverdict _ hn₂) hdoc hq hadmits

open Reference

/-- The files of the rehearsal are posted one after the other. -/
theorem ceremony_posted_rehearsal :
    ∃ nodeText revocationText r r', let s := (Store.empty crates).mutateAll signatif overlapping
      (respond app (posted .nodes nodeText) s).1 = .ok r ∧ r.status = 201 ∧
      (respond app (posted .revocations revocationText)
        (respond app (posted .nodes nodeText) s).2).1 = .ok r' ∧ r'.status = 201 := by
  obtain ⟨dir, nodeText, revocationText, ceremonyText, hfiles, nodeV, node, revocationV, d, hread,
    hnode, -, -, -, hposted⟩ :=
    ceremony_posted app rehearsal disk crates_lawful reference_nodes reference_graphs
      reference_ledger rehearsal_sound misissued misissued_declared fun r => misissued_inYears
  obtain ⟨hid, hkeys⟩ := misissued_node hfiles hread hnode
  obtain ⟨⟨r, hr, hstatus⟩, ⟨r', hr', hstatus'⟩, -⟩ := hposted _ overlapping_held
    (misissued_free hid hkeys) _ _ [] [] (posting_posted .nodes nodeText)
    (posting_posted .revocations revocationText) (List.forall_mem_nil _)
  exact ⟨nodeText, revocationText, r, r', hr, hstatus, hr', hstatus'⟩

end UnidppTrust
