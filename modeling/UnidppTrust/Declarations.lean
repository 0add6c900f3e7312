import UnidppTrust.Reading
import UnidppTrust.PointInTime
import UnidppTrust.Distrust

namespace UnidppTrust
open Rust Json Api
set_option autoImplicit true

variable {V : Vocabulary} {S : Signatif V} {A : App V} {s : Store V}

theorem created_handle {req : Request} {now : Timestamp} {decode : Value → Outcome Refusal α}
    {call : α → Store V → Outcome Refusal (AuditRecord V) × Store V}
    {doc : α → AuditRecord V → Store V → Value} (hdecode : ∀ v, States (decode v))
    (hcall : ∀ a s, States (call a s).1)
    (h : answer A now (handle A req now s decode call doc).1 = .ok r) (hstatus : r.status = 201) :
    ∃ a record, decoded A req decode = .ok a ∧
      call a s = (.ok record, (handle A req now s decode call doc).2) := by
  have hfails {f : Fault Refusal} {s' : Store V}
      (hx : handle A req now s decode call doc = (.error f, s')) : False := by
    have hstates : States (handle A req now s decode call doc).1 := states_handle hdecode hcall
    rw [hx] at h hstates
    obtain ⟨e, rfl, he⟩ := hstates f rfl
    have hrefused : e.status = r.status := congrArg Response.status (Except.ok.inj h)
    rw [hrefused, hstatus] at he
    exact absurd he (by decide)
  rcases handle_cases A req now s decode call doc with
    ⟨f, -, hx⟩ | ⟨a, hdecoded, ⟨f, s', -, hx⟩ | ⟨record, s', hc, hx⟩⟩
  · exact (hfails hx).elim
  · exact (hfails hx).elim
  · rw [hx]
    exact ⟨a, record, hdecoded, hc⟩

theorem respondAll_ledger (hL : A.crates.signatif.Ledger) (s : Store V) (xs : List Arrival) :
    A.crates.signatif.ledgerRevocations s.ledger <+:
      A.crates.signatif.ledgerRevocations (respondAll A s xs).2.ledger := by
  refine respondAll_keeps (p := fun s' => A.crates.signatif.ledgerRevocations s.ledger <+:
    A.crates.signatif.ledgerRevocations s'.ledger) (fun s' t op h => h.trans ?_) List.prefix_rfl xs
  rcases mutate_ledger hL s' t op with hsame | ⟨d, -, -, hone⟩
  · exact hsame ▸ List.prefix_rfl
  · rw [hone]
    exact List.prefix_append _ _

/-- A declaration that is answered as created is the last of the ledger then. -/
theorem declared_last (hL : A.crates.signatif.Ledger) {x : Arrival} (hmethod : x.method = .post)
    (hpath : x.path = .revocations) (hreq : x.request = some req)
    (h : (respond A x s).1 = .ok r) (hstatus : r.status = 201) :
    ∃ d, decoded A req (fun v => stated (revocationFromValue A.crates.signatif v)) = .ok d ∧
      A.crates.signatif.ledgerRevocations (respond A x s).2.ledger =
        A.crates.signatif.ledgerRevocations s.ledger ++ [d] := by
  have hroute : router x.method x.path = some .revocations := by
    rw [hmethod, hpath]
    rfl
  rw [respond_routed hroute hreq (by rw [hmethod]; decide)] at h ⊢
  obtain ⟨d, record, hdecoded, hcall⟩ := created_handle
    (fun v => states_stated (returns_revocationFromValue v))
    (fun r s => states_calling declarationRefusal_status _) h hstatus
  have haccepted : (s.declareRevocation A.crates.signatif (x.moment.records 0) d).1 = .ok record :=
    lift_eq_ok (mapErr_eq_ok (congrArg Prod.fst hcall))
  have hstore := congrArg Prod.snd hcall
  refine ⟨d, hdecoded, ?_⟩
  rcases declareRevocation_cases (S := A.crates.signatif) (s := s) (t := x.moment.records 0) d with
    ⟨e, hrefused⟩ | ⟨hap, hrecorded⟩
  · rw [hrefused] at haccepted
    cases haccepted
  · obtain ⟨a, hrecorded⟩ := hrecorded
    rw [hrecorded] at hstore
    have hserved : (serve A x.order req x.moment s .revocations).2 = _ := hstore.symm
    rw [hserved]
    exact applyOp_declared hL hap

theorem revocation_created {x : Arrival} (h : Posting A .revocations text x)
    (hread : A.crates.json.fromStr text = .ok v)
    (hrevocation : revocationFromValue A.crates.signatif v = .ok d)
    (haccepted : ∃ a, (s.declareRevocation A.crates.signatif (x.moment.records 0) d).1 = .ok a) :
    ∃ req r, x.request = some req ∧
      decoded A req (fun v => stated (revocationFromValue A.crates.signatif v)) = .ok d ∧
      (respond A x s).1 = .ok r ∧ r.status = 201 := by
  obtain ⟨req, hreq, hdecoded⟩ := h.decoded (fun v =>
    stated (revocationFromValue A.crates.signatif v)) hread (by rw [hrevocation]; rfl)
  obtain ⟨hmethod, hpath, -⟩ := h
  obtain ⟨a, haccepted⟩ := haccepted
  have hroute : router x.method x.path = some .revocations := by
    rw [hmethod, hpath]
    rfl
  have hcall : calling declarationRefusal (s.declareRevocation A.crates.signatif
      (x.moment.records 0) d) = (.ok a, (s.declareRevocation A.crates.signatif
        (x.moment.records 0) d).2) := by
    rw [calling, haccepted]
    rfl
  refine ⟨req, ?_⟩
  rw [respond_routed hroute hreq (by rw [hmethod]; decide), serve, Api.declareRevocation,
    handle_ok hdecoded hcall, Prod.map, answer]
  exact ⟨_, hreq, hdecoded, rfl, rfl⟩

theorem canonical_quorumView (v : Option QuorumVerdict) (q : QuorumAttestation V) :
    (quorumView S v q).Canonical P (n + 3) := by
  apply canonical_fields
  exact ⟨trivial, trivial, canonical_option fun _ _ => trivial, canonical_option fun _ _ => trivial,
    canonical_option fun _ _ => trivial, trivial, canonical_slots _⟩

theorem canonical_revocationView (hS : S.Lawful P) (graph : V.TrustGraph)
    (knownBy : Option Timestamp) (asOf : Timestamp) (seq : Nat) (r : Revocation V) :
    (revocationView S graph knownBy asOf seq r).Canonical P (n + 102) := by
  apply canonical_fields
  exact ⟨trivial, canonical_subject hS _, canonical_reason _, trivial, trivial,
    canonical_interval _, canonical_option fun _ _ => canonical_quorumView _ _, trivial, trivial,
    trivial, trivial, trivial⟩

theorem canonical_semanticsDoc : semanticsDoc.Canonical P (n + 2) := by
  apply canonical_fields
  simp [List.Forall]

theorem canonical_revocationsDoc (hS : S.Lawful P) (at_ : Option Timestamp) (q : RevocationQuery)
    (s : State V) (asOf : Timestamp) : (revocationsDoc S at_ q s asOf).Canonical P 127 := by
  have hquery : (Value.object [("at", strOrNull (at_.map Timestamp.toString)),
      ("known_by", strOrNull (q.knownBy.map Timestamp.toString)), ("subject", strOrNull q.subject),
      ("retroactive", boolOrNull q.retroactive),
      ("window", .ofOption (q.window.map windowView))]).Canonical P 126 := by
    apply canonical_fields
    exact ⟨canonical_option fun _ _ => trivial, canonical_option fun _ _ => trivial,
      canonical_option fun _ _ => trivial, canonical_option fun _ _ => trivial,
      canonical_option fun _ _ => canonical_fields ⟨trivial, canonical_option fun _ _ => trivial⟩⟩
  have hviews : (Value.arr (revocationViews S q s asOf)).Canonical P 126 := by
    rw [canonical_arr]
    intro v hv
    obtain ⟨d, -, rfl⟩ := List.mem_map.1 hv
    exact canonical_revocationView hS _ _ _ _ _
  apply canonical_fields
  exact ⟨trivial, canonical_option fun _ _ => trivial, hquery, canonical_semanticsDoc, trivial,
    hviews⟩

theorem Reads.revocations (hC : A.crates.Lawful) (hA : A.Legible) {doc : Value}
    (h : Reads A .revocations req s doc) :
    ∃ q asOf, revocationQuery req.query = .ok q ∧
      (∀ t, parseAt req.query = .ok (some t) → asOf = t) ∧
      (doc.get "revocations").bind Value.asArray =
        some (revocationViews A.crates.signatif q s.toState asOf) := by
  have hread {order : HashOrder} {at_ : Option Timestamp} {asOf : Timestamp} {d : Value}
      (hd : View.doc A order req.query s.toState at_ asOf .revocations = .ok d) :
      ∃ q, revocationQuery req.query = .ok q ∧
        d = revocationsDoc A.crates.signatif at_ q s.toState asOf := by
    obtain ⟨q, hq, hd⟩ := bind_eq_ok hd
    cases hd
    exact ⟨q, hq, rfl⟩
  obtain ⟨order, at_, asOf, hd, hat⟩ := h.viewed (v := .revocations) hA rfl fun _ _ _ _ hd => by
    obtain ⟨q, -, rfl⟩ := hread hd
    exact canonical_revocationsDoc hC.signatif _ _ _ _
  obtain ⟨q, hq, rfl⟩ := hread hd
  refine ⟨q, asOf, hq, hat, ?_⟩
  rw [revocationsDoc, get_object, lookup_fieldsOf]
  rfl

theorem mem_revocationViews {s : State V} {q : RevocationQuery}
    (hl : S.ledgerRevocations s.ledger = before ++ d :: later) (hadmits : q.admits S d = true)
    (asOf : Timestamp) : revocationView S s.graph q.knownBy asOf (before.length + 1) d ∈
      revocationViews S q s asOf := by
  refine List.mem_map.2 ⟨(d, _), List.mem_filter.2 ⟨?_, hadmits⟩, rfl⟩
  rw [hl, List.mk_mem_zipIdx_iff_le_and_getElem?_sub, Nat.add_sub_cancel,
    List.getElem?_append_right (Nat.le_refl _), Nat.sub_self]
  exact ⟨Nat.le_add_left 1 _, rfl⟩

/-- Only the verdict on the quorum is of the graph. -/
theorem revocationView_get {graph graph' : V.TrustGraph} {d : Revocation V} (hkey : key ≠ "quorum")
    (knownBy : Option Timestamp) (asOf : Timestamp) (n : Nat) :
    (revocationView S graph knownBy asOf n d).get key =
      (revocationView S graph' knownBy asOf n d).get key := by
  rw [revocationView, revocationView, get_object, get_object, lookup_fieldsOf, lookup_fieldsOf]
  simp only [List.reverse_cons, List.reverse_nil, List.nil_append, List.cons_append,
    lookup_cons_ite, if_neg hkey]

theorem ledger_later (hL : A.crates.signatif.Ledger)
    (h : A.crates.signatif.ledgerRevocations s.ledger = before ++ [d]) (ys : List Arrival) :
    ∃ later, A.crates.signatif.ledgerRevocations (respondAll A s ys).2.ledger =
      before ++ d :: later := by
  obtain ⟨later, hlater⟩ := respondAll_ledger hL s ys
  refine ⟨later, ?_⟩
  rw [← hlater, h, List.append_assoc]
  rfl

/-- A declaration that is answered as created is listed from then on, whatever else arrives, under
one number, in every answer whose filters admit it; its standing is told by the declaration, the
instant and the cutoff alone, and only the verdict on its quorum is that of the graph then. -/
theorem declared_listed (A : App V) (hC : A.crates.Lawful) (hA : A.Legible)
    (hL : A.crates.signatif.Ledger) (s : Store V) (x : Arrival) (req : Request) (r : Response)
    (hmethod : x.method = .post) (hpath : x.path = .revocations) (hreq : x.request = some req)
    (hr : (respond A x s).1 = .ok r) (hstatus : r.status = 201) :
    ∃ d n, decoded A req (fun v => stated (revocationFromValue A.crates.signatif v)) = .ok d ∧
      (∀ graph graph' knownBy asOf key, key ≠ "quorum" →
        (revocationView A.crates.signatif graph knownBy asOf n d).get key =
          (revocationView A.crates.signatif graph' knownBy asOf n d).get key) ∧
      ∀ ys asked doc, Reads A .revocations asked (respondAll A (respond A x s).2 ys).2 doc →
      ∃ q asOf vs, revocationQuery asked.query = .ok q ∧
        (∀ t, parseAt asked.query = .ok (some t) → asOf = t) ∧
        (doc.get "revocations").bind Value.asArray = some vs ∧
        (q.admits A.crates.signatif d = true → revocationView A.crates.signatif
          (respondAll A (respond A x s).2 ys).2.graph q.knownBy asOf n d ∈ vs) := by
  obtain ⟨d, hdecoded, hledger⟩ := declared_last hL hmethod hpath hreq hr hstatus
  refine ⟨d, (A.crates.signatif.ledgerRevocations s.ledger).length + 1, hdecoded,
    fun _ _ knownBy asOf _ hkey => revocationView_get hkey knownBy asOf _,
    fun ys asked doc hdoc => ?_⟩
  obtain ⟨q, asOf, hq, hat, hvs⟩ := hdoc.revocations hC hA
  refine ⟨q, asOf, _, hq, hat, hvs, fun hadmits => ?_⟩
  obtain ⟨later, hlater⟩ := ledger_later hL hledger ys
  exact mem_revocationViews hlater hadmits asOf

open Reference

def ceasing : Revocation vocabulary :=
  ⟨.node "issuer", .cessation, (86400 : Int), "root", ⟨(86400 : Int), none⟩, none⟩

theorem ceasing_round_trip :
    revocationFromValue signatif (revocationToValue signatif ceasing) = .ok ceasing := by
  have hday : OnClock signatif (86400 : Int) := by
    refine ⟨⟨86400⟩, ?_, rfl⟩
    rw [Timestamp.InYears]
    decide
  apply revocation_round_trip signatif_lawful
  · exact ⟨fun t ht => (by cases ht), fun q hq => (by cases hq)⟩
  · exact ⟨trivial, hday, hday, fun t ht => (by cases ht)⟩

/-- Whatever arrives after it, the declaration is read under its number. -/
theorem declared_listed_ceasing :
    let s := (respond app (posted .revocations
      (revocationToValue signatif ceasing).toStringPretty) (storeOf crates [] [])).2
    ∃ d n, ∀ ys doc, Reads app .revocations ⟨∅, ∅, ""⟩ (respondAll app s ys).2 doc →
      ∃ asOf vs, (doc.get "revocations").bind Value.asArray = some vs ∧
        revocationView signatif (respondAll app s ys).2.graph none asOf n d ∈ vs := by
  have haccepted : ∃ a, ((storeOf crates [] []).declareRevocation signatif (noon 0) ceasing).1 =
      .ok a := ⟨_, rfl⟩
  obtain ⟨req, r, hreq, -, hr, hstatus⟩ := revocation_created (s := storeOf crates [] [])
    (posting_posted .revocations (revocationToValue signatif ceasing).toStringPretty)
    (app_legible _ (canonical_revocation signatif_lawful ceasing)) ceasing_round_trip haccepted
  obtain ⟨d, n, -, -, hlisted⟩ := declared_listed app crates_lawful app_legible reference_ledger
    (storeOf crates [] []) _ req r rfl rfl hreq hr hstatus
  refine ⟨d, n, fun ys doc hdoc => ?_⟩
  obtain ⟨q, asOf, vs, hq, -, hvs, hview⟩ := hlisted ys _ doc hdoc
  have hall : revocationQuery ∅ = .ok ⟨none, none, none, none⟩ := rfl
  rw [hall] at hq
  cases hq
  exact ⟨asOf, vs, hvs, hview rfl⟩

end UnidppTrust
