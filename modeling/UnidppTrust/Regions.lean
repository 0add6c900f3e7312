import UnidppTrust.Releases
import UnidppTrust.Service
import UnidppTrust.Shuffle

namespace UnidppTrust
open Rust Json Api
set_option autoImplicit true

variable {V : Vocabulary} {S : Signatif V} {A : App V}

/-- A region of the state. The declarations are in one with the graph that judges them. -/
inductive Region where
  | trust
  | lists
  | master
  | evidence
  deriving DecidableEq

def Region.Same : Region → State V → State V → Prop
  | .trust, s, t => s.graph = t.graph ∧ s.ledger = t.ledger
  | .lists, s, t => s.trustLists = t.trustLists ∧ s.frameworks = t.frameworks
  | .master, s, t => s.master = t.master
  | .evidence, s, t => s.evidence = t.evidence

theorem same_equivalence (r : Region) : Equivalence (r.Same (V := V)) := by
  cases r with
  | trust =>
    exact ⟨fun _ => ⟨rfl, rfl⟩, fun h => ⟨h.1.symm, h.2.symm⟩,
      fun h h' => ⟨h.1.trans h'.1, h.2.trans h'.2⟩⟩
  | lists =>
    exact ⟨fun _ => ⟨rfl, rfl⟩, fun h => ⟨h.1.symm, h.2.symm⟩,
      fun h h' => ⟨h.1.trans h'.1, h.2.trans h'.2⟩⟩
  | master => exact ⟨fun _ => rfl, fun h => h.symm, fun h h' => h.trans h'⟩
  | evidence => exact ⟨fun _ => rfl, fun h => h.symm, fun h h' => h.trans h'⟩

theorem eq_of_same {s t : State V} (h : ∀ r : Region, r.Same s t) : s = t := by
  obtain ⟨hgraph, hledger⟩ := h .trust
  obtain ⟨hlists, hframeworks⟩ := h .lists
  have hmaster : s.master = t.master := h .master
  have hevidence : s.evidence = t.evidence := h .evidence
  cases s
  cases t
  congr

def Part.region : Part → Option Region
  | .graph | .ledger => some .trust
  | .lists => some .lists
  | .master => some .master
  | .evidence => some .evidence
  | .none => .none

theorem same_sameBut {s t : State V} {p : Part} {r : Region} (h : s.SameBut p t)
    (hr : p.region ≠ some r) : r.Same s t := by
  have hne (q : Part) (hq : q.region = some r) : p ≠ q := fun hp => hr (hp ▸ hq)
  cases r with
  | trust => exact ⟨(h.graph (hne _ rfl)).symm, (h.ledger (hne _ rfl)).symm⟩
  | lists =>
    obtain ⟨hlists, hframeworks⟩ := h.lists (hne _ rfl)
    exact ⟨hlists.symm, hframeworks.symm⟩
  | master => exact (h.master (hne _ rfl)).symm
  | evidence => exact (h.evidence (hne _ rfl)).symm

theorem applyOp_same {s t : State V} {op : Op V} {r : Region} (hr : op.part.region = some r)
    (h : r.Same s t) : r.Same (applyOp S s op).2 (applyOp S t op).2 := by
  cases op with
  | registerNode node =>
    cases hr
    obtain ⟨hgraph, hledger⟩ := h
    simp only [applyOp, applyRegisterNode, hgraph]
    split <;> exact ⟨rfl, hledger⟩
  | addEdge credential =>
    cases hr
    obtain ⟨hgraph, hledger⟩ := h
    simp only [applyOp, hgraph]
    exact ⟨rfl, hledger⟩
  | registerTrustList jurisdiction framework =>
    cases hr
    have hlists := h
    obtain ⟨hl, hf⟩ := h
    simp only [applyOp, hl, hf]
    split
    · exact hlists
    · exact ⟨rfl, rfl⟩
  | upsertTrustEntry jurisdiction node notBefore supersededAt =>
    cases hr
    have hlists := h
    obtain ⟨hl, hf⟩ := h
    simp only [applyOp, hl]
    split
    · exact hlists
    · exact ⟨rfl, hf⟩
  | setWitnesses m witnesses =>
    cases hr
    have hmaster : s.master = t.master := h
    simp only [applyOp, hmaster]
    repeat' split
    all_goals first | exact h | exact rfl
  | upsertMasterEntry entry =>
    cases hr
    have hmaster : s.master = t.master := h
    simp only [applyOp, hmaster]
    split
    · exact h
    · exact rfl
  | declareRevocation revocation =>
    cases hr
    have htrust := h
    obtain ⟨hgraph, hledger⟩ := h
    simp only [applyOp, hgraph, hledger]
    split
    · exact htrust
    · exact ⟨rfl, rfl⟩
  | registerEvidence evidence =>
    cases hr
    have hevidence : s.evidence = t.evidence := h
    simp only [applyOp, hevidence]
    split
    · exact h
    · exact rfl
  | evidenceReleased id requester scope => cases hr

/-- Calls over two stores come to the same, and leave the same in a region. -/
def Agree (r : Region) (x y : Except ε α × Store V) : Prop :=
  x.1.map (fun _ => ()) = y.1.map (fun _ => ()) ∧ r.Same x.2.toState y.2.toState

section Calls
variable {s t : Store V} {tick : Tick} {r : Region}

theorem recorded_agree {op : Op V} (hr : op.part.region = some r)
    (h : r.Same s.toState t.toState) : Agree r (s.recorded S tick op) (t.recorded S tick op) :=
  ⟨rfl, applyOp_same hr h⟩

theorem addEdge_agree (h : Region.trust.Same s.toState t.toState)
    (credential : DelegationCredential V) :
    Agree .trust (s.addEdge S tick credential) (t.addEdge S tick credential) := by
  simp only [Store.addEdge, h.1]
  split
  · exact ⟨rfl, h⟩
  · exact recorded_agree rfl h

theorem registerTrustList_agree (h : Region.lists.Same s.toState t.toState)
    (jurisdiction : String) (framework : Option String) :
    Agree .lists (s.registerTrustList S tick jurisdiction framework)
      (t.registerTrustList S tick jurisdiction framework) := by
  simp only [Store.registerTrustList, h.1]
  split
  · exact ⟨rfl, h⟩
  · exact recorded_agree rfl h

theorem upsertTrustEntry_agree (h : Region.lists.Same s.toState t.toState)
    (jurisdiction : String) (node : V.NodeId) (notBefore : V.Time)
    (supersededAt : Option V.Time) :
    Agree .lists (s.upsertTrustEntry S tick jurisdiction node notBefore supersededAt)
      (t.upsertTrustEntry S tick jurisdiction node notBefore supersededAt) := by
  simp only [Store.upsertTrustEntry, h.1]
  split
  · exact ⟨rfl, h⟩
  · exact recorded_agree rfl h

theorem setWitnesses_agree (h : Region.master.Same s.toState t.toState) (m : UInt64)
    (witnesses : List (V.NodeId × V.PublicKey)) :
    Agree .master (s.setWitnesses S tick m witnesses) (t.setWitnesses S tick m witnesses) := by
  simp only [Store.setWitnesses]
  split
  · exact ⟨rfl, h⟩
  · exact recorded_agree rfl h

theorem upsertMasterEntry_agree (h : Region.master.Same s.toState t.toState)
    (entry : MasterListEntry V) :
    Agree .master (s.upsertMasterEntry S tick entry) (t.upsertMasterEntry S tick entry) := by
  have hmaster : s.master = t.master := h
  simp only [Store.upsertMasterEntry, hmaster]
  split
  · exact ⟨rfl, h⟩
  · exact recorded_agree rfl h

theorem declareRevocation_agree (h : Region.trust.Same s.toState t.toState)
    (revocation : Revocation V) :
    Agree .trust (s.declareRevocation S tick revocation)
      (t.declareRevocation S tick revocation) := by
  simp only [Store.declareRevocation, h.1, h.2]
  split
  · exact ⟨rfl, h⟩
  split
  · exact ⟨rfl, h⟩
  · exact recorded_agree rfl h

theorem registerEvidence_agree (h : Region.evidence.Same s.toState t.toState)
    (evidence : Evidence) :
    Agree .evidence (s.registerEvidence S tick evidence)
      (t.registerEvidence S tick evidence) := by
  have hevidence : s.evidence = t.evidence := h
  simp only [Store.registerEvidence, hevidence]
  split
  · exact ⟨rfl, h⟩
  split
  · exact ⟨rfl, h⟩
  split
  · exact ⟨rfl, h⟩
  split
  · exact ⟨rfl, h⟩
  · exact recorded_agree rfl h

theorem calling_agree {x y : Except StoreError (AuditRecord V) × Store V} (h : Agree r x y)
    (refuse : StoreError → Refusal) : Agree r (calling refuse x) (calling refuse y) := by
  obtain ⟨x, s⟩ := x
  obtain ⟨y, t⟩ := y
  obtain ⟨hsame, h⟩ := h
  refine ⟨?_, h⟩
  cases x <;> cases y <;> cases hsame <;> rfl

theorem followed_agree {x : Outcome ε α × Store V} {y : Outcome ε α × Store V}
    {f g : α → Store V → Outcome ε β × Store V} (h : Agree r x y)
    (hf : ∀ a b s t, r.Same s.toState t.toState → Agree r (f a s) (g b t)) :
    Agree r (followed x f) (followed y g) := by
  obtain ⟨x, s⟩ := x
  obtain ⟨y, t⟩ := y
  obtain ⟨hsame, h⟩ := h
  cases x <;> cases y <;> cases hsame
  · exact ⟨rfl, h⟩
  · exact hf _ _ _ _ h

theorem handle_agree (h : r.Same s.toState t.toState) {req : Request} {now : Timestamp}
    {decode : Value → Outcome Refusal α}
    {call : α → Store V → Outcome Refusal (AuditRecord V) × Store V}
    (hcall : ∀ a, Agree r (call a s) (call a t))
    (doc : α → AuditRecord V → Store V → Value) :
    Agree r (handle A req now s decode call doc) (handle A req now t decode call doc) := by
  rw [handle_followed, handle_followed]
  cases decoded A req decode with
  | error f => exact ⟨rfl, h⟩
  | ok a =>
    rw [followed_ok, followed_ok]
    exact followed_agree (hcall a) fun _ _ _ _ h => ⟨rfl, h⟩

theorem applyEntries_agree (h : Region.lists.Same s.toState t.toState) (ticks : Nat → Tick)
    (jur : String) (vs : List Value) :
    Agree .lists (applyEntries A s ticks jur vs) (applyEntries A t ticks jur vs) := by
  induction vs generalizing s t ticks with
  | nil => exact ⟨rfl, h⟩
  | cons v vs ih =>
    rw [applyEntries, applyEntries]
    cases stated (trustEntryFromValue A.crates.signatif v) with
    | error f => exact ⟨rfl, h⟩
    | ok e =>
      rw [followed_ok, followed_ok]
      exact followed_agree (calling_agree (upsertTrustEntry_agree h _ _ _ _) _)
        fun _ _ _ _ h => ih h _

theorem registerList_agree (h : Region.lists.Same s.toState t.toState) (m : Moment)
    (l : ListRequest) : Agree .lists (registerList A m l s) (registerList A m l t) := by
  apply followed_agree (calling_agree (registerTrustList_agree h _ _) _)
  intro _ _ s t h
  apply followed_agree (applyEntries_agree h _ _ _)
  exact fun _ _ _ _ h => ⟨rfl, h⟩

end Calls

/-- The region that a route reads or changes; none for what reads several, or the log. -/
def Api.Route.region : Route → Option Region
  | .nodes | .edges | .revocations | .view .graph | .view .revocations => some .trust
  | .trustLists | .trustListEntries _ | .view .trustLists | .view (.trustListOne _) => some .lists
  | .masterListWitnesses | .masterListEntries | .view .masterList => some .master
  | .adminEvidence | .evidence | .evidenceOne _ => some .evidence
  | .discovery | .healthz | .keyring | .contractYaml | .operator _ | .adminLog
  | .view .anchorBundle => none

def Api.Arrival.region (x : Arrival) : Option Region :=
  (router x.method x.path).bind Route.region

/-- An answer; of one that creates, the status: its document tells the number of the record. -/
def shown (x : Outcome Empty Response) : Outcome Empty Response :=
  x.map fun r => if r.status = 201 then ⟨201, [], []⟩ else r

theorem shown_uncreated {x : Outcome Empty Response} (h : ∀ a, x = .ok a → a.status ≠ 201) :
    shown x = x := by
  cases x with
  | error e => rfl
  | ok a => exact congrArg Except.ok (if_neg (h a rfl))

theorem Posts.region {route : Route} {op : Op V} (h : Posts A req route op) {r : Region}
    (hr : op.part.region = some r) : route.region = some r := by
  cases h with
  | release id => cases hr
  | _ => exact hr

theorem respond_other {x : Arrival} {r : Region} (hr : x.region ≠ some r) (s : Store V) :
    r.Same s.toState (respond A x s).2.toState := by
  obtain ⟨calls, hposted, hstore, -⟩ := respond_served A x s
  rw [hstore]
  clear hstore
  induction calls generalizing s with
  | nil => exact (same_equivalence r).refl _
  | cons c calls ih =>
    have hpart : c.1.part.region ≠ some r := by
      intro hc
      obtain ⟨route, req, hroute, -, hposts, -⟩ := hposted c List.mem_cons_self
      rw [Arrival.region, hroute] at hr
      exact hr (hposts.region hc)
    have hstep : r.Same s.toState (s.mutate A.crates.signatif c.2 c.1).2.toState := by
      rcases mutate_cases A.crates.signatif s c.2 c.1 with ⟨e, hm⟩ | ⟨-, a, hm⟩
      · rw [hm]
        exact (same_equivalence r).refl _
      · rw [hm]
        exact same_sameBut (applyOp_sameBut A.crates.signatif s.toState c.1) hpart
    exact (same_equivalence r).trans hstep
      (ih _ fun d hd => hposted d (List.mem_cons_of_mem c hd))

theorem handle_status {req : Request} {now : Timestamp} {s : Store V}
    {decode : Value → Outcome Refusal α}
    {call : α → Store V → Outcome Refusal (AuditRecord V) × Store V}
    {doc : α → AuditRecord V → Store V → Value} {d : Doc}
    (h : (handle A req now s decode call doc).1 = .ok d) : d.status = 201 := by
  rcases handle_cases A req now s decode call doc with
    ⟨f, -, hx⟩ | ⟨a, -, ⟨f, s', -, hx⟩ | ⟨record, s', -, hx⟩⟩
  all_goals
    rw [hx] at h
    cases h
  rfl

theorem shown_handle {s t : Store V} {r : Region} (h : r.Same s.toState t.toState)
    {req : Request} {now : Timestamp} {decode : Value → Outcome Refusal α}
    {call : α → Store V → Outcome Refusal (AuditRecord V) × Store V}
    (hcall : ∀ a, Agree r (call a s) (call a t)) (doc : α → AuditRecord V → Store V → Value) :
    shown ((handle A req now s decode call doc).map (answer A now) id).1 =
        shown ((handle A req now t decode call doc).map (answer A now) id).1 ∧
      r.Same ((handle A req now s decode call doc).map (answer A now) id).2.toState
        ((handle A req now t decode call doc).map (answer A now) id).2.toState := by
  have hagree : Agree r (handle A req now s decode call doc) (handle A req now t decode call doc) :=
    handle_agree h hcall doc
  obtain ⟨hsame, hleft⟩ := hagree
  refine ⟨?_, hleft⟩
  rw [Prod.map_fst, Prod.map_fst]
  cases hx : (handle A req now s decode call doc).1 with
  | error e =>
    rw [hx] at hsame
    cases hy : (handle A req now t decode call doc).1 with
    | error e' =>
      rw [hy] at hsame
      cases hsame
      rfl
    | ok d' =>
      rw [hy] at hsame
      cases hsame
  | ok d =>
    rw [hx] at hsame
    cases hy : (handle A req now t decode call doc).1 with
    | error e' =>
      rw [hy] at hsame
      cases hsame
    | ok d' =>
      simp only [answer, shown, signed, Except.map, handle_status hx, handle_status hy, if_pos]

theorem view_same {s t : State V} {v : View} {r : Region}
    (hr : (Route.view v).region = some r) (h : r.Same s t) (order : HashOrder)
    (query : StringMap String) (at_ : Option Timestamp) (asOf : Timestamp) :
    v.doc A order query s at_ asOf = v.doc A order query t at_ asOf := by
  cases v with
  | anchorBundle => cases hr
  | graph =>
    cases hr
    simp only [View.doc, Api.graph, h.1]
  | trustLists =>
    cases hr
    simp only [View.doc, Api.trustLists, listsDoc, listViews, State.frameworkOf, h.1, h.2]
  | trustListOne jur =>
    cases hr
    simp only [View.doc, Api.trustListOne, findList, State.frameworkOf, h.1, h.2]
  | masterList =>
    cases hr
    have hmaster : s.master = t.master := h
    simp only [View.doc, Api.masterList, hmaster]
  | revocations =>
    cases hr
    simp only [View.doc, Api.revocations, revocationsDoc, revocationViews, h.1, h.2]

theorem releaseEvidence_same {s t : Store V} (h : Region.evidence.Same s.toState t.toState)
    (tick : Tick) (id : String) (requester : Option String) (scope : String) :
    (s.releaseEvidence S tick id requester scope).1 =
        (t.releaseEvidence S tick id requester scope).1 ∧
      Region.evidence.Same (s.releaseEvidence S tick id requester scope).2.toState
        (t.releaseEvidence S tick id requester scope).2.toState := by
  have hevidence : s.evidence = t.evidence := h
  rw [Store.releaseEvidence, Store.releaseEvidence, hevidence]
  split
  · exact ⟨rfl, h⟩
  split
  · exact ⟨rfl, h⟩
  · exact ⟨rfl, h⟩

theorem evidenceRelease_same {s t : Store V} (h : Region.evidence.Same s.toState t.toState)
    (id : String) (req : Request) (m : Moment) :
    (evidenceRelease A id req m s).1 = (evidenceRelease A id req m t).1 ∧
      Region.evidence.Same (evidenceRelease A id req m s).2.toState
        (evidenceRelease A id req m t).2.toState := by
  obtain ⟨hreply, hsame⟩ := releaseEvidence_same (S := A.crates.signatif) h (m.records 0) id
    (presented req "requester" "x-unidpp-requester") (scopeOf req)
  rw [evidenceRelease, evidenceRelease]
  generalize s.releaseEvidence _ _ _ _ _ = x at hreply hsame ⊢
  generalize t.releaseEvidence _ _ _ _ _ = y at hreply hsame ⊢
  obtain ⟨x, s'⟩ := x
  obtain ⟨y, t'⟩ := y
  cases hreply
  cases x <;> exact ⟨rfl, hsame⟩

/-- What a request is answered, and what it leaves of its region, is told by its region. -/
theorem serve_own {route : Route} {r : Region} (hr : route.region = some r)
    {s t : Store V} (h : r.Same s.toState t.toState) (order : HashOrder) (req : Request)
    (m : Moment) :
    shown (serve A order req m s route).1 = shown (serve A order req m t route).1 ∧
      r.Same (serve A order req m s route).2.toState (serve A order req m t route).2.toState := by
  cases route with
  | discovery | healthz | keyring | contractYaml | operator node | adminLog => cases hr
  | view v =>
    refine ⟨?_, h⟩
    simp only [serve, view_same hr h]
  | evidence =>
    cases hr
    have hevidence : s.evidence = t.evidence := h
    refine ⟨?_, h⟩
    rw [serve, serve, evidenceCatalogue, evidenceCatalogue, hevidence]
  | evidenceOne id =>
    cases hr
    obtain ⟨hreply, hsame⟩ := evidenceRelease_same (A := A) h id req m
    exact ⟨congrArg shown hreply, hsame⟩
  | adminEvidence =>
    cases hr
    refine shown_handle h (fun e => ?_) _
    exact calling_agree (registerEvidence_agree h e) _
  | nodes =>
    cases hr
    rw [serve, serve, Api.registerNode, Api.registerNode]
    refine shown_handle h (fun n => ?_) _
    have hr : (Op.registerNode n).part.region = some .trust := rfl
    exact calling_agree (recorded_agree hr h) _
  | edges =>
    cases hr
    rw [serve, serve, Api.addEdge, Api.addEdge]
    refine shown_handle h (fun c => ?_) _
    exact calling_agree (addEdge_agree h c) _
  | trustLists =>
    cases hr
    exact shown_handle h (registerList_agree h m) _
  | trustListEntries jur =>
    cases hr
    rw [serve, serve, Api.upsertTrustEntry, Api.upsertTrustEntry]
    refine shown_handle h (fun e => ?_) _
    exact calling_agree (upsertTrustEntry_agree h _ _ _ _) _
  | masterListWitnesses =>
    cases hr
    rw [serve, serve, Api.setWitnesses, Api.setWitnesses]
    refine shown_handle h (fun w => ?_) _
    exact calling_agree (setWitnesses_agree h _ _) _
  | masterListEntries =>
    cases hr
    rw [serve, serve, Api.upsertMasterEntry, Api.upsertMasterEntry]
    refine shown_handle h (fun e => ?_) _
    exact calling_agree (upsertMasterEntry_agree h e) _
  | revocations =>
    cases hr
    rw [serve, serve, Api.declareRevocation, Api.declareRevocation]
    refine shown_handle h (fun d => ?_) _
    exact calling_agree (declareRevocation_agree h d) _

theorem respond_own {x : Arrival} {r : Region} (hr : x.region = some r) {s t : Store V}
    (h : r.Same s.toState t.toState) :
    shown (respond A x s).1 = shown (respond A x t).1 ∧
      r.Same (respond A x s).2.toState (respond A x t).2.toState := by
  rw [Arrival.region, Option.bind_eq_some_iff] at hr
  obtain ⟨route, hroute, hr⟩ := hr
  rw [respond, respond, hroute]
  cases x.request with
  | none => exact ⟨rfl, h⟩
  | some req =>
    obtain ⟨hshown, hleft⟩ := serve_own (A := A) hr h x.order req x.moment
    refine ⟨?_, hleft⟩
    by_cases hhead : x.method = .head
    · -- A HEAD is of a route that creates nothing.
      have hread : route.mutating = false := by
        rw [hhead] at hroute
        exact getRoute_read hroute
      have hkept (u : Store V) : shown (serve A x.order req x.moment u route).1 =
          (serve A x.order req x.moment u route).1 := by
        apply shown_uncreated
        intro a ha hstatus
        have hcreated := created_mutating A x.order req x.moment u route ha hstatus
        rw [hread] at hcreated
        cases hcreated
      rw [hkept, hkept] at hshown
      simp only [Prod.map_fst, hshown]
    · simp only [Prod.map_fst, if_neg hhead]
      exact (congrArg shown (congrFun Except.map_id _)).trans
        (hshown.trans (congrArg shown (congrFun Except.map_id _)).symm)

theorem respond_confined (A : App V) : Shuffle.Confined (fun s x => respond A x s) Arrival.region
    (fun r s t => r.Same s.toState t.toState) shown where
  equivalence r := (same_equivalence r).comap _
  other s _ _ hr := respond_other hr s
  own _ _ _ _ hr h := respond_own hr h

theorem run_respondAll (A : App V) (s : Store V) (xs : List Arrival) :
    Shuffle.run (fun s x => respond A x s) s xs =
      (xs.zip (respondAll A s xs).1, (respondAll A s xs).2) := by
  induction xs generalizing s with
  | nil => rfl
  | cons x xs ih =>
    rw [Shuffle.run, ih]
    rfl

/-- Only the order within a region matters: however the requests of different regions come
interleaved, they leave the same state, and those of a region are answered the same. -/
theorem requests_commute (A : App V) (s t : Store V) (hs : s.toState = t.toState)
    (xs ys : List Arrival)
    (h : ∀ r : Region, xs.filter (·.region = some r) = ys.filter (·.region = some r)) :
    (respondAll A s xs).2.toState = (respondAll A t ys).2.toState ∧
      ∀ r : Region,
        Shuffle.answers Arrival.region shown r (xs.zip (respondAll A s xs).1) =
          Shuffle.answers Arrival.region shown r (ys.zip (respondAll A t ys).1) := by
  have hsame (r : Region) : r.Same s.toState t.toState :=
    hs ▸ (same_equivalence r).refl s.toState
  have hregion (r : Region) := (respond_confined A).shuffled (hsame r) (h r)
  simp only [run_respondAll] at hregion
  exact ⟨eq_of_same fun r => (hregion r).2, fun r => (hregion r).1⟩

open Reference

def evidenceArrival : Arrival :=
  ⟨.post, .adminEvidence, some (posting "text/plain"), ⟨404, [], []⟩, .ascending,
    ⟨⟨43260⟩, noon⟩⟩

/-- Of a list and a document, either is registered first, and the list is once more. -/
theorem requests_commute_evidence :
    (respondAll app (storeOf crates [] []) [listArrival, evidenceArrival, listArrival]).2.toState =
        (respondAll app (storeOf crates [] [])
          [evidenceArrival, listArrival, listArrival]).2.toState ∧
      ∀ r : Region,
        Shuffle.answers Arrival.region shown r
            ([listArrival, evidenceArrival, listArrival].zip (respondAll app (storeOf crates [] [])
              [listArrival, evidenceArrival, listArrival]).1) =
          Shuffle.answers Arrival.region shown r
            ([evidenceArrival, listArrival, listArrival].zip (respondAll app (storeOf crates [] [])
              [evidenceArrival, listArrival, listArrival]).1) :=
  requests_commute app _ _ rfl _ _ fun r => by cases r <;> rfl

end UnidppTrust
