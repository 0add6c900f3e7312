import UnidppTrust.Locking
import UnidppTrust.Service

namespace UnidppTrust
open Rust Json Api Locking
set_option autoImplicit true

variable {V : Vocabulary} (A : App V)

/-- What a handler decides while it holds the lock, unless it panics. -/
def underLock (now : Timestamp) (x : Outcome Refusal Doc × Store V) :
    Option (Outcome Empty Response) × Store V :=
  match x.1 with
  | .ok d => (some (answer A now (.ok d)), x.2)
  | .error (.err r) => (some (answer A now (fail r)), x.2)
  | .error .abort => (none, x.2)

/-- A handler that reads its request, and takes the lock for what it does with it. -/
def planOf (now : Timestamp) (request : Outcome Refusal α)
    (inside : α → Store V → Outcome Refusal Doc × Store V) :
    Plan (Store V) (Outcome Empty Response) :=
  match request with
  | .ok a => .locked fun s => underLock A now (inside a s)
  | .error e => .free (answer A now (.error e))

def mutation (req : Request) (now : Timestamp) (decode : Value → Outcome Refusal α)
    (call : α → Store V → Outcome Refusal (AuditRecord V) × Store V)
    (doc : α → AuditRecord V → Store V → Value) : Plan (Store V) (Outcome Empty Response) :=
  planOf A now (decoded A req decode) fun a s => followed (call a s) fun r s =>
    (.ok ⟨201, doc a r s, now, .noStore⟩, s)

def reading (now : Timestamp) (request : Outcome Refusal α)
    (doc : α → Store V → Outcome Refusal Doc) : Plan (Store V) (Outcome Empty Response) :=
  planOf A now request fun a s => (doc a s, s)

def viewing (query : StringMap String) (now : Timestamp) (request : Outcome Refusal α)
    (doc : α → State V → Option Timestamp → Timestamp → Outcome Refusal Value) :
    Plan (Store V) (Outcome Empty Response) :=
  reading A now
    (do
      let at_ ← parseAt query
      let a ← request
      .ok (at_, a))
    fun x s => do
      let asOf := x.1.getD now
      let d ← doc x.2 s.toState x.1 asOf
      .ok ⟨200, d, asOf, cacheFor x.1⟩

def viewPlan (order : HashOrder) (query : StringMap String) (now : Timestamp) :
    View → Plan (Store V) (Outcome Empty Response)
  | .graph => viewing A query now (.ok ()) fun _ s _ asOf => Api.graph A s asOf
  | .anchorBundle =>
    viewing A query now
      (okOr (optQuery query "jurisdiction")
        (badRequest "`jurisdiction` query parameter is required"))
      fun jur s _ asOf => do
        let list ← findList s jur
        .ok (bundleDoc A.crates.signatif jur list s.master asOf)
  | .trustLists =>
    viewing A query now (.ok (listFilter query)) fun f s _ asOf =>
      .ok (listsDoc A.crates.signatif order f s asOf)
  | .trustListOne jur =>
    viewing A query now (.ok jur) fun jur s _ asOf => Api.trustListOne A jur s asOf
  | .masterList => viewing A query now (.ok ()) fun _ s _ asOf => Api.masterList A s asOf
  | .revocations =>
    viewing A query now (revocationQuery query) fun q s at_ asOf =>
      .ok (revocationsDoc A.crates.signatif at_ q s asOf)

def operatorPlan (order : HashOrder) (node : String) (query : StringMap String)
    (now : Timestamp) : Plan (Store V) (Outcome Empty Response) :=
  reading A now
    (do
      let at_ ← parseAt query
      let id ← mapErr (fun _ => badRequest ("`" ++ node ++ "` is not a valid operator node id"))
        (lift (A.crates.signatif.nodeIdNew node))
      .ok (at_, id))
    fun x s => do
      let dn ← okOr (A.crates.signatif.graphNode s.graph x.2)
        (notFound ("no operator `" ++ node ++ "`"))
      .ok ⟨200, operatorDoc A.crates.signatif order s.toState dn x.2 (x.1.getD now),
        x.1.getD now, .current⟩

/-- Where the handlers take the lock; what needs no store is answered without it. -/
def routePlan (order : HashOrder) (req : Request) (m : Moment) :
    Route → Plan (Store V) (Outcome Empty Response)
  | .discovery => .free (answer A m.now (.ok ⟨200, A.discovery, m.now, .current⟩))
  | .healthz => .free (answer A m.now (.ok (healthz m.now)))
  | .keyring => .free (answer A m.now (.ok (Api.keyring A m.now)))
  | .contractYaml => .free (.ok (openapiYaml A))
  | .view v => viewPlan A order req.query m.now v
  | .operator node => operatorPlan A order node req.query m.now
  | .evidence =>
    reading A m.now (.ok ()) fun _ s => .ok (evidenceCatalogue order m.now s.toState)
  -- the lock is released before the response is built, which may panic
  | .evidenceOne id => .locked fun s =>
    (some (evidenceRelease A id req m s).1, (evidenceRelease A id req m s).2)
  | .adminLog =>
    reading A m.now (requireAdmin A req) fun _ s =>
      .ok ⟨200, logJson A.crates.signatif s.log (logLimit req.query) (logOffset req.query), m.now,
        .current⟩
  | .adminEvidence =>
    mutation A req m.now decodeEvidence
      (fun e s => calling storeError (s.registerEvidence A.crates.signatif (m.records 0) e))
      fun e r s => withSeq r.seq ((s.evidence[e.id]?.map Evidence.metaJson).getD (.obj []))
  | .nodes =>
    mutation A req m.now (fun v => stated (nodeFromValue A.crates.signatif v))
      (fun node s => calling storeError (s.registerNode A.crates.signatif (m.records 0) node))
      fun node r _ => withSeq r.seq (nodeToValue A.crates.signatif node)
  | .edges =>
    mutation A req m.now (fun v => stated (edgeFromValue A.crates.signatif v))
      (fun cred s => calling storeError (s.addEdge A.crates.signatif (m.records 0) cred))
      fun cred r _ => withSeq r.seq (edgeToValue A.crates.signatif cred)
  | .trustLists =>
    mutation A req m.now decodeList (registerList A m)
      fun l r _ => .object [("jurisdiction", .str (toAsciiUppercase l.jurisdiction)),
        ("framework", strOrNull l.framework), ("audit_seq", .u64 r.seq),
        ("as_of", .str m.now.toString)]
  | .trustListEntries jur =>
    mutation A req m.now (fun v => stated (trustEntryFromValue A.crates.signatif v))
      (fun e s => calling storeError (s.upsertTrustEntry A.crates.signatif (m.records 0) jur e.node
        e.notBefore e.supersededAt))
      fun e r _ => .object [("jurisdiction", .str jur),
        ("node", .str (A.crates.signatif.nodeIdStr e.node)),
        ("not_before", .str (A.crates.signatif.timeStr e.notBefore)),
        ("superseded_at", strOrNull (e.supersededAt.map A.crates.signatif.timeStr)),
        ("audit_seq", .u64 r.seq), ("as_of", .str m.now.toString)]
  | .masterListWitnesses =>
    mutation A req m.now (decodeWitnesses A)
      (fun w s => calling storeError
        (s.setWitnesses A.crates.signatif (m.records 0) w.m w.witnesses))
      fun w r _ => .object [("m", .u64 w.m), ("k", .usize w.witnesses.length),
        ("witnesses", witnessesToValue A.crates.signatif
          (A.crates.signatif.masterNew w.m (Std.ExtTreeMap.ofList w.witnesses compare))),
        ("audit_seq", .u64 r.seq), ("as_of", .str m.now.toString)]
  | .masterListEntries =>
    mutation A req m.now (fun v => stated (masterEntryFromValue A.crates.signatif v))
      (fun e s => calling storeError (s.upsertMasterEntry A.crates.signatif (m.records 0) e))
      fun e r _ => .object [("node", .str (A.crates.signatif.nodeIdStr e.node)),
        ("attestations",
          .arr (e.attestations.map (witnessAttestationToValue A.crates.signatif))),
        ("audit_seq", .u64 r.seq), ("as_of", .str m.now.toString)]
  | .revocations =>
    mutation A req m.now (fun v => stated (revocationFromValue A.crates.signatif v))
      (fun r s => calling declarationRefusal
        (s.declareRevocation A.crates.signatif (m.records 0) r))
      fun d r _ => .object [("subject", revokedSubjectToValue A.crates.signatif d.subject),
        ("reason", reasonToValue A.crates.signatif d.reason),
        ("declared_at", .str (A.crates.signatif.timeStr d.declaredAt)),
        ("declared_by", .str (A.crates.signatif.nodeIdStr d.declaredBy)),
        ("window", intervalToValue A.crates.signatif d.window), ("audit_seq", .u64 r.seq),
        ("as_of", .str m.now.toString)]

def plan (x : Arrival) : Plan (Store V) (Outcome Empty Response) :=
  match router x.method x.path, x.request with
  | some route, some req =>
    (routePlan A x.order req x.moment route).map
      (·.map fun r => if x.method = .head then { r with body := [] } else r)
  | _, _ => .free (.ok x.fallback)

variable {A}

theorem underLock_states (now : Timestamp) {x : Outcome Refusal Doc × Store V} (h : States x.1) :
    underLock A now x = (some (answer A now x.1), x.2) := by
  obtain ⟨y, s⟩ := x
  cases y with
  | ok d => rfl
  | error e =>
    obtain ⟨f, rfl, -⟩ := h e rfl
    rfl

theorem planOf_run (now : Timestamp) (request : Outcome Refusal α)
    {inside : α → Store V → Outcome Refusal Doc × Store V} (h : ∀ a s, States (inside a s).1)
    (s : Store V) :
    (planOf A now request inside).run s =
      (some (answer A now (followed (request, s) inside).1), (followed (request, s) inside).2) := by
  cases request with
  | ok a => exact underLock_states now (h a s)
  | error e => rfl

theorem mutation_run (req : Request) (now : Timestamp) {decode : Value → Outcome Refusal α}
    {call : α → Store V → Outcome Refusal (AuditRecord V) × Store V}
    {doc : α → AuditRecord V → Store V → Value} (hcall : ∀ a s, States (call a s).1)
    (s : Store V) :
    (mutation A req now decode call doc).run s =
      (some (answer A now (handle A req now s decode call doc).1),
        (handle A req now s decode call doc).2) := by
  rw [handle_followed]
  exact planOf_run now _ (fun a s => states_followed (hcall a s) fun r s => states_ok _) s

theorem reading_run (now : Timestamp) (request : Outcome Refusal α)
    {doc : α → Store V → Outcome Refusal Doc} (h : ∀ a s, States (doc a s)) (s : Store V) :
    (reading A now request doc).run s =
      (some (answer A now (request >>= fun a => doc a s)), s) := by
  rw [reading, planOf_run now request (fun a s => h a s)]
  cases request <;> rfl

theorem viewing_run (query : StringMap String) (now : Timestamp) {request : Outcome Refusal α}
    {doc : α → State V → Option Timestamp → Timestamp → Outcome Refusal Value}
    (h : ∀ a s at_ asOf, States (doc a s at_ asOf)) (s : Store V) :
    (viewing A query now request doc).run s =
      (some (answer A now (readAt query now fun at_ asOf =>
        request >>= fun a => doc a s.toState at_ asOf)), s) := by
  rw [viewing, reading_run now _ fun x s => (h _ _ _ _).bind fun d => states_ok _, readAt]
  cases parseAt query with
  | error e => rfl
  | ok at_ => cases request <;> rfl

theorem viewPlan_run (order : HashOrder) (query : StringMap String) (now : Timestamp) (v : View)
    (s : Store V) :
    (viewPlan A order query now v).run s =
      (some (answer A now (readAt query now fun at_ asOf =>
        v.doc A order query s.toState at_ asOf)), s) := by
  cases v <;> rw [viewPlan] <;> refine (viewing_run query now ?_ s).trans rfl
  case anchorBundle => exact fun jur s _ _ => (states_findList s jur).bind fun _ => states_ok _
  case trustListOne => exact fun jur s _ _ => (states_findList s jur).bind fun _ => states_ok _
  all_goals exact fun _ _ _ _ => states_ok _

theorem operatorPlan_run (order : HashOrder) (node : String) (query : StringMap String)
    (now : Timestamp) (s : Store V) :
    (operatorPlan A order node query now).run s =
      (some (answer A now (operatorView A order node query now s.toState)), s) := by
  rw [operatorPlan, reading_run now _ fun x s =>
    (states_okOr (notFound_status _)).bind fun dn => states_ok _, operatorView]
  cases parseAt query with
  | error e => rfl
  | ok at_ => cases A.crates.signatif.nodeIdNew node <;> rfl

/-- No handler panics under the lock, and run alone it is the handler. -/
theorem routePlan_run (order : HashOrder) (req : Request) (m : Moment) (route : Route)
    (s : Store V) :
    (routePlan A order req m route).run s =
      (some (serve A order req m s route).1, (serve A order req m s route).2) := by
  cases route with
  | discovery => rfl
  | healthz => rfl
  | keyring => rfl
  | contractYaml => rfl
  | view v => exact viewPlan_run order req.query m.now v s
  | operator node => exact operatorPlan_run order node req.query m.now s
  | evidence => exact reading_run m.now _ (fun _ _ => states_ok _) s
  | evidenceOne id => rfl
  | adminLog => exact reading_run m.now _ (fun _ _ => states_ok _) s
  | adminEvidence =>
    rw [routePlan, serve, Api.registerEvidence, Prod.map]
    exact mutation_run req m.now (fun _ _ => states_calling storeError_status _) s
  | nodes =>
    rw [routePlan, serve, Api.registerNode, Prod.map]
    exact mutation_run req m.now (fun _ _ => states_calling storeError_status _) s
  | edges =>
    rw [routePlan, serve, Api.addEdge, Prod.map]
    exact mutation_run req m.now (fun _ _ => states_calling storeError_status _) s
  | trustLists =>
    rw [routePlan, serve, Api.registerTrustList, Prod.map]
    exact mutation_run req m.now (fun l s => states_registerList m l s) s
  | trustListEntries jur =>
    rw [routePlan, serve, Api.upsertTrustEntry, Prod.map]
    exact mutation_run req m.now (fun _ _ => states_calling storeError_status _) s
  | masterListWitnesses =>
    rw [routePlan, serve, Api.setWitnesses, Prod.map]
    exact mutation_run req m.now (fun _ _ => states_calling storeError_status _) s
  | masterListEntries =>
    rw [routePlan, serve, Api.upsertMasterEntry, Prod.map]
    exact mutation_run req m.now (fun _ _ => states_calling storeError_status _) s
  | revocations =>
    rw [routePlan, serve, Api.declareRevocation, Prod.map]
    exact mutation_run req m.now (fun _ _ => states_calling declarationRefusal_status _) s

theorem plan_routed {x : Arrival} (hroute : router x.method x.path = some route)
    (hreq : x.request = some req) :
    plan A x = (routePlan A x.order req x.moment route).map
      (·.map fun r => if x.method = .head then { r with body := [] } else r) := by
  rw [plan, hroute, hreq]

theorem plan_run (x : Arrival) (s : Store V) :
    (plan A x).run s = (some (respond A x s).1, (respond A x s).2) := by
  rw [plan, respond]
  cases router x.method x.path with
  | none => rfl
  | some route =>
    cases x.request with
    | none => rfl
    | some req =>
      rw [Plan.run_map, routePlan_run]
      rfl

theorem serial_respond (A : App V) (s : Store V) (xs : List Arrival) :
    serial (respond A) s xs = respondAll A s xs := by
  induction xs generalizing s with
  | nil => rfl
  | cons x xs ih =>
    rw [serial, respondAll, ih]

/-- However requests interleave, the lock is never poisoned, nobody panics, and what has been
decided is as if the requests had come one by one, in an order to which later ones are added at the
end. -/
theorem requests_linearize (A : App V) (s : Store V)
    (c c' : Config Arrival (Store V) (Outcome Empty Response))
    (h : Run (plan A) (.start s) c) (h' : Run (plan A) c c') :
    ∃ done more, Linearized (respond A) s c done ∧ Linearized (respond A) s c' (done ++ more) ∧
      respondAll A s ((done ++ more).map (·.2.1)) = ((done ++ more).map (·.2.2), c'.state) := by
  obtain ⟨done, hdone⟩ := (linearized_start (respond A) s).run plan_run h
  obtain ⟨more, hmore⟩ := hdone.run plan_run h'
  exact ⟨done, more, hdone, hmore, (serial_respond A s _).symm.trans hmore.serial⟩

/-- The request is for a document under its scope, whose texts cannot stand in headers. -/
def HeldBack (s : State V) (x : Arrival) : Prop :=
  ∃ id req e, router x.method x.path = some (.evidenceOne id) ∧ x.request = some req ∧
    s.evidence[id]? = some e ∧ e.requiredScope = scopeOf req ∧ ¬ e.InHeaders

theorem respond_abort {k : Signing} (hk : k.Signs A) {x : Arrival} {s : Store V}
    (h : (respond A x s).1 = abort) : HeldBack s.toState x := by
  rw [respond] at h
  split at h
  · rename_i route req hroute hreq
    rw [Prod.map_fst] at h
    rcases handlers_answer A k hk x.order req x.moment s route with
      ⟨r, hr, -⟩ | ⟨-, id, e, rfl, he, hscope, hheaders⟩
    · rw [hr] at h
      cases h
    · exact ⟨id, req, e, hroute, hreq, he, hscope, hheaders⟩
  · cases h

theorem preserved_heldBack (A : App V) (x : Arrival) :
    Preserved A fun s => HeldBack s.toState x := by
  rintro s t op ⟨id, req, e, hroute, hreq, he, hrest⟩
  exact ⟨id, req, e, hroute, hreq, preserved_document A id e s t op he, hrest⟩

/-- No request waits for ever: whatever has come so far can all come to results, which are answers,
unless a document is released whose texts cannot stand in the headers of an answer. -/
theorem requests_complete (A : App V) (s : Store V)
    (c : Config Arrival (Store V) (Outcome Empty Response)) (h : Run (plan A) (.start s) c) :
    ∃ c', Run (plan A) c c' ∧ c'.requests.map (·.1) = c.requests.map (·.1) ∧
      ∀ q ∈ c'.requests, ∃ r, q.2 = .answered r ∧
        ∀ k : Signing, k.Signs A → r = abort → HeldBack c'.state.toState q.1 := by
  obtain ⟨done, hdone⟩ := (linearized_start (respond A) s).run plan_run h
  obtain ⟨c', hrun, harrivals, hanswered⟩ := hdone.completes plan_run
  obtain ⟨more, hmore⟩ := hdone.run plan_run hrun
  refine ⟨c', hrun, harrivals, fun q hq => ?_⟩
  obtain ⟨r, hr⟩ := hanswered q hq
  refine ⟨r, hr, fun k hk habort => ?_⟩
  obtain ⟨i, hi⟩ := List.mem_iff_getElem?.1 hq
  obtain ⟨t, after, hresult, hstate⟩ := hmore.result (x := q.1) (p := q.2) hi (by rw [hr]; rfl)
  have hback := respond_abort hk (hresult.symm.trans habort)
  have hlater := respond_keeps (preserved_heldBack A q.1) hback q.1
  rw [hstate, serial_respond]
  exact respondAll_keeps (preserved_heldBack A q.1) hlater after

open Reference

def healthArrival : Arrival :=
  ⟨.get, .healthz, some ⟨∅, ∅, ""⟩, ⟨404, [], []⟩, .ascending, ⟨⟨43200⟩, noon⟩⟩

theorem listArrival_locked : ∃ f, plan app listArrival = .locked f := by
  have hroute : router listArrival.method listArrival.path = some .trustLists := rfl
  rw [plan_routed hroute rfl, routePlan, mutation, decoded_listArrival rfl]
  exact ⟨_, rfl⟩

def registering : Config Arrival (Store vocabulary) (Outcome Empty Response) :=
  ⟨storeOf crates [] [], .held 0, [(listArrival, .inside), (healthArrival, .waiting)]⟩

theorem run_registering : Run (plan app) (.start (storeOf crates [] [])) registering := by
  obtain ⟨f, hf⟩ := listArrival_locked
  have harrived : Run (plan app) (.start (storeOf crates [] []))
      ⟨storeOf crates [] [], .open, [(listArrival, .waiting), (healthArrival, .waiting)]⟩ :=
    .tail (.single (.arrive listArrival)) (.arrive healthArrival)
  exact harrived.tail (.enter (i := 0) (x := listArrival) rfl hf rfl)

/-- The one that waits is answered first. -/
theorem run_overtaken : ∃ r, Run (plan app) registering
    ⟨storeOf crates [] [], .held 0, [(listArrival, .inside), (healthArrival, .answered r)]⟩ := by
  have hroute : router healthArrival.method healthArrival.path = some .healthz := rfl
  have hfree : ∃ r, plan app healthArrival = .free r := by
    rw [plan_routed hroute rfl, routePlan]
    exact ⟨_, rfl⟩
  obtain ⟨r, hr⟩ := hfree
  exact ⟨r, .single (.free (i := 1) (x := healthArrival) rfl hr)⟩

theorem requests_linearize_overtaken :
    ∃ r done more, Linearized (respond app) (storeOf crates [] []) registering done ∧
      Linearized (respond app) (storeOf crates [] []) ⟨storeOf crates [] [], .held 0,
        [(listArrival, .inside), (healthArrival, .answered r)]⟩ (done ++ more) ∧
      respondAll app (storeOf crates [] []) ((done ++ more).map (·.2.1)) =
        ((done ++ more).map (·.2.2), storeOf crates [] []) := by
  obtain ⟨r, hr⟩ := run_overtaken
  exact ⟨r, requests_linearize app _ _ _ run_registering hr⟩

def releaseArrival : Arrival :=
  ⟨.get, .evidenceOne "cert", some scopedGet, ⟨404, [], []⟩, .ascending, ⟨⟨43201⟩, noon⟩⟩

def releasing (s : Store vocabulary) : Config Arrival (Store vocabulary) (Outcome Empty Response) :=
  ⟨s, .held 0, [(releaseArrival, .inside), (healthArrival, .waiting)]⟩

theorem run_releasing (s : Store vocabulary) :
    Run (plan (signingApp constantKeys)) (.start s) (releasing s) := by
  have hroute : router releaseArrival.method releaseArrival.path = some (.evidenceOne "cert") :=
    rfl
  have hlocked : ∃ f, plan (signingApp constantKeys) releaseArrival = .locked f := by
    rw [plan_routed hroute rfl, routePlan]
    exact ⟨_, rfl⟩
  obtain ⟨f, hf⟩ := hlocked
  have harrived : Run (plan (signingApp constantKeys)) (.start s)
      ⟨s, .open, [(releaseArrival, .waiting), (healthArrival, .waiting)]⟩ :=
    .tail (.single (.arrive releaseArrival)) (.arrive healthArrival)
  exact harrived.tail (.enter (i := 0) (x := releaseArrival) rfl hf rfl)

theorem requests_complete_releasing :
    ∃ c', Run (plan (signingApp constantKeys))
        (releasing (postedStore constantKeys "text/plain\n")) c' ∧
      c'.requests.map (·.1) = [releaseArrival, healthArrival] ∧
      ∀ q ∈ c'.requests, ∃ r, q.2 = .answered r ∧
        ∀ k : Signing, k.Signs (signingApp constantKeys) → r = abort →
          HeldBack c'.state.toState q.1 :=
  requests_complete (signingApp constantKeys) _ _ (run_releasing _)

end UnidppTrust
