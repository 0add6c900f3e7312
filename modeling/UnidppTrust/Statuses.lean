import UnidppTrust.Releases
import UnidppTrust.Refusals
import UnidppTrust.Decoders

namespace UnidppTrust
open Rust Json Api
set_option autoImplicit true

variable {V : Vocabulary} {A : App V}

def errorStatuses : List Nat := [400, 401, 403, 404, 409, 422]

def States (x : Outcome Refusal α) : Prop :=
  ∀ e, x = .error e → ∃ f, e = .err f ∧ f.status ∈ errorStatuses

theorem states_ok (a : α) : States (.ok a) := fun _ h => nomatch h

theorem states_fail (h : f.status ∈ errorStatuses) : States (fail f : Outcome Refusal α) := by
  intro e he
  cases he
  exact ⟨f, rfl, h⟩

theorem States.bind {x : Outcome Refusal α} {g : α → Outcome Refusal β} (hx : States x)
    (hg : ∀ a, States (g a)) : States (x >>= g) := by
  cases x with
  | ok a => exact hg a
  | error e => exact fun f h => hx f (by cases h; rfl)

theorem states_mapErr {x : Outcome ε α} {g : ε → Refusal} (hx : Returns x)
    (h : ∀ e, (g e).status ∈ errorStatuses) : States (mapErr g x) := by
  cases x with
  | ok a => exact states_ok a
  | error e =>
    cases e with
    | err e => exact states_fail (h e)
    | abort => exact (hx rfl).elim

theorem badRequest_status (m : String) : (badRequest m).status ∈ errorStatuses := by
  change 400 ∈ errorStatuses
  decide

theorem states_stated {x : Outcome String α} (hx : Returns x) : States (stated x) :=
  states_mapErr hx badRequest_status

theorem states_okOr {x : Option α} (h : f.status ∈ errorStatuses) : States (okOr x f) := by
  cases x with
  | some a => exact states_ok a
  | none => exact states_fail h

theorem states_requireAdmin (req : Request) : States (requireAdmin A req) := by
  unfold requireAdmin
  split
  · exact states_ok _
  · split
    · exact states_ok _
    · apply states_fail
      decide

theorem states_parseBody (body : String) : States (parseBody A body) :=
  states_stated ((returns_lift _).mapErr _)

theorem states_decoded {req : Request} {decode : Value → Outcome Refusal α}
    (h : ∀ v, States (decode v)) : States (decoded A req decode) :=
  (states_requireAdmin req).bind fun _ => (states_parseBody req.body).bind h

theorem storeError_status (e : StoreError) : (storeError e).status ∈ errorStatuses := by
  cases e with
  | conflict m => simp [storeError, conflict, errorStatuses]
  | invalid m => exact badRequest_status m
  | notFound m => simp [storeError, notFound, errorStatuses]

theorem declarationRefusal_status (e : StoreError) :
    (declarationRefusal e).status ∈ errorStatuses := by
  cases e with
  | conflict m => simp [declarationRefusal, conflict, errorStatuses]
  | invalid m => simp [declarationRefusal, unprocessable, errorStatuses]
  | notFound m => simp [declarationRefusal, notFound, errorStatuses]

theorem releaseRefusal_status (e : StoreError) : (releaseRefusal e).status ∈ errorStatuses := by
  cases e with
  | conflict m => simp [releaseRefusal, conflict, errorStatuses]
  | invalid m => simp [releaseRefusal, forbidden, errorStatuses]
  | notFound m => simp [releaseRefusal, notFound, errorStatuses]

theorem states_calling {refuse : StoreError → Refusal}
    (h : ∀ e, (refuse e).status ∈ errorStatuses)
    (x : Except StoreError (AuditRecord V) × Store V) : States (calling refuse x).1 :=
  states_mapErr (returns_lift _) h

theorem states_followed {x : Outcome Refusal α × σ} {f : α → σ → Outcome Refusal β × σ}
    (hx : States x.1) (hf : ∀ a s, States (f a s).1) : States (followed x f).1 := by
  obtain ⟨y, s⟩ := x
  cases y with
  | ok a => exact hf a s
  | error e => exact fun g h => hx g (by cases h; rfl)

theorem states_handle {req : Request} {now : Timestamp} {s : Store V}
    {decode : Value → Outcome Refusal α}
    {call : α → Store V → Outcome Refusal (AuditRecord V) × Store V}
    {doc : α → AuditRecord V → Store V → Value} (hdecode : ∀ v, States (decode v))
    (hcall : ∀ a s, States (call a s).1) : States (handle A req now s decode call doc).1 := by
  rw [handle_followed]
  apply states_followed (states_decoded hdecode)
  intro a s
  apply states_followed (hcall a s)
  intro r s
  exact states_ok _

theorem states_decodeEvidence (v : Value) : States (decodeEvidence v) := by
  unfold decodeEvidence
  refine (states_okOr (badRequest_status _)).bind fun obj => ?_
  refine (states_okOr (badRequest_status _)).bind fun id => ?_
  refine (states_okOr (badRequest_status _)).bind fun scope => ?_
  refine (states_okOr (badRequest_status _)).bind fun hex => ?_
  exact (states_stated (returns_inField _ (returns_hexDecode hex))).bind fun content => states_ok _

theorem states_decodeList (v : Value) : States (decodeList v) := by
  unfold decodeList reqStr validateToken
  refine States.bind ?_ fun raw => States.bind ?_ fun _ => states_ok _
  · split
    · split
      · exact states_fail (badRequest_status _)
      · exact states_ok _
    · exact states_fail (badRequest_status _)
  · split
    · exact states_fail (badRequest_status _)
    · exact states_ok _

theorem returns_witnessesFromValue {S : Signatif V} (v : Value) :
    Returns (witnessesFromValue S v) := by
  have hwitness (w : Value) : Returns (witnessFromValue S w) := by
    rw [witnessFromValue]
    apply (returns_okOr _ _).bind
    intro obj _
    apply (returns_okOr _ _).bind
    intro raw _
    apply (returns_inField "node" (returns_lift _)).bind
    intro node _
    apply (returns_publicFromValue _).bind
    intro key _
    exact returns_ok _
  apply (returns_okOr _ _).bind
  intro arr _
  exact returns_mapM arr fun w _ => hwitness w

theorem states_decodeWitnesses (v : Value) : States (decodeWitnesses A v) := by
  unfold decodeWitnesses
  refine (states_okOr (badRequest_status _)).bind fun m => ?_
  refine (states_okOr (badRequest_status _)).bind fun ws => ?_
  exact (states_stated (returns_witnessesFromValue _)).bind fun w => states_ok _

theorem states_applyEntries (s : Store V) (ticks : Nat → Tick) (jur : String) (vs : List Value) :
    States (applyEntries A s ticks jur vs).1 := by
  induction vs generalizing s ticks with
  | nil => exact states_ok _
  | cons v vs ih =>
    apply states_followed (states_stated (returns_trustEntryFromValue v))
    intro e s
    apply states_followed (states_calling storeError_status _)
    intro r s
    exact ih s _

theorem states_registerList (m : Moment) (l : ListRequest) (s : Store V) :
    States (registerList A m l s).1 := by
  apply states_followed (states_calling storeError_status _)
  intro r s
  apply states_followed (states_applyEntries s _ _ _)
  intro u s
  exact states_ok _

theorem states_parseAt (query : StringMap String) : States (parseAt query) := by
  unfold parseAt
  split
  · exact states_ok _
  · split
    · exact states_ok _
    · exact states_stated (((returns_parse _).bind fun _ _ => returns_ok _).mapErr _)

theorem notFound_status (m : String) : (notFound m).status ∈ errorStatuses := by
  simp [notFound, errorStatuses]

theorem states_map {x : Outcome Refusal α} (h : States x) (g : α → β) : States (x.map g) := by
  cases x with
  | ok a => exact states_ok _
  | error e => exact fun f hf => h f (by cases hf; rfl)

theorem states_parseInstant (label s : String) : States (parseInstant label s) :=
  states_stated ((returns_parse s).mapErr _)

theorem states_parseWindowFilter (query : StringMap String) :
    States (parseWindowFilter query) := by
  unfold parseWindowFilter
  split
  · exact states_ok _
  · split
    · exact states_fail (badRequest_status _)
    · refine (states_parseInstant _ _).bind fun start => ?_
      split
      · exact states_ok _
      · exact (states_parseInstant _ _).bind fun stop => states_ok _

theorem states_revocationQuery (query : StringMap String) : States (revocationQuery query) := by
  unfold revocationQuery
  refine States.bind ?_ fun knownBy => States.bind ?_ fun retroactive =>
    (states_parseWindowFilter query).bind fun window => states_ok _
  · unfold parseKnownBy
    split
    · exact states_ok _
    · exact states_map (states_parseInstant _ _) _
  · unfold parseRetroactive
    split
    · exact states_ok _
    · split
      · exact states_ok _
      · split
        · exact states_ok _
        · exact states_fail (badRequest_status _)

theorem states_findList (s : State V) (jur : String) : States (findList s jur) :=
  states_okOr (notFound_status _)

theorem states_view (order : HashOrder) (query : StringMap String) (s : State V)
    (at_ : Option Timestamp) (asOf : Timestamp) (v : View) :
    States (v.doc A order query s at_ asOf) := by
  cases v with
  | graph => exact states_ok _
  | anchorBundle =>
    refine (states_okOr (badRequest_status _)).bind fun jur => ?_
    exact (states_findList s jur).bind fun list => states_ok _
  | trustLists => exact states_ok _
  | trustListOne jur => exact (states_findList s jur).bind fun list => states_ok _
  | masterList => exact states_ok _
  | revocations => exact (states_revocationQuery query).bind fun q => states_ok _

theorem states_readAt {query : StringMap String} {now : Timestamp}
    {doc : Option Timestamp → Timestamp → Outcome Refusal Value}
    (h : ∀ at_ asOf, States (doc at_ asOf)) : States (readAt query now doc) := by
  refine (states_parseAt query).bind fun at_ => ?_
  exact (h _ _).bind fun d => states_ok _

theorem states_operatorView (order : HashOrder) (node : String) (query : StringMap String)
    (now : Timestamp) (s : State V) : States (operatorView A order node query now s) := by
  refine (states_parseAt query).bind fun at_ => ?_
  refine (states_mapErr (returns_lift _) fun _ => badRequest_status _).bind fun id => ?_
  exact (states_okOr (notFound_status _)).bind fun dn => states_ok _

theorem states_adminLog (req : Request) (now : Timestamp) (s : Store V) :
    States (adminLog A req now s) := (states_requireAdmin req).bind fun _ => states_ok _

theorem states_answer (now : Timestamp) {x : Outcome Refusal Doc} (h : States x) :
    (∃ d, x = .ok d ∧ answer A now x = .ok (signed A d.status d.doc d.asOf d.cache)) ∨
    ∃ f, f.status ∈ errorStatuses ∧ x = .error (.err f) ∧
      answer A now x = .ok (errorResponse A f now) := by
  cases x with
  | ok d => exact .inl ⟨d, rfl, rfl⟩
  | error e =>
    obtain ⟨f, rfl, hf⟩ := h e rfl
    exact .inr ⟨f, hf, rfl, rfl⟩

def Api.Route.success (route : Route) : Nat := if route.mutating then 201 else 200

/-- What a handler comes to: a document with the status of its route, or a stated error. -/
def Responds (A : App V) (now : Timestamp) (status : Nat) (x : Outcome Empty Response) : Prop :=
  (∃ d : Doc, d.status = status ∧ x = .ok (signed A d.status d.doc d.asOf d.cache)) ∨
    ∃ f, f.status ∈ errorStatuses ∧ x = .ok (errorResponse A f now)

theorem responds_answer {now : Timestamp} {x : Outcome Refusal Doc} (h : States x)
    (hstatus : ∀ d, x = .ok d → d.status = status) : Responds A now status (answer A now x) := by
  rcases states_answer _ h with ⟨d, hd, hanswer⟩ | ⟨f, hf, -, hanswer⟩
  · exact .inl ⟨d, hstatus d hd, hanswer⟩
  · exact .inr ⟨f, hf, hanswer⟩

theorem responds_handle {req : Request} {now : Timestamp} {s : Store V}
    {decode : Value → Outcome Refusal α}
    {call : α → Store V → Outcome Refusal (AuditRecord V) × Store V}
    {doc : α → AuditRecord V → Store V → Value} (hdecode : ∀ v, States (decode v))
    (hcall : ∀ a s, States (call a s).1) :
    Responds A now 201 (answer A now (handle A req now s decode call doc).1) := by
  refine responds_answer (states_handle hdecode hcall) fun d hd => ?_
  rcases handle_cases A req now s decode call doc with
    ⟨f, -, hhandle⟩ | ⟨a, -, ⟨f, s', -, hhandle⟩ | ⟨r, s', -, hhandle⟩⟩
  · rw [hhandle] at hd
    cases hd
  · rw [hhandle] at hd
    cases hd
  · rw [hhandle] at hd
    cases hd
    rfl

theorem readAt_status {query : StringMap String} {now : Timestamp}
    {doc : Option Timestamp → Timestamp → Outcome Refusal Value}
    (h : readAt query now doc = .ok d) : d.status = 200 := by
  obtain ⟨at_, -, h⟩ := bind_eq_ok h
  obtain ⟨v, -, h⟩ := bind_eq_ok h
  cases h
  rfl

theorem operatorView_status {order : HashOrder} {query : StringMap String} {now : Timestamp}
    {s : State V} (h : operatorView A order node query now s = .ok d) : d.status = 200 := by
  obtain ⟨at_, -, h⟩ := bind_eq_ok h
  obtain ⟨id, -, h⟩ := bind_eq_ok h
  obtain ⟨dn, -, h⟩ := bind_eq_ok h
  cases h
  rfl

theorem adminLog_status {req : Request} {now : Timestamp} {s : Store V}
    (h : adminLog A req now s = .ok d) : d.status = 200 := by
  obtain ⟨u, -, h⟩ := bind_eq_ok h
  cases h
  rfl

/-- Every handler returns, with its document or a stated error, unless it is a release, which is
built of the registered parts. -/
theorem serve_responds (A : App V) (order : HashOrder) (req : Request) (m : Moment) (s : Store V)
    (route : Route) :
    Responds A m.now route.success (serve A order req m s route).1 ∨
    (route = .contractYaml ∧ (serve A order req m s route).1 = .ok (openapiYaml A)) ∨
    ∃ id e, route = .evidenceOne id ∧ s.evidence[id]? = some e ∧
      e.requiredScope = scopeOf req ∧ (serve A order req m s route).1 = released A m.now e := by
  cases route with
  | contractYaml => exact .inr (.inl ⟨rfl, rfl⟩)
  | evidenceOne id =>
    rw [serve, evidenceRelease]
    cases hrelease : s.releaseEvidence A.crates.signatif (m.records 0) id
        (presented req "requester" "x-unidpp-requester") (scopeOf req) with
    | mk x s' =>
      cases x with
      | error e => exact .inl (.inr ⟨releaseRefusal e, releaseRefusal_status e, rfl⟩)
      | ok e =>
        obtain ⟨he, hscope⟩ := (releaseEvidence_ok_iff s (m.records 0) id _ _ e).1
          (congrArg Prod.fst hrelease)
        exact .inr (.inr ⟨id, e, rfl, he, hscope, rfl⟩)
  | discovery => exact .inl (responds_answer (states_ok _) fun d hd => by cases hd; rfl)
  | healthz => exact .inl (responds_answer (states_ok _) fun d hd => by cases hd; rfl)
  | keyring => exact .inl (responds_answer (states_ok _) fun d hd => by cases hd; rfl)
  | evidence => exact .inl (responds_answer (states_ok _) fun d hd => by cases hd; rfl)
  | view v =>
    exact .inl (responds_answer
      (states_readAt fun at_ asOf => states_view order req.query _ at_ asOf v)
      fun d hd => readAt_status hd)
  | operator node =>
    exact .inl (responds_answer (states_operatorView order node req.query m.now _)
      fun d hd => operatorView_status hd)
  | adminLog =>
    exact .inl (responds_answer (states_adminLog req m.now s) fun d hd => adminLog_status hd)
  | adminEvidence =>
    exact .inl (responds_handle states_decodeEvidence fun e s =>
      states_calling storeError_status _)
  | nodes =>
    exact .inl (responds_handle (fun v => states_stated (returns_nodeFromValue v)) fun n s =>
      states_calling storeError_status _)
  | edges =>
    exact .inl (responds_handle (fun v => states_stated (returns_edgeFromValue v)) fun c s =>
      states_calling storeError_status _)
  | trustLists =>
    exact .inl (responds_handle states_decodeList fun l s => states_registerList m l s)
  | trustListEntries jur =>
    exact .inl (responds_handle (fun v => states_stated (returns_trustEntryFromValue v)) fun e s =>
      states_calling storeError_status _)
  | masterListWitnesses =>
    exact .inl (responds_handle states_decodeWitnesses fun w s =>
      states_calling storeError_status _)
  | masterListEntries =>
    exact .inl (responds_handle (fun v => states_stated (returns_masterEntryFromValue v))
      fun e s => states_calling storeError_status _)
  | revocations =>
    exact .inl (responds_handle (fun v => states_stated (returns_revocationFromValue v))
      fun r s => states_calling declarationRefusal_status _)

/-- Whatever is asked of a service that signs its bodies, a handler answers with the status of its
route, or with one of six stated errors; only the release of a document may abort, whose registered
texts cannot stand in headers. -/
theorem handlers_answer (A : App V) (k : Signing) (hk : k.Signs A) (order : HashOrder)
    (req : Request) (m : Moment) (s : Store V) (route : Route) :
    (∃ r, (serve A order req m s route).1 = .ok r ∧ (r.status = route.success ∨
      ∃ f, f.status ∈ errorStatuses ∧ r = errorResponse A f m.now)) ∨
    ((serve A order req m s route).1 = abort ∧ ∃ id e, route = .evidenceOne id ∧
      s.evidence[id]? = some e ∧ e.requiredScope = scopeOf req ∧ ¬ e.InHeaders) := by
  rcases serve_responds A order req m s route with
    (⟨d, hd, hr⟩ | ⟨f, hf, hr⟩) | ⟨hroute, hr⟩ | ⟨id, e, hroute, he, hscope, hr⟩
  · exact .inl ⟨_, hr, .inl hd⟩
  · exact .inl ⟨_, hr, .inr ⟨f, hf, rfl⟩⟩
  · refine .inl ⟨_, hr, .inl ?_⟩
    rw [hroute]
    rfl
  · obtain ⟨hreleased, haborts⟩ := released_iff hk m.now e
    by_cases hheaders : e.InHeaders
    · obtain ⟨headers, hok⟩ := hreleased.2 hheaders
      refine .inl ⟨_, hr.trans hok, .inl ?_⟩
      rw [hroute]
      rfl
    · exact .inr ⟨hr.trans (haborts hheaders), id, e, hroute, he, hscope, hheaders⟩

open Reference

/-- A document that nobody registered is refused in one of these ways. -/
theorem handlers_answer_unregistered :
    ∃ r, (serve (signingApp constantKeys) .ascending scopedGet ⟨⟨43201⟩, noon⟩ (Store.empty crates)
      (.evidenceOne "cert")).1 = .ok r ∧ (r.status = 200 ∨ ∃ f, f.status ∈ errorStatuses ∧
        r = errorResponse (signingApp constantKeys) f ⟨43201⟩) := by
  rcases handlers_answer (signingApp constantKeys) constantKeys constantKeys_signs .ascending
    scopedGet ⟨⟨43201⟩, noon⟩ (Store.empty crates) (.evidenceOne "cert") with
    h | ⟨-, id, e, -, he, -⟩
  · exact h
  · rw [Store.empty, State.initial, Std.ExtTreeMap.getElem?_empty] at he
    cases he

end UnidppTrust
