import UnidppTrust.Run
import UnidppTrust.Statuses

namespace UnidppTrust
open Rust Json Api
set_option autoImplicit true

variable {V : Vocabulary} {A : App V} {s s' : Store V}

/-- The typed calls that a request to a route asks for. -/
inductive Posts (A : App V) (req : Request) : Route → Op V → Prop where
  | evidence (h : decoded A req decodeEvidence = .ok e) :
      Posts A req .adminEvidence (.registerEvidence e)
  | node (h : decoded A req (fun v => stated (nodeFromValue A.crates.signatif v)) = .ok n) :
      Posts A req .nodes (.registerNode n)
  | edge (h : decoded A req (fun v => stated (edgeFromValue A.crates.signatif v)) = .ok c) :
      Posts A req .edges (.addEdge c)
  | list (h : decoded A req decodeList = .ok l) :
      Posts A req .trustLists (.registerTrustList l.jurisdiction l.framework)
  | listEntry (h : decoded A req decodeList = .ok l) (hv : v ∈ l.entries)
      (he : trustEntryFromValue A.crates.signatif v = .ok e) :
      Posts A req .trustLists (.upsertTrustEntry l.jurisdiction e.node e.notBefore e.supersededAt)
  | entry (h : decoded A req (fun v => stated (trustEntryFromValue A.crates.signatif v)) = .ok e) :
      Posts A req (.trustListEntries jur)
        (.upsertTrustEntry jur e.node e.notBefore e.supersededAt)
  | witnesses (h : decoded A req (decodeWitnesses A) = .ok w) :
      Posts A req .masterListWitnesses (.setWitnesses w.m w.witnesses)
  | masterEntry
      (h : decoded A req (fun v => stated (masterEntryFromValue A.crates.signatif v)) = .ok e) :
      Posts A req .masterListEntries (.upsertMasterEntry e)
  | revocation
      (h : decoded A req (fun v => stated (revocationFromValue A.crates.signatif v)) = .ok r) :
      Posts A req .revocations (.declareRevocation r)
  | release (id : String) : Posts A req (.evidenceOne id) (.evidenceReleased id
      (presented req "requester" "x-unidpp-requester") (scopeOf req))

def Posted (A : App V) (x : Arrival) (c : Op V × Tick) : Prop :=
  ∃ route req, router x.method x.path = some route ∧ x.request = some req ∧
    Posts A req route c.1 ∧ ∃ i, c.2 = x.moment.records i

theorem mutateAll_append (S : Signatif V) (s : Store V) (cs ds : List (Op V × Tick)) :
    s.mutateAll S (cs ++ ds) = (s.mutateAll S cs).mutateAll S ds := by
  induction cs generalizing s with
  | nil => rfl
  | cons c cs ih => exact ih _

theorem mutate_reply {S : Signatif V} (h : (s.mutate S t op).1 = .ok (.recorded r)) :
    r = (s.record S t op).1 := by
  cases op with
  | evidenceReleased id requester scope =>
    simp only [Store.mutate, Prod.map_fst] at h
    cases hx : (s.releaseEvidence S t id requester scope).1 with
    | ok e =>
      rw [hx] at h
      cases h
    | error e =>
      rw [hx] at h
      cases h
  | _ =>
    simp only [Store.mutate, Store.registerNode, Store.addEdge, Store.registerTrustList,
      Store.upsertTrustEntry, Store.setWitnesses, Store.upsertMasterEntry,
      Store.declareRevocation, Store.registerEvidence] at h
    repeat' split at h
    all_goals cases h
    all_goals rfl

/-- Some calls, all asked for: they leave the store, and where they come to a record, all of them
are accepted, and the record is that of the first. -/
def Makes (S : Signatif V) (asked : Op V × Tick → Prop) (s : Store V)
    (x : Outcome ε (AuditRecord V) × Store V) : Prop :=
  ∃ calls, (∀ c ∈ calls, asked c) ∧ x.2 = s.mutateAll S calls ∧
    ∀ r, x.1 = .ok r → s.Accepts S calls ∧
      ∃ c cs, calls = c :: cs ∧ r = (s.record S c.2 c.1).1

theorem makes_call {S : Signatif V} {asked : Op V × Tick → Prop} {refuse : StoreError → Refusal}
    {x : Except StoreError (AuditRecord V) × Store V}
    (hx : x.map (·.map .recorded) id = s.mutate S t op) (h : asked (op, t)) :
    Makes S asked s (calling refuse x) := by
  refine ⟨[(op, t)], ?_, ?_, fun r hr => ?_⟩
  · intro c hc
    rw [List.mem_singleton.1 hc]
    exact h
  · exact congrArg Prod.snd hx
  · have hok : (s.mutate S t op).1 = .ok (.recorded r) := by
      rw [← hx, Prod.map_fst, lift_eq_ok (mapErr_eq_ok hr)]
      rfl
    exact ⟨⟨⟨_, hok⟩, trivial⟩, (op, t), [], rfl, mutate_reply hok⟩

/-- A call that is accepted, and then others. -/
theorem mutate_first {S : Signatif V} (h : s.mutate S t op = (.ok (.recorded r), s'))
    (calls : List (Op V × Tick)) :
    s.mutateAll S ((op, t) :: calls) = s'.mutateAll S calls ∧
      (s'.Accepts S calls → s.Accepts S ((op, t) :: calls)) := by
  have hreply : (s.mutate S t op).1 = .ok (.recorded r) := congrArg Prod.fst h
  have hnext : (s.mutate S t op).2 = s' := congrArg Prod.snd h
  rw [Store.mutateAll, Store.Accepts, hnext]
  exact ⟨rfl, fun haccepts => ⟨⟨_, hreply⟩, haccepts⟩⟩

theorem makes_entries (A : App V) (jur : String) (ticks : Nat → Tick) (vs : List Value)
    (s : Store V) :
    ∃ calls, (∀ c ∈ calls, (∃ v ∈ vs, ∃ e, trustEntryFromValue A.crates.signatif v = .ok e ∧
        c.1 = .upsertTrustEntry jur e.node e.notBefore e.supersededAt) ∧ ∃ i, c.2 = ticks i) ∧
      (applyEntries A s ticks jur vs).2 = s.mutateAll A.crates.signatif calls ∧
      ((applyEntries A s ticks jur vs).1 = .ok () → s.Accepts A.crates.signatif calls) := by
  induction vs generalizing s ticks with
  | nil => exact ⟨[], List.forall_mem_nil _, rfl, fun _ => trivial⟩
  | cons v vs ih =>
    rw [applyEntries]
    cases he : trustEntryFromValue A.crates.signatif v with
    | error f => cases f <;> exact ⟨[], List.forall_mem_nil _, rfl, fun hok => by cases hok⟩
    | ok e =>
      rw [stated_ok, followed_ok]
      cases hcall : s.upsertTrustEntry A.crates.signatif (ticks 0) jur e.node e.notBefore
          e.supersededAt with
      | mk x s' =>
        have hmutate : s.mutate A.crates.signatif (ticks 0)
            (.upsertTrustEntry jur e.node e.notBefore e.supersededAt) =
            (x.map .recorded, s') := by
          rw [Store.mutate, hcall]
          rfl
        have hfirst : ∀ vs' : List Value, v ∈ vs' → (∃ v ∈ vs', ∃ e',
            trustEntryFromValue A.crates.signatif v = .ok e' ∧
              (Op.upsertTrustEntry jur e.node e.notBefore e.supersededAt : Op V) =
                .upsertTrustEntry jur e'.node e'.notBefore e'.supersededAt) ∧
            ∃ i, ticks 0 = ticks i := fun vs' hv => ⟨⟨v, hv, e, he, rfl⟩, 0, rfl⟩
        cases x with
        | error f =>
          refine ⟨[(_, ticks 0)], List.forall_mem_singleton.2 (hfirst _ List.mem_cons_self), ?_,
            fun hok => by cases hok⟩
          exact (congrArg Prod.snd hmutate).symm
        | ok r =>
          obtain ⟨calls, hasked, hstore, hok⟩ := ih (fun i => ticks (i + 1)) s'
          obtain ⟨hall, haccepts⟩ := mutate_first hmutate calls
          refine ⟨(_, ticks 0) :: calls, List.forall_mem_cons.2
            ⟨hfirst _ List.mem_cons_self, fun c hc => ?_⟩, ?_, fun h => haccepts (hok h)⟩
          · obtain ⟨⟨v', hv', hdecoded⟩, i, hi⟩ := hasked c hc
            exact ⟨⟨v', List.mem_cons_of_mem v hv', hdecoded⟩, i + 1, hi⟩
          · rw [hall]
            exact hstore

theorem makes_list (A : App V) (m : Moment) (l : ListRequest) (s : Store V) :
    Makes A.crates.signatif (fun c =>
        (c.1 = .registerTrustList l.jurisdiction l.framework ∨ ∃ v ∈ l.entries, ∃ e,
          trustEntryFromValue A.crates.signatif v = .ok e ∧
            c.1 = .upsertTrustEntry l.jurisdiction e.node e.notBefore e.supersededAt) ∧
          ∃ i, c.2 = m.records i) s (registerList A m l s) := by
  rw [registerList]
  cases hcall : s.registerTrustList A.crates.signatif (m.records 0) l.jurisdiction
      l.framework with
  | mk x s' =>
    have hmutate : s.mutate A.crates.signatif (m.records 0)
        (.registerTrustList l.jurisdiction l.framework) = (x.map .recorded, s') := by
      rw [Store.mutate, hcall]
      rfl
    cases x with
    | error f =>
      exact ⟨[(_, m.records 0)], List.forall_mem_singleton.2 ⟨.inl rfl, 0, rfl⟩,
        (congrArg Prod.snd hmutate).symm, fun r hr => by cases hr⟩
    | ok r =>
      obtain ⟨calls, hasked, hstore, hok⟩ :=
        makes_entries A l.jurisdiction (fun i => m.records (i + 1)) l.entries s'
      rw [calling_ok, followed_ok]
      cases hentries : applyEntries A s' (fun i => m.records (i + 1)) l.jurisdiction l.entries with
      | mk y s'' =>
        rw [hentries] at hstore hok
        obtain ⟨hall, haccepts⟩ := mutate_first hmutate calls
        refine ⟨(_, m.records 0) :: calls, List.forall_mem_cons.2
          ⟨⟨.inl rfl, 0, rfl⟩, fun c hc => ?_⟩, ?_, fun r' hr => ?_⟩
        · obtain ⟨hdecoded, i, hi⟩ := hasked c hc
          exact ⟨.inr hdecoded, i + 1, hi⟩
        · rw [hall]
          cases y <;> exact hstore
        · cases y with
          | error f => cases hr
          | ok u =>
            cases hr
            exact ⟨haccepts (hok rfl), _, calls, rfl, mutate_reply (congrArg Prod.fst hmutate)⟩

def Answers (S : Signatif V) (s : Store V) (calls : List (Op V × Tick)) (doc : Value) : Prop :=
  s.Accepts S calls ∧ ∃ c cs, calls = c :: cs ∧
    doc.get "audit_seq" = some (.u64 (s.record S c.2 c.1).1.seq)

/-- A request to a route makes the calls it asks for, and is answered as created where they are
accepted. -/
def Served (A : App V) (s : Store V) (req : Request) (m : Moment) (route : Route)
    (x : Outcome Empty Response × Store V) : Prop :=
  ∃ calls, (∀ c ∈ calls, Posts A req route c.1 ∧ ∃ i, c.2 = m.records i) ∧
    x.2 = s.mutateAll A.crates.signatif calls ∧
    ∀ r, x.1 = .ok r → r.status = 201 →
      ∃ doc, r.body = bytes doc.toStringPretty ∧ Answers A.crates.signatif s calls doc

theorem served_handle {req : Request} {m : Moment} {route : Route}
    {decode : Value → Outcome Refusal α}
    {call : α → Store V → Outcome Refusal (AuditRecord V) × Store V}
    {doc : α → AuditRecord V → Store V → Value} (s : Store V)
    (hdecode : ∀ v, States (decode v)) (hstates : ∀ a s, States (call a s).1)
    (hcall : ∀ a, decoded A req decode = .ok a →
      Makes A.crates.signatif (fun c => Posts A req route c.1 ∧ ∃ i, c.2 = m.records i) s
        (call a s))
    (hdoc : ∀ a r s, (doc a r s).get "audit_seq" = some (.u64 r.seq)) :
    Served A s req m route ((handle A req m.now s decode call doc).map (answer A m.now) id) := by
  have hfails {x : Outcome Refusal Doc} (hx : States x) (hno : ∀ d, x ≠ .ok d) :
      ∀ r, answer A m.now x = .ok r → r.status ≠ 201 := by
    rcases states_answer (A := A) m.now hx with ⟨d, hd, -⟩ | ⟨f, hf, -, hanswer⟩
    · exact (hno d hd).elim
    · intro r hr hstatus
      rw [hanswer] at hr
      cases hr
      change f.status = 201 at hstatus
      rw [hstatus] at hf
      exact absurd hf (by decide)
  have hhandle : States (handle A req m.now s decode call doc).1 := states_handle hdecode hstates
  rcases handle_cases A req m.now s decode call doc with
    ⟨f, -, hout⟩ | ⟨a, hdecoded, ⟨f, s', hc, hout⟩ | ⟨r, s', hc, hout⟩⟩
  · rw [hout] at hhandle ⊢
    exact ⟨[], List.forall_mem_nil _, rfl, fun r hr hstatus =>
      (hfails hhandle (fun d hd => by cases hd) r hr hstatus).elim⟩
  · obtain ⟨calls, hasked, hstore, -⟩ := hcall a hdecoded
    rw [hc] at hstore
    rw [hout] at hhandle ⊢
    exact ⟨calls, hasked, hstore, fun r hr hstatus =>
      (hfails hhandle (fun d hd => by cases hd) r hr hstatus).elim⟩
  · obtain ⟨calls, hasked, hstore, hok⟩ := hcall a hdecoded
    rw [hc] at hstore hok
    rw [hout]
    obtain ⟨haccepts, c, cs, hcalls, hrecord⟩ := hok r rfl
    refine ⟨calls, hasked, hstore, fun response hr _ => ?_⟩
    cases hr
    exact ⟨doc a r s', rfl, haccepts, c, cs, hcalls, hrecord ▸ hdoc a r s'⟩

theorem created_mutating (A : App V) (order : HashOrder) (req : Request) (m : Moment) (s : Store V)
    (route : Route) (h : (serve A order req m s route).1 = .ok r) (hstatus : r.status = 201) :
    route.mutating = true := by
  rcases serve_responds A order req m s route with
    (⟨d, hd, hr⟩ | ⟨f, hf, hr⟩) | ⟨-, hr⟩ | ⟨id, e, -, -, -, hr⟩
  · rw [hr] at h
    cases h
    have hsuccess : route.success = 201 := hd.symm.trans hstatus
    rw [Route.success] at hsuccess
    split at hsuccess
    · assumption
    · cases hsuccess
  · rw [hr] at h
    cases h
    change f.status = 201 at hstatus
    rw [hstatus] at hf
    exact absurd hf (by decide)
  · rw [hr] at h
    cases h
    cases hstatus
  · rw [hr, released, build] at h
    split at h
    · cases h
      cases hstatus
    · cases h

theorem served_read (order : HashOrder) (req : Request) (m : Moment) (s : Store V) (route : Route)
    (hroute : route.mutating = false) (hstore : (serve A order req m s route).2 = s) :
    Served A s req m route (serve A order req m s route) := by
  refine ⟨[], List.forall_mem_nil _, hstore, fun r hr hstatus => ?_⟩
  rw [created_mutating A order req m s route hr hstatus] at hroute
  cases hroute

theorem served_release (order : HashOrder) (req : Request) (m : Moment) (s : Store V)
    (id : String) :
    Served A s req m (.evidenceOne id) (serve A order req m s (.evidenceOne id)) := by
  refine ⟨[(_, m.records 0)], List.forall_mem_singleton.2 ⟨.release id, 0, rfl⟩, ?_,
    fun r hr hstatus => ?_⟩
  · rw [serve, evidenceRelease, Store.mutateAll, Store.mutate, Store.mutateAll]
    split
    · rename_i h
      rw [h]
      rfl
    · rename_i h
      rw [h]
      rfl
  · cases created_mutating A order req m s (.evidenceOne id) hr hstatus

theorem get_withSeq {v : Value} (hv : ∃ fs, v = .obj fs) (seq : UInt64) :
    (withSeq seq v).get "audit_seq" = some (.u64 seq) := by
  obtain ⟨fs, rfl⟩ := hv
  exact (lookup_insertField _ _ _ _).trans (if_pos rfl)

theorem get_object_seq (fs : Fields) (seq : UInt64) (asOf : Value) :
    (Value.object (fs ++ [("audit_seq", .u64 seq), ("as_of", asOf)])).get "audit_seq" =
      some (.u64 seq) := by
  rw [get_object, lookup_fieldsOf, List.reverse_append]
  rfl

theorem serve_served (A : App V) (order : HashOrder) (req : Request) (m : Moment) (s : Store V)
    (route : Route) : Served A s req m route (serve A order req m s route) := by
  cases route with
  | evidenceOne id => exact served_release order req m s id
  | adminEvidence =>
    refine served_handle s states_decodeEvidence (fun e s => states_calling storeError_status _)
      (fun e he => makes_call rfl ⟨.evidence he, 0, rfl⟩) fun e r s => get_withSeq ?_ _
    cases s.evidence[e.id]? with
    | some e => exact ⟨_, rfl⟩
    | none => exact ⟨[], rfl⟩
  | nodes =>
    exact served_handle s (fun v => states_stated (returns_nodeFromValue v))
      (fun n s => states_calling storeError_status _)
      (fun n hn => makes_call rfl ⟨.node hn, 0, rfl⟩) fun n r s => get_withSeq ⟨_, rfl⟩ _
  | edges =>
    exact served_handle s (fun v => states_stated (returns_edgeFromValue v))
      (fun c s => states_calling storeError_status _)
      (fun c hc => makes_call rfl ⟨.edge hc, 0, rfl⟩) fun c r s => get_withSeq ⟨_, rfl⟩ _
  | trustLists =>
    refine served_handle s states_decodeList (fun l s => states_registerList m l s)
      (fun l hl => ?_) fun l r s => get_object_seq [_, _] _ _
    obtain ⟨calls, hasked, hstore, hok⟩ := makes_list A m l s
    refine ⟨calls, fun c hc => ?_, hstore, hok⟩
    obtain ⟨hop | ⟨v, hv, e, he, hop⟩, i, hi⟩ := hasked c hc
    · exact ⟨hop ▸ .list hl, i, hi⟩
    · exact ⟨hop ▸ .listEntry hl hv he, i, hi⟩
  | trustListEntries jur =>
    exact served_handle s (fun v => states_stated (returns_trustEntryFromValue v))
      (fun e s => states_calling storeError_status _)
      (fun e he => makes_call rfl ⟨.entry he, 0, rfl⟩)
      fun e r s => get_object_seq [_, _, _, _] _ _
  | masterListWitnesses =>
    exact served_handle s states_decodeWitnesses (fun w s => states_calling storeError_status _)
      (fun w hw => makes_call rfl ⟨.witnesses hw, 0, rfl⟩)
      fun w r s => get_object_seq [_, _, _] _ _
  | masterListEntries =>
    exact served_handle s (fun v => states_stated (returns_masterEntryFromValue v))
      (fun e s => states_calling storeError_status _)
      (fun e he => makes_call rfl ⟨.masterEntry he, 0, rfl⟩)
      fun e r s => get_object_seq [_, _] _ _
  | revocations =>
    exact served_handle s (fun v => states_stated (returns_revocationFromValue v))
      (fun r s => states_calling declarationRefusal_status _)
      (fun r hr => makes_call rfl ⟨.revocation hr, 0, rfl⟩)
      fun d r s => get_object_seq [_, _, _, _, _] _ _
  | _ => exact served_read order req m s _ rfl rfl

theorem getRoute_read {p : Path} (h : getRoute p = some route) : route.mutating = false := by
  cases p <;> cases h <;> rfl

theorem respond_routed {x : Arrival} (hroute : router x.method x.path = some route)
    (hreq : x.request = some req) (hhead : x.method ≠ .head) (s : Store V) :
    respond A x s = serve A x.order req x.moment s route := by
  rw [respond, hroute, hreq]
  simp only [if_neg hhead]
  exact Prod.ext (congrFun Except.map_id _) rfl

theorem respond_served (A : App V) (x : Arrival) (s : Store V) :
    ∃ calls, (∀ c ∈ calls, Posted A x c) ∧
      (respond A x s).2 = s.mutateAll A.crates.signatif calls ∧
      ∀ route req r, router x.method x.path = some route → x.request = some req →
        (respond A x s).1 = .ok r → r.status = 201 →
          ∃ doc, r.body = bytes doc.toStringPretty ∧ Answers A.crates.signatif s calls doc := by
  rw [respond]
  cases hroute : router x.method x.path with
  | none => exact ⟨[], List.forall_mem_nil _, rfl, fun route req r h => by cases h⟩
  | some route =>
    cases hreq : x.request with
    | none => exact ⟨[], List.forall_mem_nil _, rfl, fun route req r _ h => by cases h⟩
    | some req =>
      obtain ⟨calls, hasked, hstore, hcreated⟩ := serve_served A x.order req x.moment s route
      refine ⟨calls, fun c hc => ⟨route, req, hroute, hreq, hasked c hc⟩, hstore, ?_⟩
      intro route' req' r _ _ hr hstatus
      cases hx : (serve A x.order req x.moment s route).1 with
      | error e =>
        rw [Prod.map_fst, hx] at hr
        cases hr
      | ok response =>
        rw [Prod.map_fst, hx] at hr
        by_cases hhead : x.method = .head
        · have hcreated' : response.status = 201 := by
            cases hr
            dsimp only at hstatus
            rw [if_pos hhead] at hstatus
            exact hstatus
          rw [hhead] at hroute
          have hmutating := created_mutating A x.order req x.moment s route hx hcreated'
          rw [getRoute_read hroute] at hmutating
          cases hmutating
        · cases hr
          dsimp only at hstatus ⊢
          rw [if_neg hhead] at hstatus ⊢
          exact hcreated response hx hstatus

/-- The service refines the typed store: whatever arrives, the store is the one that some typed
calls leave, which the requests ask for, in their order. -/
theorem service_refines (A : App V) (s : Store V) (xs : List Arrival) :
    ∃ callss : List (List (Op V × Tick)),
      List.Forall₂ (fun x calls => ∀ c ∈ calls, Posted A x c) xs callss ∧
      (respondAll A s xs).2 = s.mutateAll A.crates.signatif callss.flatten := by
  induction xs generalizing s with
  | nil => exact ⟨[], .nil, rfl⟩
  | cons x xs ih =>
    obtain ⟨calls, hposted, hstore, -⟩ := respond_served A x s
    obtain ⟨callss, hrest, hfinal⟩ := ih (respond A x s).2
    refine ⟨calls :: callss, .cons hposted hrest, ?_⟩
    rw [List.flatten_cons, mutateAll_append, ← hstore]
    exact hfinal

/-- The store after some arrivals is the one that calls leave, each of them asked for by one. -/
theorem respondAll_calls (A : App V) (s : Store V) (xs : List Arrival) :
    ∃ calls, (∀ c ∈ calls, ∃ x ∈ xs, Posted A x c) ∧
      (respondAll A s xs).2 = s.mutateAll A.crates.signatif calls := by
  induction xs generalizing s with
  | nil => exact ⟨[], List.forall_mem_nil _, rfl⟩
  | cons x xs ih =>
    obtain ⟨calls, hposted, hstore, -⟩ := respond_served A x s
    obtain ⟨later, hlater, hfinal⟩ := ih (respond A x s).2
    refine ⟨calls ++ later, List.forall_mem_append.2 ⟨fun c hc => ?_, fun c hc => ?_⟩, ?_⟩
    · exact ⟨x, List.mem_cons_self, hposted c hc⟩
    · obtain ⟨y, hy, hc⟩ := hlater c hc
      exact ⟨y, List.mem_cons_of_mem x hy, hc⟩
    · rw [mutateAll_append, ← hstore]
      exact hfinal

theorem respondAll_append (A : App V) (s : Store V) (xs ys : List Arrival) :
    respondAll A s (xs ++ ys) =
      ((respondAll A s xs).1 ++ (respondAll A (respondAll A s xs).2 ys).1,
        (respondAll A (respondAll A s xs).2 ys).2) := by
  induction xs generalizing s with
  | nil => rfl
  | cons x xs ih =>
    rw [List.cons_append, respondAll, ih]
    rfl

theorem mutate_grows (S : Signatif V) (s : Store V) (t : Tick) (op : Op V) :
    s.log <+: (s.mutate S t op).2.log := by
  rcases mutate_cases S s t op with ⟨e, h⟩ | ⟨-, a, h⟩
  · exact h ▸ List.prefix_rfl
  · rw [h]
    exact List.prefix_append _ _

theorem respondAll_grows (A : App V) (s : Store V) (xs : List Arrival) :
    s.log <+: (respondAll A s xs).2.log :=
  respondAll_keeps (p := fun s' => s.log <+: s'.log)
    (fun s' t op h => h.trans (mutate_grows _ s' t op)) List.prefix_rfl xs

theorem mutateAll_grows (S : Signatif V) (s : Store V) (calls : List (Op V × Tick)) :
    s.log <+: (s.mutateAll S calls).log := by
  induction calls generalizing s with
  | nil => exact List.prefix_rfl
  | cons c calls ih => exact (mutate_grows S s c.2 c.1).trans (ih _)

/-- The first of accepted calls adds its record, which is there after all of them. -/
theorem accepted_recorded {S : Signatif V} {c : Op V × Tick} {cs : List (Op V × Tick)}
    (h : s.Accepts S (c :: cs)) :
    (s.mutateAll S (c :: cs)).log[s.log.length]? = some (s.record S c.2 c.1).1 := by
  obtain ⟨⟨a, ha⟩, -⟩ := h
  have hfirst : (s.mutate S c.2 c.1).2.log = s.log ++ [(s.record S c.2 c.1).1] := by
    rcases mutate_cases S s c.2 c.1 with ⟨e, hm⟩ | ⟨-, b, hm⟩
    · rw [hm] at ha
      cases ha
    · rw [hm]
      rfl
  obtain ⟨rest, hrest⟩ := mutateAll_grows S (s.mutate S c.2 c.1).2 cs
  rw [Store.mutateAll, ← hrest, hfirst, List.append_assoc,
    List.getElem?_append_right (Nat.le_refl _), Nat.sub_self]
  rfl

/-- A request that is answered as created is in the log for good: under the number that the answer
gives is the record of a call it asked for. -/
theorem created_recorded (A : App V) (s : Store V) (xs ys : List Arrival) (x : Arrival)
    (route : Route) (req : Request) (hroute : router x.method x.path = some route)
    (hreq : x.request = some req) (r : Response)
    (hr : (respond A x (respondAll A s xs).2).1 = .ok r) (hstatus : r.status = 201) :
    ∃ (n : Nat) (doc : Value) (rec_ : AuditRecord V), r.body = bytes doc.toStringPretty ∧
      doc.get "audit_seq" = some (.u64 (UInt64.ofNat n + 1)) ∧
      (respondAll A s (xs ++ x :: ys)).2.log[n]? = some rec_ ∧
      rec_.seq = UInt64.ofNat n + 1 ∧ Posts A req route rec_.op := by
  rw [respondAll_append]
  generalize (respondAll A s xs).2 = s₁ at hr ⊢
  obtain ⟨calls, hposted, hstore, hcreated⟩ := respond_served A x s₁
  obtain ⟨doc, hbody, haccepts, c, cs, rfl, hseq⟩ := hcreated route req r hroute hreq hr hstatus
  obtain ⟨route', req', hroute', hreq', hposts, -⟩ := hposted c List.mem_cons_self
  rw [hroute] at hroute'
  rw [hreq] at hreq'
  cases hroute'
  cases hreq'
  refine ⟨s₁.log.length, doc, (s₁.record A.crates.signatif c.2 c.1).1, hbody, hseq, ?_, rfl,
    hposts⟩
  have hrecorded := accepted_recorded haccepts
  rw [← hstore] at hrecorded
  obtain ⟨rest, hrest⟩ := respondAll_grows A (respond A x s₁).2 ys
  have hlt : s₁.log.length < (respond A x s₁).2.log.length := by
    by_contra hge
    rw [List.getElem?_eq_none (Nat.not_lt.1 hge)] at hrecorded
    cases hrecorded
  rw [respondAll]
  dsimp only
  rw [← hrest, List.getElem?_append_left hlt]
  exact hrecorded

open Reference

def listArrival : Arrival :=
  ⟨.post, .trustLists, some ⟨∅, ∅, (Value.object [("jurisdiction", .str "EU")]).toString⟩,
    ⟨404, [], []⟩, .ascending, ⟨⟨43200⟩, noon⟩⟩

theorem decoded_listArrival {req : Request} (h : listArrival.request = some req) :
    decoded app req decodeList = .ok ⟨"EU", none, []⟩ := by
  cases h
  have hbody : parseBody app (Value.object [("jurisdiction", .str "EU")]).toString =
      .ok (.object [("jurisdiction", .str "EU")]) :=
    parseBody_toString crates_lawful (canonical_fields trivial)
  rw [decoded, hbody]
  rfl

theorem listArrival_created :
    ∃ r, respond app listArrival (storeOf crates [] []) = (.ok r, ((storeOf crates [] []).record
        signatif (noon 0) (.registerTrustList "EU" none)).2) ∧ r.status = 201 := by
  have hcall : registerList app listArrival.moment ⟨"EU", none, []⟩ (storeOf crates [] []) =
      (.ok ((storeOf crates [] []).record signatif (noon 0) (.registerTrustList "EU" none)).1,
        ((storeOf crates [] []).record signatif (noon 0) (.registerTrustList "EU" none)).2) := rfl
  rw [respond_routed rfl rfl (by decide), serve, registerTrustList,
    handle_ok (decoded_listArrival rfl) hcall, Prod.map, answer]
  exact ⟨_, rfl, rfl⟩

/-- The number is given to the list, although the same request is refused after it. -/
theorem created_recorded_list :
    ∃ (r : Response) (n : Nat) (doc : Value) (rec_ : AuditRecord vocabulary),
      (respond app listArrival (storeOf crates [] [])).1 = .ok r ∧ r.status = 201 ∧
      r.body = bytes doc.toStringPretty ∧
      doc.get "audit_seq" = some (.u64 (UInt64.ofNat n + 1)) ∧
      (respondAll app (storeOf crates [] []) ([] ++ listArrival :: [listArrival])).2.log[n]? =
        some rec_ := by
  obtain ⟨r, hr, hstatus⟩ := listArrival_created
  have hok : (respond app listArrival (storeOf crates [] [])).1 = .ok r := congrArg Prod.fst hr
  obtain ⟨n, doc, rec_, hbody, hseq, hrecord, -⟩ :=
    created_recorded app (storeOf crates [] []) [] [listArrival] listArrival .trustLists _ rfl rfl
      r hok hstatus
  exact ⟨r, n, doc, rec_, hok, hstatus, hbody, hseq, hrecord⟩

end UnidppTrust
