import UnidppTrust.Shadow
import UnidppTrust.PointInTime
import UnidppTrust.Run

namespace UnidppTrust
open Rust Json Api
set_option autoImplicit true

variable {V : Vocabulary} {S : Signatif V} {C : Crates V} {A : App V} {d : String}
  {s s' : Store V} {req : Request} {m : Moment}

def Releases (d : String) (s : Store V) (req : Request) (route : Route) : Prop :=
  route = .evidenceOne d ∧ ∃ e, s.evidence[d]? = some e ∧ scopeOf req = e.requiredScope

def logWindow (req : Request) (log : List (AuditRecord V)) : List (AuditRecord V) :=
  (log.drop (logOffset req.query)).take (logLimit req.query)

def AuditRecord.Differ (d : String) (r r' : AuditRecord V) : Prop :=
  ∃ e e', r.op = .registerEvidence e ∧ r'.op = .registerEvidence e' ∧ e.id = d ∧
    e'.content ≠ e.content

/-- An authorised reading of the audit log that finds, at one place of the two windows,
registrations of the document with different contents. -/
def Discloses (A : App V) (d : String) (s s' : Store V) (req : Request) (route : Route) : Prop :=
  route = .adminLog ∧ requireAdmin A req = .ok () ∧
    ∃ p ∈ (logWindow req s.log).zip (logWindow req s'.log), p.1.Differ d p.2

/-- Two stores that differ in the content of one document, of one length, and in nothing else. -/
structure DiffersIn (d : String) (s s' : Store V) : Prop extends Shadow d s s' where
  content : ∃ e e', s.evidence[d]? = some e ∧ s'.evidence[d]? = some e' ∧ e'.content ≠ e.content

theorem metas_perm (order : HashOrder) (m : StringMap Evidence) :
    (((order.entries m).map (·.2)).map (Evidence.redact d)).Perm
      ((redactAll d m).toList.map (·.2)) := by
  rw [redactAll, Std.ExtTreeMap.toList_map, List.map_map, List.map_map]
  exact (order.perm m).map _

theorem redact_sort (l : List Evidence) :
    (sortByKey Evidence.id l).map (Evidence.redact d) =
      sortByKey Evidence.id (l.map (Evidence.redact d)) :=
  List.map_insertionSort _ _ _ _ fun a _ b _ => by rw [redact_id, redact_id]

theorem evidenceListJson_shadow (hk : s.toState.Keyed) (h : Shadow d s s')
    (order order' : HashOrder) :
    evidenceListJson order' s'.evidence = evidenceListJson order s.evidence := by
  have hitems : (sortByKey Evidence.id ((order'.entries s'.evidence).map (·.2))).map
      (Evidence.redact d) =
      (sortByKey Evidence.id ((order.entries s.evidence).map (·.2))).map (Evidence.redact d) := by
    rw [redact_sort, redact_sort]
    have hperm := metas_perm (d := d) order s.evidence
    rw [← h.evidence] at hperm
    refine (sortByKey_congr (hperm.trans (metas_perm order' s'.evidence).symm) ?_).symm
    have hids : (((order.entries s.evidence).map (·.2)).map (Evidence.redact d)).map Evidence.id =
        (order.entries s.evidence).map (·.1) := by
      rw [List.map_map, List.map_map]
      apply List.map_congr_left
      intro p hp
      rw [Function.comp_apply, Function.comp_apply, redact_id]
      exact hk.document p.1 p.2 ((mem_entries order _).1 hp)
    rw [hids]
    exact nodup_entries order s.evidence
  have hmeta (l : List Evidence) :
      (l.map (Evidence.redact d)).map Evidence.metaJson = l.map Evidence.metaJson := by
    rw [List.map_map]
    exact List.map_congr_left fun e _ => metaJson_redact e
  have hlen := congrArg List.length hitems
  rw [List.length_map, List.length_map] at hlen
  unfold evidenceListJson
  dsimp only
  rw [hlen, ← hmeta, hitems, hmeta]

theorem Shadow.sameBut (h : Shadow d s s') : s.toState.SameBut .evidence s'.toState where
  graph _ := h.graph
  lists _ := ⟨h.trustLists, h.frameworks⟩
  master _ := h.master
  ledger _ := h.ledger
  evidence hp := (hp rfl).elim

theorem operatorView_shadow (hk : s.toState.Keyed) (h : Shadow d s s')
    (order order' : HashOrder) (node : String) (now : Timestamp) :
    operatorView A order' node req.query now s'.toState =
      operatorView A order node req.query now s.toState := by
  have hdoc (dn : DelegationNode V) (id : V.NodeId) (asOf : Timestamp) :
      operatorDoc A.crates.signatif order' s'.toState dn id asOf =
        operatorDoc A.crates.signatif order s.toState dn id asOf := by
    simp only [operatorDoc, h.graph, h.trustLists, h.master, h.ledger]
    rw [memberships_congr hk order' order]
  simp only [operatorView, h.graph, hdoc]

/-- Records equal up to the content of the document are equal, or differ in it. -/
theorem eq_or_differ {r r' : AuditRecord V} (h : r'.redact d = r.redact d) :
    r' = r ∨ r.Differ d r' := by
  obtain ⟨seq, recordedAt, op⟩ := r
  obtain ⟨seq', recordedAt', op'⟩ := r'
  obtain ⟨rfl, rfl, hop⟩ := AuditRecord.mk.inj h
  cases op with
  | registerEvidence e =>
    cases op' with
    | registerEvidence e' =>
      have he : e'.redact d = e.redact d := Op.registerEvidence.inj hop
      have hid := congrArg Evidence.id he
      rw [redact_id, redact_id] at hid
      by_cases hd : e.id = d
      · by_cases hc : e'.content = e.content
        · rw [Evidence.redact, Evidence.redact, if_pos hd, if_pos (hid.trans hd), hc] at he
          obtain ⟨id, contentType, description, requiredScope, content⟩ := e
          obtain ⟨id', contentType', description', requiredScope', content'⟩ := e'
          cases hc
          obtain ⟨rfl, rfl, rfl, rfl, -⟩ := Evidence.mk.inj he
          exact .inl rfl
        · exact .inr ⟨e, e', rfl, rfl, hd, hc⟩
      · rw [redact_of_ne hd, redact_of_ne (hid ▸ hd)] at he
        rw [he]
        exact .inl rfl
    | _ => cases hop
  | _ =>
    cases op' with
    | registerEvidence e' => cases hop
    | _ => exact .inl (congrArg _ hop)

theorem map_eq_of_mem_zip {f : α → β} {l l' : List α} (h : l'.map f = l.map f) {p : α × α}
    (hp : p ∈ l.zip l') : f p.2 = f p.1 := by
  obtain ⟨i, hi⟩ := List.mem_iff_getElem?.1 hp
  obtain ⟨h₁, h₂⟩ := List.getElem?_zip_eq_some.1 hi
  have hmap := congrArg (·[i]?) h
  simp only [List.getElem?_map, h₁, h₂, Option.map_some, Option.some_inj] at hmap
  exact hmap

theorem eq_of_mem_zip {l l' : List α} (hlen : l'.length = l.length)
    (h : ∀ p ∈ l.zip l', p.2 = p.1) : l' = l := by
  apply List.ext_getElem hlen
  intro i h₁ h₂
  refine h (l[i], l'[i]) (List.mem_iff_getElem?.2 ⟨i, List.getElem?_zip_eq_some.2 ?_⟩)
  exact ⟨List.getElem?_eq_getElem h₂, List.getElem?_eq_getElem h₁⟩

theorem Shadow.window (h : Shadow d s s') (req : Request) :
    (logWindow req s'.log).map (AuditRecord.redact d) =
      (logWindow req s.log).map (AuditRecord.redact d) := by
  simp only [logWindow, List.map_take, List.map_drop, h.log]

theorem adminLog_shadow (h : Shadow d s s') (hno : ¬ Discloses A d s s' req .adminLog)
    (now : Timestamp) : adminLog A req now s' = adminLog A req now s := by
  unfold adminLog
  cases ha : requireAdmin A req with
  | error e => rfl
  | ok u =>
    have hmap := h.window req
    have hlen := congrArg List.length hmap
    rw [List.length_map, List.length_map] at hlen
    have hwindow : logWindow req s'.log = logWindow req s.log := by
      refine eq_of_mem_zip hlen fun p hp => ?_
      rcases eq_or_differ (map_eq_of_mem_zip hmap hp) with heq | hd
      · exact heq
      · exact (hno ⟨rfl, ha, p, hp, hd⟩).elim
    rw [logWindow, logWindow] at hwindow
    simp only [ok_bind, logJson, hwindow, h.length]

theorem canonical_logJson (hS : S.Lawful P) (log : List (AuditRecord V)) (limit offset : Nat) :
    (logJson S log limit offset).Canonical P 127 := by
  apply canonical_fields
  simp only [List.Forall, canonical_usize, canonical_arr, List.mem_map, true_and]
  rintro v ⟨r, -, rfl⟩
  exact canonical_record hS r

theorem body_adminLog (ha : requireAdmin A req = .ok ()) (order : HashOrder) :
    body (serve A order req m s .adminLog) =
      .ok (bytes (logJson A.crates.signatif s.log (logLimit req.query)
        (logOffset req.query)).toStringPretty) := by
  simp only [serve, adminLog, ha, ok_bind, body_ok]

theorem AuditRecord.Differ.toJson_ne (hS : S.Lawful P) {r r' : AuditRecord V}
    (h : r.Differ d r') : r'.toJson S ≠ r.toJson S := by
  obtain ⟨e, e', hop, hop', -, hne⟩ := h
  have hdecoded {r : AuditRecord V} {e : Evidence} (hop : r.op = .registerEvidence e) :
      ((r.toJson S).get "body").map (opFromJson S "register-evidence") =
        some (.ok (.registerEvidence e)) := by
    have hw : (Op.registerEvidence e : Op V).WellFormed S := trivial
    have hbody : (r.toJson S).get "body" = some (r.op.body S) := by
      simp [AuditRecord.toJson, lookup_cons_ite]
    rw [hbody, Option.map_some, hop]
    exact congrArg some (op_round_trip hS hw)
  intro heq
  have hsome := hdecoded hop'
  rw [heq, hdecoded hop, Option.some_inj] at hsome
  rw [Op.registerEvidence.inj (Except.ok.inj hsome)] at hne
  exact hne rfl

theorem Discloses.differ (hC : A.crates.Lawful) {route : Route}
    (hd : Discloses A d s s' req route) (order order' : HashOrder) (m m' : Moment) :
    body (serve A order' req m' s' route) ≠ body (serve A order req m s route) := by
  obtain ⟨rfl, ha, p, hp, hdiffer⟩ := hd
  intro hbody
  rw [body_adminLog ha, body_adminLog ha] at hbody
  have hjson := pretty_injective (canonical_logJson hC.signatif _ _ _)
    (canonical_logJson hC.signatif _ _ _) (Except.ok.inj hbody)
  have hrecords := congrArg (fun v => (v.get "records").bind Value.asArray) hjson
  simp only [logJson, get_object, lookup_fieldsOf] at hrecords
  have hmap : (logWindow req s'.log).map (AuditRecord.toJson A.crates.signatif) =
      (logWindow req s.log).map (AuditRecord.toJson A.crates.signatif) :=
    Option.some.inj hrecords
  exact hdiffer.toJson_ne hC.signatif (map_eq_of_mem_zip hmap hp)

theorem Alike.calling {x x' : Except StoreError (AuditRecord V) × Store V} (h : Alike d x x')
    (refuse : StoreError → Refusal) : Alike d (calling refuse x) (calling refuse x') :=
  ⟨congrArg (fun y => mapErr refuse (lift y)) h.result, h.store⟩

theorem Alike.answered {x x' : Outcome Refusal Doc × Store V} (h : Alike d x x')
    (now : Timestamp) : Alike d (x.map (answer A now) id) (x'.map (answer A now) id) :=
  ⟨congrArg (answer A now) h.result, h.store⟩

theorem Alike.followed {x x' : Outcome ε α × Store V} {f f' : α → Store V → Outcome ε β × Store V}
    (h : Alike d x x') (hf : ∀ a, x.1 = .ok a → Alike d (f a x.2) (f' a x'.2)) :
    Alike d (followed x f) (followed x' f') := by
  obtain ⟨x, y⟩ := x
  obtain ⟨x', y'⟩ := x'
  obtain ⟨hresult, hstore⟩ := h
  obtain rfl : x' = x := hresult
  cases x' with
  | error e => exact hstore.refused _
  | ok a => exact hf a rfl

theorem Shadow.handled (h : Shadow d s s') (now : Timestamp) {decode : Value → Outcome Refusal α}
    {call : α → Store V → Outcome Refusal (AuditRecord V) × Store V}
    {doc : α → AuditRecord V → Store V → Value} (hcall : ∀ a, Alike d (call a s) (call a s'))
    (hdoc : ∀ a r, (call a s).1 = .ok r → doc a r (call a s').2 = doc a r (call a s).2) :
    Alike d (handle A req now s decode call doc) (handle A req now s' decode call doc) := by
  unfold Api.handle
  refine (h.refused _).followed fun a _ => (hcall a).followed fun r hr => ?_
  rw [hdoc a r hr]
  exact (hcall a).store.refused _

theorem Shadow.applyEntries (h : Shadow d s s') (ticks : Nat → Tick) (jurisdiction : String)
    (vs : List Value) :
    Alike d (applyEntries A s ticks jurisdiction vs) (applyEntries A s' ticks jurisdiction vs) := by
  induction vs generalizing s s' ticks with
  | nil => exact h.refused _
  | cons v vs ih =>
    unfold Api.applyEntries
    apply (h.refused _).followed
    intro entry _
    have hcall := (h.upsertTrustEntry (S := A.crates.signatif) (ticks 0) jurisdiction entry.node
      entry.notBefore entry.supersededAt).calling storeError
    exact hcall.followed fun _ _ => ih hcall.store _

theorem Shadow.registerList (h : Shadow d s s') (m : Moment) (l : ListRequest) :
    Alike d (registerList A m l s) (registerList A m l s') := by
  have hcall := (h.registerTrustList (S := A.crates.signatif) (m.records 0) l.jurisdiction
    l.framework).calling storeError
  apply hcall.followed
  intro r _
  have hentries := hcall.store.applyEntries (A := A) (fun i => m.records (i + 1)) l.jurisdiction
    l.entries
  exact hentries.followed fun _ _ => hentries.store.refused _

theorem Shadow.registerEvidence_handled (h : Shadow d s s') (m : Moment) :
    Alike d (Api.registerEvidence A req m s) (Api.registerEvidence A req m s') := by
  have hcall (e : Evidence) := (h.registerEvidence (S := A.crates.signatif) (m.records 0) e).calling
    storeError
  apply h.handled m.now hcall
  intro e r _
  have hmeta (x : Option Evidence) :
      (x.map (Evidence.redact d)).map Evidence.metaJson = x.map Evidence.metaJson := by
    rw [Option.map_map]
    exact Option.map_congr fun e _ => metaJson_redact e
  rw [← hmeta, (hcall e).store.getElem? e.id, hmeta]

theorem Shadow.evidenceRelease {id : String} (h : Shadow d s s') (hk : s.toState.Keyed)
    (hk' : s'.toState.Keyed) (hr : ¬ Releases d s req (.evidenceOne id)) (m : Moment) :
    Alike d (evidenceRelease A id req m s) (evidenceRelease A id req m s') := by
  have hno : ∀ e, s.evidence[id]? = some e → id = d → scopeOf req ≠ e.requiredScope := by
    rintro e he rfl hscope
    exact hr ⟨rfl, e, he, hscope⟩
  have hcall := h.releaseEvidence (S := A.crates.signatif) hk hk' (m.records 0) id
    (presented req "requester" "x-unidpp-requester") (scopeOf req) hno
  unfold Api.evidenceRelease
  revert hcall
  rcases s.releaseEvidence _ _ _ _ _ with ⟨x, y⟩
  rcases s'.releaseEvidence _ _ _ _ _ with ⟨x', y'⟩
  rintro ⟨rfl : x' = x, hstore⟩
  cases x' with
  | error e => exact hstore.refused _
  | ok e => exact hstore.refused _

/-- A request that neither releases the document nor reads its content in the log. -/
theorem Shadow.serve (h : Shadow d s s') (hk : s.toState.Keyed) (hk' : s'.toState.Keyed)
    {route : Route} (hr : ¬ Releases d s req route) (hd : ¬ Discloses A d s s' req route)
    (order order' : HashOrder) (m : Moment) :
    Alike d (serve A order req m s route) (serve A order' req m s' route) := by
  cases route with
  | view v =>
    refine ⟨?_, h⟩
    have hv : ¬ v.reads .evidence := by cases v <;> simp [View.reads]
    simp only [Api.serve, doc_sameBut hk h.sameBut hv order order']
  | operator node =>
    refine ⟨?_, h⟩
    simp only [Api.serve, operatorView_shadow hk h order order']
  | evidence =>
    refine ⟨?_, h⟩
    simp only [Api.serve, evidenceCatalogue, evidenceListJson_shadow hk h order order']
  | evidenceOne id => exact h.evidenceRelease hk hk' hr m
  | adminLog =>
    refine ⟨?_, h⟩
    simp only [Api.serve, adminLog_shadow h hd]
  | adminEvidence => exact (h.registerEvidence_handled m).answered m.now
  | nodes =>
    simp only [Api.serve]
    apply Alike.answered _ m.now
    unfold Api.registerNode
    exact h.handled m.now (fun node => (h.recorded _ (.registerNode node)).calling storeError)
      fun _ _ _ => rfl
  | edges =>
    simp only [Api.serve]
    apply Alike.answered _ m.now
    unfold Api.addEdge
    exact h.handled m.now (fun c => (h.addEdge _ c).calling storeError) fun _ _ _ => rfl
  | trustLists =>
    simp only [Api.serve]
    apply Alike.answered _ m.now
    unfold Api.registerTrustList
    exact h.handled m.now (fun l => h.registerList m l) fun _ _ _ => rfl
  | trustListEntries jur =>
    simp only [Api.serve]
    apply Alike.answered _ m.now
    unfold Api.upsertTrustEntry
    exact h.handled m.now (fun e =>
      (h.upsertTrustEntry _ jur e.node e.notBefore e.supersededAt).calling storeError)
      fun _ _ _ => rfl
  | masterListWitnesses =>
    simp only [Api.serve]
    apply Alike.answered _ m.now
    unfold Api.setWitnesses
    exact h.handled m.now (fun w => (h.setWitnesses _ w.m w.witnesses).calling storeError)
      fun _ _ _ => rfl
  | masterListEntries =>
    simp only [Api.serve]
    apply Alike.answered _ m.now
    unfold Api.upsertMasterEntry
    exact h.handled m.now (fun e => (h.upsertMasterEntry _ e).calling storeError) fun _ _ _ => rfl
  | revocations =>
    simp only [Api.serve]
    apply Alike.answered _ m.now
    unfold Api.declareRevocation
    exact h.handled m.now (fun r => (h.declareRevocation _ r).calling declarationRefusal)
      fun _ _ _ => rfl
  | _ => exact h.refused _

/-- To every request but a release of the document, two stores that differ in its content answer
with one body, exactly when the request is no authorised reading of that content in the audit
log. -/
theorem content_undisclosed_iff (A : App V) (hC : A.crates.Lawful)
    (hS : A.crates.signatif.Lists) (d : String) (s s' : Store V) (hs : s.Held A.crates)
    (hs' : s'.Held A.crates) (h : DiffersIn d s s') (order order' : HashOrder) (req : Request)
    (m : Moment) (route : Route) (hr : ¬ Releases d s req route) :
    body (serve A order' req m s' route) = body (serve A order req m s route) ↔
      ¬ Discloses A d s s' req route := by
  constructor
  · intro hbody hd
    exact hd.differ hC order order' m m hbody
  · intro hd
    have halike := h.toShadow.serve (held_keyed hS hs) (held_keyed hS hs') hr hd order order' m
    rw [body, body, halike.result]

open Reference

def sealedRecord (content : Bytes) : AuditRecord vocabulary :=
  stamped signatif 0 (noon 0) (.registerEvidence ⟨"cert", "text/plain", "", "audit", content⟩)

def sealedStore (content : Bytes) : Store vocabulary :=
  storeOf crates [sealedRecord content] ((sealedRecord content).line signatif)

theorem registerEvidence_sealed (h : content ≠ []) :
    ∃ a, ((storeOf crates [] []).registerEvidence signatif (noon 0)
      ⟨"cert", "text/plain", "", "audit", content⟩).1 = .ok a := by
  have hfree : (storeOf crates [] []).evidence.contains "cert" = false := rfl
  have hid : (trim "cert").isEmpty = false := by decide
  have hscope : (trim "audit").isEmpty = false := by decide
  have hcontent : content.isEmpty = false := by rwa [List.isEmpty_eq_false_iff]
  simp only [Store.registerEvidence, hfree, hid, hscope, hcontent, Bool.false_eq_true, if_false]
  exact ⟨_, rfl⟩

theorem held_sealed (h : content ≠ []) : (sealedStore content).Held crates := by
  obtain ⟨a, ha⟩ := registerEvidence_sealed h
  have hok : ∃ a, ((storeOf crates [] []).mutate signatif (noon 0)
      (.registerEvidence ⟨"cert", "text/plain", "", "audit", content⟩)).1 = .ok a := by
    rw [Store.mutate, Prod.map_fst, ha]
    exact ⟨_, rfl⟩
  have hstore := mutate_storeOf (C := crates) rfl hok
  rw [List.nil_append, List.nil_append] at hstore
  refine ⟨some [], false, noon, _,
    [(.registerEvidence ⟨"cert", "text/plain", "", "audit", content⟩, noon 0)], rfl, ?_,
    hstore.symm⟩
  intro c hc
  rw [List.mem_singleton.1 hc]
  trivial

theorem sealed_state (content : Bytes) : (sealedStore content).toState =
    { State.initial crates with
      evidence := (∅ : StringMap Evidence).insert "cert"
        ⟨"cert", "text/plain", "", "audit", content⟩ } := by
  have hfree : (State.initial crates).evidence.contains "cert" = false := rfl
  rw [sealedStore, storeOf_toState, ← List.nil_append [sealedRecord content], stateOf_concat]
  simp only [sealedRecord, stamped, applyOp]
  rw [if_neg]
  · rfl
  · rw [show (stateOf crates []) = State.initial crates from rfl, hfree]
    exact Bool.false_ne_true

theorem sealed_log (content : Bytes) : (sealedStore content).log = [sealedRecord content] := by
  rw [sealedStore, storeOf_log]

theorem sealed_evidence (content : Bytes) : (sealedStore content).evidence["cert"]? =
    some ⟨"cert", "text/plain", "", "audit", content⟩ := by
  rw [sealed_state]
  exact Std.ExtTreeMap.getElem?_insert_self

theorem differsIn_sealed : DiffersIn "cert" (sealedStore [1, 2]) (sealedStore [3, 4]) where
  state := by rw [sealed_state, sealed_state]
  evidence := by
    rw [sealed_state, sealed_state, redactAll_insert, redactAll_insert]
    rfl
  log := by
    rw [sealed_log, sealed_log]
    rfl
  content := ⟨_, _, sealed_evidence _, sealed_evidence _, by decide⟩

def guarded : App vocabulary := { app with adminToken := some "token" }

def asAdmin : Request := ⟨∅, Std.ExtTreeMap.ofList [("authorization", "Bearer token")] compare, ""⟩

theorem asAdmin_allowed : requireAdmin guarded asAdmin = .ok () := by rfl

theorem content_undisclosed_catalogue :
    body (serve guarded .ascending asAdmin atNoon (sealedStore [3, 4]) .evidence) =
      body (serve guarded .ascending asAdmin atNoon (sealedStore [1, 2]) .evidence) :=
  (content_undisclosed_iff guarded crates_lawful reference_lists "cert" _ _
    (held_sealed (by decide)) (held_sealed (by decide)) differsIn_sealed .ascending .ascending
    asAdmin atNoon .evidence fun h => by cases h.1).2 fun h => by cases h.1

/-- With the administrator's token and no scope, the audit log tells the contents apart. -/
theorem content_disclosed :
    (sealedStore [1, 2]).Held crates ∧ (sealedStore [3, 4]).Held crates ∧
      DiffersIn "cert" (sealedStore [1, 2]) (sealedStore [3, 4]) ∧
      ¬ Releases "cert" (sealedStore [1, 2]) asAdmin .adminLog ∧
      body (serve guarded .ascending asAdmin atNoon (sealedStore [3, 4]) .adminLog) ≠
        body (serve guarded .ascending asAdmin atNoon (sealedStore [1, 2]) .adminLog) := by
  have hwindow : (sealedRecord [1, 2], sealedRecord [3, 4]) ∈
      (logWindow asAdmin (sealedStore [1, 2]).log).zip
        (logWindow asAdmin (sealedStore [3, 4]).log) := by
    rw [sealed_log, sealed_log]
    exact List.mem_cons_self
  have hd : Discloses guarded "cert" (sealedStore [1, 2]) (sealedStore [3, 4]) asAdmin .adminLog :=
    ⟨rfl, asAdmin_allowed, _, hwindow, _, _, rfl, rfl, rfl, by decide⟩
  have hr : ¬ Releases "cert" (sealedStore [1, 2]) asAdmin .adminLog := by
    rintro ⟨hroute, -⟩
    cases hroute
  exact ⟨held_sealed (by decide), held_sealed (by decide), differsIn_sealed, hr,
    hd.differ crates_lawful .ascending .ascending atNoon atNoon⟩

end UnidppTrust
