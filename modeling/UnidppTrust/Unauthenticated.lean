import UnidppTrust.Confidential

namespace UnidppTrust
open Rust Json Api
set_option autoImplicit true

variable {V : Vocabulary} {A : App V} {S : Signatif V} {s s' s'' : Store V} {req : Request}

def Api.Arrival.Carries (x : Arrival) (token : String) : Prop :=
  ∃ req, x.request = some req ∧ req.headers["authorization"]? = some ("Bearer " ++ token)

/-- A store that has gained releases of registered documents under their required scopes, and
nothing else. -/
structure Store.OnlyReleases (S : Signatif V) (s s' : Store V) : Prop where
  state : s'.toState = s.toState
  records : ∃ rs ws : List (AuditRecord V), s'.log = s.log ++ rs ∧ ws.Sublist rs ∧
    s'.journal = s.journal.map (· ++ ws.flatMap (·.line S)) ∧
    ∀ r ∈ rs, ∃ id requester e, s.evidence[id]? = some e ∧
      r.op = .evidenceReleased id requester e.requiredScope

theorem Store.OnlyReleases.refl (s : Store V) : s.OnlyReleases S s where
  state := rfl
  records := by
    refine ⟨[], [], (List.append_nil _).symm, .refl _, ?_, fun r hr => by cases hr⟩
    cases s.journal with
    | none => rfl
    | some file => rw [List.flatMap_nil, Option.map_some, List.append_nil]

theorem Store.OnlyReleases.trans (h : s.OnlyReleases S s') (h' : s'.OnlyReleases S s'') :
    s.OnlyReleases S s'' := by
  obtain ⟨hstate, rs, ws, hlog, hsub, hjournal, hrs⟩ := h
  obtain ⟨hstate', rs', ws', hlog', hsub', hjournal', hrs'⟩ := h'
  refine ⟨hstate'.trans hstate, rs ++ rs', ws ++ ws', ?_, hsub.append hsub', ?_, ?_⟩
  · rw [hlog', hlog, List.append_assoc]
  · rw [hjournal', hjournal, Option.map_map, List.flatMap_append]
    simp only [Function.comp_def, List.append_assoc]
  · intro r hr
    rcases List.mem_append.1 hr with hr | hr
    · exact hrs r hr
    · rw [← hstate]
      exact hrs' r hr

theorem releaseEvidence_onlyReleases (t : Tick) (id : String) (requester : Option String)
    (scope : String) : s.OnlyReleases S (s.releaseEvidence S t id requester scope).2 := by
  unfold Store.releaseEvidence
  split
  · exact .refl s
  · rename_i e he
    split
    · exact .refl s
    · rename_i hscope
      obtain rfl : scope = e.requiredScope := Decidable.not_not.1 hscope
      let r := (s.record S t (.evidenceReleased id requester e.requiredScope)).1
      refine ⟨rfl, [r], if t.written then [r] else [], rfl, ?_, ?_, ?_⟩
      · split
        · exact .refl _
        · exact List.nil_sublist _
      · simp only [Store.record]
        split
        · simp only [List.flatMap_singleton]
          rfl
        · simp only [List.flatMap_nil, List.append_nil]
      · intro r hr
        rw [List.mem_singleton.1 hr]
        exact ⟨id, requester, e, he, rfl⟩

theorem releaseEvidence_fst (h : s'.toState = s.toState) (t : Tick) (id : String)
    (requester : Option String) (scope : String) :
    (s'.releaseEvidence S t id requester scope).1 =
      (s.releaseEvidence S t id requester scope).1 := by
  unfold Store.releaseEvidence
  rw [h]
  split
  · rfl
  · split
    · rfl
    · rfl

theorem stripPrefix_eq_some {s p t : String} : stripPrefix s p = some t ↔ s = p ++ t := by
  unfold stripPrefix startsWith
  constructor
  · intro h
    split at h
    · rename_i hp
      obtain ⟨cs, hcs⟩ := List.isPrefixOf_iff_prefix.1 hp
      rw [← hcs, List.drop_left, Option.some.injEq] at h
      rw [← String.toList_inj, String.toList_append, ← hcs, ← h, String.toList_ofList]
    · cases h
  · intro h
    subst h
    rw [if_pos]
    · rw [String.toList_append, List.drop_left, String.ofList_toList]
    · rw [String.toList_append]
      exact List.isPrefixOf_iff_prefix.2 (List.prefix_append _ _)

theorem requireAdmin_unauthorized {token : String} (hA : A.adminToken = some token)
    (h : req.headers["authorization"]? ≠ some ("Bearer " ++ token)) :
    requireAdmin A req = fail unauthorized := by
  unfold requireAdmin
  rw [hA]
  dsimp only
  rw [if_neg]
  intro hb
  obtain ⟨v, hv, hp⟩ := Option.bind_eq_some_iff.1 hb
  rw [hv, stripPrefix_eq_some.1 hp] at h
  exact h rfl

def Api.Route.guarded : Route → Bool
  | .adminLog | .adminEvidence | .nodes | .edges | .trustLists | .trustListEntries _
  | .masterListWitnesses | .masterListEntries | .revocations => true
  | _ => false

theorem handle_unauthorized (h : requireAdmin A req = fail unauthorized) (now : Timestamp)
    (s : Store V) (decode : Value → Outcome Refusal α)
    (call : α → Store V → Outcome Refusal (AuditRecord V) × Store V)
    (doc : α → AuditRecord V → Store V → Value) :
    handle A req now s decode call doc = (fail unauthorized, s) := by
  unfold handle
  rw [h]
  rfl

theorem serve_guarded (h : requireAdmin A req = fail unauthorized) {route : Route}
    (hg : route.guarded = true) (order : HashOrder) (m : Moment) (s : Store V) :
    serve A order req m s route = (answer A m.now (fail unauthorized), s) := by
  cases route with
  | adminLog => simp only [serve, adminLog, h, fail, error_bind]
  | adminEvidence => simp only [serve, Api.registerEvidence, handle_unauthorized h]; rfl
  | nodes => simp only [serve, Api.registerNode, handle_unauthorized h]; rfl
  | edges => simp only [serve, Api.addEdge, handle_unauthorized h]; rfl
  | trustLists => simp only [serve, Api.registerTrustList, handle_unauthorized h]; rfl
  | trustListEntries jur =>
    simp only [serve, Api.upsertTrustEntry, handle_unauthorized h]
    rfl
  | masterListWitnesses => simp only [serve, Api.setWitnesses, handle_unauthorized h]; rfl
  | masterListEntries => simp only [serve, Api.upsertMasterEntry, handle_unauthorized h]; rfl
  | revocations => simp only [serve, Api.declareRevocation, handle_unauthorized h]; rfl
  | _ => cases hg

/-- What a request without the token can do: nothing, or a release. -/
theorem serve_onlyReleases (h : requireAdmin A req = fail unauthorized) (order : HashOrder)
    (m : Moment) (s : Store V) (route : Route) :
    s.OnlyReleases A.crates.signatif (serve A order req m s route).2 := by
  by_cases hg : route.guarded = true
  · rw [serve_guarded h hg]
    exact .refl s
  · cases route with
    | evidenceOne id =>
      have hrel := releaseEvidence_onlyReleases (S := A.crates.signatif) (s := s) (m.records 0) id
        (presented req "requester" "x-unidpp-requester") (scopeOf req)
      simp only [serve, evidenceRelease]
      split
      · rename_i heq
        rwa [heq] at hrel
      · rename_i heq
        rwa [heq] at hrel
    | discovery => exact .refl s
    | healthz => exact .refl s
    | keyring => exact .refl s
    | view v => exact .refl s
    | operator node => exact .refl s
    | evidence => exact .refl s
    | contractYaml => exact .refl s
    | _ => exact (hg rfl).elim

theorem serve_unlogged (h : requireAdmin A req = fail unauthorized)
    (hs : s'.toState = s.toState) (order : HashOrder) (m : Moment) (route : Route) :
    (serve A order req m s' route).1 = (serve A order req m s route).1 := by
  by_cases hg : route.guarded = true
  · rw [serve_guarded h hg, serve_guarded h hg]
  · cases route with
    | evidenceOne id =>
      have hfst := releaseEvidence_fst (S := A.crates.signatif) hs (m.records 0) id
        (presented req "requester" "x-unidpp-requester") (scopeOf req)
      simp only [serve, evidenceRelease]
      revert hfst
      rcases s.releaseEvidence _ _ _ _ _ with ⟨x, y⟩
      rcases s'.releaseEvidence _ _ _ _ _ with ⟨x', y'⟩
      intro hx
      dsimp only at hx
      subst hx
      cases x' with
      | ok e => rfl
      | error e => rfl
    | view v => simp only [serve, hs]
    | operator node => simp only [serve, hs]
    | evidence => simp only [serve, hs]
    | discovery => rfl
    | healthz => rfl
    | keyring => rfl
    | contractYaml => rfl
    | _ => exact (hg rfl).elim

theorem Api.Arrival.denied {x : Arrival} {token : String} (hA : A.adminToken = some token)
    (hx : ¬ x.Carries token) (hreq : x.request = some req) :
    requireAdmin A req = fail unauthorized := by
  apply requireAdmin_unauthorized hA
  intro hb
  exact hx ⟨req, hreq, hb⟩

theorem respond_onlyReleases {x : Arrival} {token : String} (hA : A.adminToken = some token)
    (hx : ¬ x.Carries token) (s : Store V) :
    s.OnlyReleases A.crates.signatif (respond A x s).2 := by
  unfold respond
  split
  · rename_i hreq
    exact serve_onlyReleases (Arrival.denied hA hx hreq) _ _ _ _
  · exact .refl s

theorem respond_unlogged {x : Arrival} {token : String} (hA : A.adminToken = some token)
    (hx : ¬ x.Carries token) (hs : s'.toState = s.toState) :
    (respond A x s').1 = (respond A x s).1 := by
  unfold respond
  split
  · rename_i hreq
    rw [Prod.map_fst, Prod.map_fst, serve_unlogged (Arrival.denied hA hx hreq) hs]
  · rfl

theorem respondAll_unlogged {xs : List Arrival} {token : String} (hA : A.adminToken = some token)
    (hxs : ∀ x ∈ xs, ¬ x.Carries token) (hs : s'.toState = s.toState) :
    (respondAll A s' xs).1 = (respondAll A s xs).1 := by
  induction xs generalizing s s' with
  | nil => rfl
  | cons x xs ih =>
    have hx := hxs x List.mem_cons_self
    have hstate : (respond A x s').2.toState = (respond A x s).2.toState := by
      rw [(respond_onlyReleases hA hx s').state, (respond_onlyReleases hA hx s).state, hs]
    simp only [respondAll, respond_unlogged hA hx hs]
    rw [ih (fun y hy => hxs y (List.mem_cons_of_mem x hy)) hstate]

theorem respondAll_onlyReleases {xs : List Arrival} {token : String}
    (hA : A.adminToken = some token) (hxs : ∀ x ∈ xs, ¬ x.Carries token) (s : Store V) :
    s.OnlyReleases A.crates.signatif (respondAll A s xs).2 := by
  induction xs generalizing s with
  | nil => exact .refl s
  | cons x xs ih =>
    have hrest := ih (fun y hy => hxs y (List.mem_cons_of_mem x hy)) (respond A x s).2
    exact (respond_onlyReleases hA (hxs x List.mem_cons_self) s).trans hrest

/-- With a token configured, requests that do not carry it change no part of the state, extend the
log and the journal by releases of registered documents under their required scopes only, and are
told nothing of the log. -/
theorem unauthenticated_integrity (A : App V) (token : String) (hA : A.adminToken = some token)
    (s : Store V) (xs : List Arrival) (hxs : ∀ x ∈ xs, ¬ x.Carries token) :
    (respondAll A s xs).2.toState = s.toState ∧
      (∃ rs ws : List (AuditRecord V), (respondAll A s xs).2.log = s.log ++ rs ∧
        ws.Sublist rs ∧ (respondAll A s xs).2.journal =
          s.journal.map (· ++ ws.flatMap (·.line A.crates.signatif)) ∧
        ∀ r ∈ rs, ∃ id requester e, s.evidence[id]? = some e ∧
          r.op = .evidenceReleased id requester e.requiredScope) ∧
      ∀ log journal, (respondAll A { s with log := log, journal := journal } xs).1 =
        (respondAll A s xs).1 := by
  obtain ⟨hstate, hrecords⟩ := respondAll_onlyReleases hA hxs s
  exact ⟨hstate, hrecords, fun log journal => respondAll_unlogged hA hxs rfl⟩

open Reference

def tokenless (method : Method) (path : Path) (query : StringMap String) : Arrival :=
  ⟨method, path, some ⟨query, ∅, ""⟩, ⟨404, [], []⟩, .ascending, atNoon⟩

theorem tokenless_carries (method : Method) (path : Path) (query : StringMap String)
    (token : String) : ¬ (tokenless method path query).Carries token := by
  intro h
  obtain ⟨req, hreq, ha⟩ := h
  cases hreq
  rw [Std.ExtTreeMap.getElem?_empty] at ha
  cases ha

/-- A registration, a release and a reading of the log, on a store with one document. -/
theorem unauthenticated_integrity_sealed :
    (respondAll guarded (sealedStore [1, 2]) [tokenless .post .nodes ∅,
      tokenless .get (.evidenceOne "cert") (Std.ExtTreeMap.ofList [("scope", "audit")] compare),
      tokenless .get .adminLog ∅]).2.toState = (sealedStore [1, 2]).toState :=
  (unauthenticated_integrity guarded "token" rfl (sealedStore [1, 2]) _ (by
    simp only [List.mem_cons, List.not_mem_nil, or_false, forall_eq_or_imp, forall_eq]
    exact ⟨tokenless_carries _ _ _ _, tokenless_carries _ _ _ _, tokenless_carries _ _ _ _⟩)).1

end UnidppTrust
