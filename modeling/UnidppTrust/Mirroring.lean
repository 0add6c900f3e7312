import UnidppTrust.Lists
import UnidppTrust.Refill
import UnidppTrust.Refusals
import UnidppTrust.ServiceRestarts

namespace UnidppTrust
open Rust Json Api
set_option autoImplicit true

variable {V : Vocabulary} {S : Signatif V} {A : App V} {C : Crates V}

def Stated (s : String) : Prop := trim s = s ∧ s.isEmpty = false

theorem stated_token {s field : String} (h : validateToken s field = .ok ()) : Stated s := by
  rw [validateToken] at h
  split at h
  · cases h
  · rename_i hc
    obtain ⟨hempty, -, hblank, -⟩ : ¬ s.isEmpty = true ∧ '/' ∉ s.toList ∧
        ¬ s.toList.any isWhitespace = true ∧ ¬ (bytes s).length > 256 := by
      simpa only [not_or] using hc
    refine ⟨trim_eq fun c hc => ?_, Bool.eq_false_iff.2 hempty⟩
    rw [Bool.eq_false_iff]
    exact fun hw => hblank (List.any_eq_true.2 ⟨c, hc, hw⟩)

theorem stated_optStr (h : optStr v key = some f) : Stated f := by
  rw [optStr] at h
  split at h
  · rename_i s hs
    split at h
    · cases h
    · rename_i hne
      cases h
      exact ⟨trim_trim s, Bool.eq_false_iff.2 hne⟩
  · cases h

/-- The jurisdiction and the framework are as the decoder leaves them. -/
def Op.Tokened : Op V → Prop
  | .registerTrustList j framework =>
    validateToken j "jurisdiction" = .ok () ∧ ∀ f ∈ framework, Stated f
  | _ => True

theorem Posts.tokened (h : Posts A req route op) : op.Tokened := by
  cases h with
  | list h =>
    obtain ⟨v, h⟩ := decoded_ok h
    obtain ⟨raw, -, h⟩ := bind_eq_ok h
    obtain ⟨u, htoken, h⟩ := bind_eq_ok h
    cases h
    exact ⟨htoken, fun f hf => stated_optStr hf⟩
  | _ => trivial

theorem tokened_seedLists {F : Fixtures V} (h : (buildTrustLists S F : Outcome ε _) = .ok lists) :
    ∀ op ∈ seedLists lists, op.Tokened := by
  obtain ⟨root, -, h⟩ := bind_eq_ok h
  cases h
  intro op hop
  rcases List.mem_append.1 hop with hop | hop
  · rw [List.mem_singleton.1 hop]
    exact ⟨rfl, fun f hf => by cases hf; exact ⟨rfl, rfl⟩⟩
  · obtain ⟨l, -, hop⟩ := List.mem_flatMap.1 hop
    obtain ⟨e, -, rfl⟩ := List.mem_map.1 hop
    trivial

theorem tokened_seedNodes {F : Fixtures V}
    (h : op ∈ seedNodes S F keys qIds quorumId rootId notifiedId issuerId) : op.Tokened := by
  simp only [seedNodes, List.mem_append, List.mem_map, List.mem_cons, List.not_mem_nil,
    or_false] at h
  rcases h with (⟨w, -, rfl⟩ | ⟨w, -, rfl⟩) | rfl | rfl | rfl | rfl
  all_goals trivial

theorem tokened_seedOps {F : Fixtures V} (h : (seedOps S F : Outcome ε _) = .ok ops) :
    ∀ op ∈ ops, op.Tokened := by
  obtain ⟨keys, qIds, quorumId, rootId, notifiedId, issuerId, edges, lists, master, revocations,
    hedges, hlists, hmaster, hrevocations, rfl⟩ := seedOps_ok h
  have hpair {a b : Op V} (ha : a.Tokened) (hb : b.Tokened) : ∀ op ∈ [a, b], op.Tokened :=
    List.forall_mem_cons.2 ⟨ha, List.forall_mem_singleton.2 hb⟩
  have hedge : ∀ op ∈ edges, op.Tokened := by
    obtain ⟨minted, -, hedges⟩ := bind_eq_ok hedges
    obtain ⟨hop1, -, hedges⟩ := bind_eq_ok hedges
    obtain ⟨hop2, -, hedges⟩ := bind_eq_ok hedges
    cases hedges
    exact hpair trivial trivial
  have hentry : ∀ op ∈ master, op.Tokened := by
    obtain ⟨attestations, -, hmaster⟩ := bind_eq_ok hmaster
    cases hmaster
    exact hpair trivial trivial
  have hrevocation : ∀ op ∈ revocations, op.Tokened := by
    obtain ⟨window, -, hrevocations⟩ := bind_eq_ok hrevocations
    obtain ⟨declaredBy, -, hrevocations⟩ := bind_eq_ok hrevocations
    obtain ⟨att, -, hrevocations⟩ := bind_eq_ok hrevocations
    cases hrevocations
    exact hpair trivial trivial
  exact List.forall_mem_append.2 ⟨List.forall_mem_append.2 ⟨List.forall_mem_append.2
    ⟨List.forall_mem_append.2 ⟨fun op hop => tokened_seedNodes hop, hedge⟩,
      tokened_seedLists hlists⟩, hentry⟩, hrevocation⟩

theorem State.Paired.framework {s : State V} (h : s.Paired) (hl : s.trustLists[key]? = some l) :
    s.frameworks[key]? = some (s.frameworkOf key) := by
  have hin := h key
  rw [Std.ExtTreeMap.contains_eq_isSome_getElem?, hl, Std.ExtTreeMap.contains_eq_isSome_getElem?,
    eq_comm, Option.isSome_some, Option.isSome_iff_exists] at hin
  obtain ⟨fw, hfw⟩ := hin
  rw [State.frameworkOf, hfw]
  rfl

/-- What is shown of a list can be posted. -/
structure TrustList.Publishable (S : Signatif V) (l : TrustList V) : Prop where
  token : validateToken l.jurisdiction "jurisdiction" = .ok ()
  clock : ∀ (n : V.NodeId) (e : TrustListEntry V), l.entries[n]? = some e →
    OnClock S e.notBefore ∧ ∀ t ∈ e.supersededAt, OnClock S t

structure State.Publishable (S : Signatif V) (s : State V) : Prop where
  list : ∀ (key : String) (l : TrustList V), s.trustLists[key]? = some l → l.Publishable S
  framework : ∀ key f : String, s.frameworks[key]? = some (some f) → Stated f

theorem publishable_initial : (State.initial C).Publishable C.signatif where
  list key l h := by
    rw [State.initial, Std.ExtTreeMap.getElem?_empty] at h
    cases h
  framework key f h := by
    rw [State.initial, Std.ExtTreeMap.getElem?_empty] at h
    cases h

theorem TrustList.Publishable.applyEntry {l : TrustList V} (h : l.Publishable S)
    {e : TrustListEntryRecord V}
    (he : OnClock S e.notBefore ∧ ∀ t ∈ e.supersededAt, OnClock S t) :
    (applyEntry l e).Publishable S where
  token := h.token
  clock n x hx := by
    simp only [UnidppTrust.applyEntry, Std.ExtTreeMap.getElem?_insert] at hx
    split at hx
    · cases hx
      split <;> exact he
    · exact h.clock n x hx

theorem State.Publishable.sameBut {s s' : State V} (hs : s.Publishable S)
    (h : s'.trustLists = s.trustLists ∧ s'.frameworks = s.frameworks) : s'.Publishable S := by
  obtain ⟨hlists, hframeworks⟩ := h
  exact ⟨fun key l hl => hs.list key l (hlists ▸ hl),
    fun key f hf => hs.framework key f (hframeworks ▸ hf)⟩

theorem applyOp_publishable (hS : S.Lists) {s : State V} {op : Op V} (h : s.Publishable S)
    (htoken : op.Tokened) (hop : op.WellFormed S) : (applyOp S s op).2.Publishable S := by
  cases op with
  | registerTrustList j framework =>
    simp only [applyOp]
    split
    · exact h
    · constructor
      · intro key l hl
        simp only [Std.ExtTreeMap.getElem?_insert] at hl
        split at hl
        · cases hl
          refine ⟨(hS.jurisdiction j).symm ▸ htoken.1, fun n e he => ?_⟩
          rw [hS.entries, Std.ExtTreeMap.getElem?_empty] at he
          cases he
        · exact h.list key l hl
      · intro key f hf
        simp only [Std.ExtTreeMap.getElem?_insert] at hf
        split at hf
        · cases hf
          exact htoken.2 f rfl
        · exact h.framework key f hf
  | upsertTrustEntry j node notBefore supersededAt =>
    simp only [applyOp]
    split
    · exact h
    · rename_i l hl
      refine ⟨fun key x hx => ?_, h.framework⟩
      simp only [Std.ExtTreeMap.getElem?_insert] at hx
      split at hx
      · cases hx
        exact (h.list _ l hl).applyEntry hop
      · exact h.list key x hx
  | _ => exact h.sameBut ((applyOp_sameBut S s _).lists fun h => by cases h)

theorem stateOf_publishable (hS : C.signatif.Lists) {log : List (AuditRecord V)}
    (h : ∀ r ∈ log, r.op.Tokened ∧ r.op.WellFormed C.signatif) :
    (stateOf C log).Publishable C.signatif ∧ (stateOf C log).Paired := by
  induction log using List.reverseRecOn with
  | nil =>
    refine ⟨publishable_initial, fun key => ?_⟩
    rw [stateOf, List.foldl_nil, State.initial, Std.ExtTreeMap.contains_empty,
      Std.ExtTreeMap.contains_empty]
  | append_singleton log r ih =>
    obtain ⟨hpublishable, hpaired⟩ := ih fun x hx => h x (List.mem_append_left [r] hx)
    obtain ⟨htoken, hop⟩ := h r (List.mem_append_right log List.mem_cons_self)
    rw [stateOf_concat]
    exact ⟨applyOp_publishable hS hpublishable htoken hop, applyOp_paired hpaired r.op⟩

theorem mutateAll_logged (s : Store V) (calls : List (Op V × Tick)) :
    ∀ r ∈ (s.mutateAll S calls).log, r ∈ s.log ∨ ∃ c ∈ calls, r.op = c.1 := by
  induction calls generalizing s with
  | nil => exact fun r hr => .inl hr
  | cons c calls ih =>
    intro r hr
    rcases ih _ r hr with hlog | ⟨d, hd, hop⟩
    · rcases mutate_cases S s c.2 c.1 with ⟨e, hm⟩ | ⟨-, a, hm⟩
      · rw [hm] at hlog
        exact .inl hlog
      · rw [hm] at hlog
        rcases List.mem_append.1 hlog with hlog | hnew
        · exact .inl hlog
        · rw [List.mem_singleton.1 hnew]
          exact .inr ⟨c, List.mem_cons_self, rfl⟩
    · exact .inr ⟨d, List.mem_cons_of_mem c hd, hop⟩

theorem Reached.respondAll {s : Store V} {xs : List Arrival}
    (h : Reached A.crates seed (Event.Ordinary A.crates) s)
    (hxs : ∀ x ∈ xs, (Happening.arrival x).Admissible A) :
    Reached A.crates seed (Event.Ordinary A.crates) (respondAll A s xs).2 := by
  induction xs generalizing s with
  | nil => exact h
  | cons x xs ih =>
    exact ih (h.respond (hxs x List.mem_cons_self)) fun y hy => hxs y (List.mem_cons_of_mem x hy)

theorem served_publishable (hC : A.crates.Lawful) (hS : A.crates.signatif.Lists)
    {ticks : Nat → Tick} (ht : ∀ i, (ticks i).now.InYears ∧ (ticks i).written = true)
    {s : Store V} (hopen : Store.open_ A.crates (some []) seed ticks = .ok s) {xs : List Arrival}
    (hxs : ∀ x ∈ xs, (Happening.arrival x).Admissible A) :
    let s' := (respondAll A s xs).2
    s'.Publishable A.crates.signatif ∧ s'.Paired ∧ s'.Keyed := by
  intro s'
  have hreached : Reached A.crates seed (Event.Ordinary A.crates) s' :=
    (Reached.opened ticks (ordinary_restart ht) hopen).respondAll hxs
  obtain ⟨hsound, hreadable, -⟩ := hreached.sound hC
  obtain ⟨-, hseeded, hunseeded⟩ := open_new hC hopen
  obtain ⟨calls, hposted, hstore⟩ := respondAll_calls A s xs
  change s' = _ at hstore
  have htoken : ∀ r ∈ s'.log, r.op.Tokened := by
    intro r hr
    rw [hstore] at hr
    rcases mutateAll_logged s calls r hr with hr | ⟨c, hc, hop⟩
    · cases seed with
      | false =>
        rw [hunseeded rfl] at hr
        cases hr
      | true => exact tokened_seedOps (hseeded rfl).1 r.op (List.mem_map_of_mem hr)
    · obtain ⟨x, -, route, req, -, -, hposts, -⟩ := hposted c hc
      rw [hop]
      exact hposts.tokened
  have hlogged : ∀ r ∈ s'.log, r.op.Tokened ∧ r.op.WellFormed A.crates.signatif :=
    fun r hr => ⟨htoken r hr, (hreadable r hr).1⟩
  obtain ⟨hpublishable, hpaired⟩ := stateOf_publishable hS hlogged
  have hheld : s'.Held A.crates := by
    refine ⟨some [], seed, ticks, s, calls, hopen, fun c hc => ?_, hstore⟩
    obtain ⟨x, -, route, req, -, -, hposts, -⟩ := hposted c hc
    exact hposts.decodable
  rw [← hsound.state] at hpublishable hpaired
  exact ⟨hpublishable, hpaired, held_keyed hS hheld⟩

theorem trustEntryFromValue_shown (hS : S.Lawful P) {e : TrustListEntry V}
    (he : OnClock S e.notBefore ∧ ∀ t ∈ e.supersededAt, OnClock S t) (asOf : Timestamp) :
    trustEntryFromValue S (entryInForce S asOf e) =
      .ok ⟨e.node, e.notBefore, e.supersededAt⟩ := by
  have hsuperseded := optTs_round_trip hS he.2 "superseded_at"
  simp [trustEntryFromValue, entryInForce, entryFields, strOrNull, lookup_cons_ite, hS.nodeId,
    tsParse_timeStr hS he.1, Option.map_map, Function.comp_def, hsuperseded]

/-- What is shown of a list is decoded to the request for it. -/
theorem decodeList_shown {l : TrustList V} (hl : l.Publishable S) {framework : Option String}
    (hf : ∀ f ∈ framework, Stated f) (asOf : Timestamp) :
    decodeList (.object (listFields S l framework asOf)) = .ok ⟨l.jurisdiction, framework,
      (valuesOf l.entries).map (entryInForce S asOf)⟩ := by
  obtain ⟨htrim, hempty⟩ := stated_token hl.token
  have hraw : reqStr (.object (listFields S l framework asOf)) "jurisdiction" =
      .ok l.jurisdiction := by
    simp [reqStr, listFields, lookup_cons_ite, htrim, hempty]
  have hframework : optStr (.object (listFields S l framework asOf)) "framework" = framework := by
    cases framework with
    | none => simp [optStr, listFields, lookup_cons_ite, strOrNull, Value.ofOption, Value.asStr]
    | some f =>
      obtain ⟨hf, hne⟩ := hf f rfl
      simp [optStr, listFields, lookup_cons_ite, strOrNull, Value.ofOption, Value.asStr, hf, hne]
  have hentries : ((Value.object (listFields S l framework asOf)).get "entries").bind
      Value.asArray = some ((valuesOf l.entries).map (entryInForce S asOf)) := by
    simp [listFields, Value.asArray]
  rw [decodeList, hraw, ok_bind, htrim]
  dsimp only
  rw [hl.token, ok_bind, hframework, hentries]
  rfl

/-- A list stands under a key, and all else is as it was. -/
structure State.Listed (s s' : State V) (key : String) (l : TrustList V)
    (fw : Option String) : Prop where
  list : s'.trustLists[key]? = some l
  framework : s'.frameworks[key]? = some fw
  others : ∀ k, k ≠ key →
    s'.trustLists[k]? = s.trustLists[k]? ∧ s'.frameworks[k]? = s.frameworks[k]?
  parts : s.SameBut .lists s'

theorem State.Listed.insert {s s' : State V} (h : s.Listed s' key l fw) (l' : TrustList V) :
    s.Listed { s' with trustLists := s'.trustLists.insert key l' } key l' fw where
  list := Std.ExtTreeMap.getElem?_insert_self
  framework := h.framework
  others k hk := by
    obtain ⟨hlist, hframework⟩ := h.others k hk
    refine ⟨?_, hframework⟩
    rw [← hlist, Std.ExtTreeMap.getElem?_insert, if_neg]
    exact fun he => hk (compare_eq_iff_eq.1 he).symm
  parts := ⟨h.parts.graph, fun hp => (hp rfl).elim, h.parts.master, h.parts.ledger,
    h.parts.evidence⟩

def TrustList.enter (l : TrustList V) (e : TrustListEntry V) : TrustList V :=
  applyEntry l ⟨e.node, e.notBefore, e.supersededAt⟩

theorem applyEntries_shown (hS : A.crates.signatif.Lawful P)
    {es : List (TrustListEntry V)}
    (hes : ∀ e ∈ es, OnClock A.crates.signatif e.notBefore ∧
      ∀ t ∈ e.supersededAt, OnClock A.crates.signatif t)
    (asOf : Timestamp) (ticks : Nat → Tick) {s : State V} {s' : Store V}
    (h : s.Listed s'.toState (toAsciiUppercase j) l fw) :
    ∃ s'', applyEntries A s' ticks j (es.map (entryInForce A.crates.signatif asOf)) =
        (.ok (), s'') ∧
      s.Listed s''.toState (toAsciiUppercase j) (es.foldl .enter l) fw := by
  induction es generalizing l s' ticks with
  | nil => exact ⟨s', rfl, h⟩
  | cons e es ih =>
    have hpresent : s'.trustLists.contains (toAsciiUppercase j) = true := by
      rw [Std.ExtTreeMap.contains_eq_isSome_getElem?, h.list]
      rfl
    obtain ⟨r, hr, -⟩ := upsertTrustEntry_present (S := A.crates.signatif) hpresent (ticks 0)
      ⟨e.node, e.notBefore, e.supersededAt⟩
    have hnext : s.Listed (s'.record A.crates.signatif (ticks 0) (.upsertTrustEntry j e.node
        e.notBefore e.supersededAt)).2.toState (toAsciiUppercase j) (l.enter e) fw := by
      simp only [Store.record, applyOp, h.list]
      exact h.insert _
    obtain ⟨s'', hs'', hlisted⟩ := ih (fun x hx => hes x (List.mem_cons_of_mem e hx))
      (fun i => ticks (i + 1)) hnext
    refine ⟨s'', ?_, hlisted⟩
    rw [List.map_cons, applyEntries, trustEntryFromValue_shown hS (hes e List.mem_cons_self)]
    simp only [stated_ok, followed_ok, hr, calling_ok]
    exact hs''

theorem fills_enter : Refill.Fills (fun (l : TrustList V) n => l.entries[n]?)
    TrustListEntry.node TrustList.enter := by
  intro l e hfree
  change l.entries[e.node]? = none at hfree
  funext n
  simp only [TrustList.enter, applyEntry, Std.ExtTreeMap.getElem?_insert, Std.compare_eq_iff_eq]
  by_cases hn : e.node = n
  · subst hn
    rw [if_pos rfl, Function.update_self, hfree]
  · rw [if_neg hn, Function.update_of_ne (Ne.symm hn)]

theorem TrustList.Keyed.entered {l l₀ : TrustList V} (hl : l.Keyed key)
    (hj : l₀.jurisdiction = l.jurisdiction) (hempty : l₀.entries = ∅) :
    (valuesOf l.entries).foldl .enter l₀ = l := by
  have hjurisdiction (es : List (TrustListEntry V)) (x : TrustList V) :
      (es.foldl .enter x).jurisdiction = x.jurisdiction := by
    induction es generalizing x with
    | nil => rfl
    | cons e es ih => exact ih _
  have hentries : ((valuesOf l.entries).foldl .enter l₀).entries = l.entries := by
    apply Std.ExtTreeMap.ext_getElem?
    refine fills_enter.values hl.entry fun n => ?_
    rw [hempty, Std.ExtTreeMap.getElem?_empty]
  have hfirst := (hjurisdiction (valuesOf l.entries) l₀).trans hj
  generalize (valuesOf l.entries).foldl .enter l₀ = x at hfirst hentries ⊢
  obtain ⟨j, entries⟩ := x
  cases hfirst
  cases hentries
  rfl

def Created (x : Outcome Empty Response) : Prop := ∃ r, x = .ok r ∧ r.status = 201

/-- What is shown of a list is posted to a service that has none under its key. -/
theorem list_created (hS : A.crates.signatif.Lawful P) (hL : A.crates.signatif.Lists)
    {l : TrustList V} (hkeyed : l.Keyed key) (hl : l.Publishable A.crates.signatif)
    {fw : Option String} (hf : ∀ f ∈ fw, Stated f) {asOf : Timestamp} {x : Arrival}
    (h : Posting A .trustLists text x)
    (hread : A.crates.json.fromStr text =
      .ok (.object (listFields A.crates.signatif l fw asOf)))
    {s : Store V} (hfree : s.trustLists[key]? = none) :
    Created (respond A x s).1 ∧ s.Listed (respond A x s).2.toState key l fw := by
  obtain ⟨req, hreq, hdecoded⟩ := h.decoded decodeList hread (decodeList_shown hl hf asOf)
  obtain ⟨hmethod, hpath, -⟩ := h
  obtain rfl := hkeyed.jurisdiction
  have hcontains : s.trustLists.contains (toAsciiUppercase l.jurisdiction) = false := by
    rw [Std.ExtTreeMap.contains_eq_isSome_getElem?, hfree]
    rfl
  have hregister : s.registerTrustList A.crates.signatif (x.moment.records 0) l.jurisdiction fw =
      s.recorded A.crates.signatif (x.moment.records 0) (.registerTrustList l.jurisdiction fw) := by
    rw [Store.registerTrustList, hcontains]
    rfl
  have hlisted : s.Listed (s.record A.crates.signatif (x.moment.records 0)
      (.registerTrustList l.jurisdiction fw)).2.toState (toAsciiUppercase l.jurisdiction)
      (A.crates.signatif.trustListNew l.jurisdiction) fw := by
    refine ⟨?_, ?_, fun k hk => ?_, applyOp_sameBut _ _ (.registerTrustList l.jurisdiction fw)⟩
    all_goals simp only [Store.record, applyOp, hcontains, Bool.false_eq_true, if_false]
    · exact Std.ExtTreeMap.getElem?_insert_self
    · exact Std.ExtTreeMap.getElem?_insert_self
    · simp only [Std.ExtTreeMap.getElem?_insert, Std.compare_eq_iff_eq, if_neg (Ne.symm hk)]
      exact ⟨trivial, trivial⟩
  have hclock : ∀ e ∈ valuesOf l.entries, OnClock A.crates.signatif e.notBefore ∧
      ∀ t ∈ e.supersededAt, OnClock A.crates.signatif t := by
    intro e he
    obtain ⟨n, hn⟩ := Refill.mem_values.1 he
    exact hl.clock n e hn
  obtain ⟨s', hs', hentered⟩ :=
    applyEntries_shown hS hclock asOf (fun i => x.moment.records (i + 1)) hlisted
  rw [hkeyed.entered (hL.jurisdiction _) (hL.entries _)] at hentered
  have hcall : registerList A x.moment ⟨l.jurisdiction, fw,
      (valuesOf l.entries).map (entryInForce A.crates.signatif asOf)⟩ s =
        (.ok (s.record A.crates.signatif (x.moment.records 0)
          (.registerTrustList l.jurisdiction fw)).1, s') := by
    rw [registerList, hregister, Store.recorded, calling_ok, followed_ok, hs', followed_ok]
  have hroute : router x.method x.path = some .trustLists := by
    rw [hmethod, hpath]
    rfl
  rw [respond_routed hroute hreq (by rw [hmethod]; decide), serve, Api.registerTrustList,
    handle_ok hdecoded hcall, Prod.map, answer]
  exact ⟨⟨_, rfl, rfl⟩, hentered⟩

theorem State.SameBut.trans {s s' s'' : State V} (h : s.SameBut p s') (h' : s'.SameBut p s'') :
    s.SameBut p s'' where
  graph hp := (h'.graph hp).trans (h.graph hp)
  lists hp := ⟨(h'.lists hp).1.trans (h.lists hp).1, (h'.lists hp).2.trans (h.lists hp).2⟩
  master hp := (h'.master hp).trans (h.master hp)
  ledger hp := (h'.ledger hp).trans (h.ledger hp)
  evidence hp := (h'.evidence hp).trans (h.evidence hp)

def shownRow (S : Signatif V) (asOf : Timestamp) (r : String × TrustList V × Option String) :
    Value :=
  .object (listFields S r.2.1 r.2.2 asOf)

theorem rows_created (hS : A.crates.signatif.Lawful P) (hL : A.crates.signatif.Lists)
    {rows : List (String × TrustList V × Option String)}
    (hrows : ∀ r ∈ rows, r.2.1.Keyed r.1 ∧ r.2.1.Publishable A.crates.signatif ∧
      ∀ f ∈ r.2.2, Stated f)
    (hnodup : (rows.map (·.1)).Nodup) {asOf : Timestamp} {ys : List Arrival}
    (hys : List.Forall₂ (fun r y => ∃ text, Posting A .trustLists text y ∧
      A.crates.json.fromStr text = .ok (shownRow A.crates.signatif asOf r)) rows ys)
    {t : Store V} (hfree : ∀ r ∈ rows, t.trustLists[r.1]? = none) :
    let t' := (respondAll A t ys).2
    (∀ x ∈ (respondAll A t ys).1, Created x) ∧
    (∀ r ∈ rows, t'.trustLists[r.1]? = some r.2.1 ∧ t'.frameworks[r.1]? = some r.2.2) ∧
    (∀ key, key ∉ rows.map (·.1) →
      t'.trustLists[key]? = t.trustLists[key]? ∧ t'.frameworks[key]? = t.frameworks[key]?) ∧
    t.SameBut .lists t'.toState := by
  induction hys generalizing t with
  | nil =>
    exact ⟨List.forall_mem_nil _, List.forall_mem_nil _, fun _ _ => ⟨rfl, rfl⟩, .refl _ _⟩
  | @cons row y rows ys hy hys ih =>
    obtain ⟨text, hposting, hread⟩ := hy
    obtain ⟨hkeyed, hpublishable, hstated⟩ := hrows row List.mem_cons_self
    obtain ⟨hnew, hnodup⟩ := List.nodup_cons.1 hnodup
    obtain ⟨hfirst, hlisted⟩ := list_created hS hL hkeyed hpublishable hstated hposting
      hread (hfree row List.mem_cons_self)
    have hstill : ∀ x ∈ rows, (respond A y t).2.trustLists[x.1]? = none := by
      intro x hx
      rw [(hlisted.others x.1 fun he => hnew (List.mem_map.2 ⟨x, hx, he⟩)).1]
      exact hfree x (List.mem_cons_of_mem row hx)
    obtain ⟨hcreated, hin, hout, hparts⟩ :=
      ih (fun x hx => hrows x (List.mem_cons_of_mem row hx)) hnodup hstill
    obtain ⟨hlist, hframework⟩ := hout row.1 hnew
    refine ⟨List.forall_mem_cons.2 ⟨hfirst, hcreated⟩, List.forall_mem_cons.2
      ⟨⟨hlist.trans hlisted.list, hframework.trans hlisted.framework⟩, hin⟩, fun key hkey => ?_,
      hlisted.parts.trans hparts⟩
    rw [List.map_cons, List.mem_cons, not_or] at hkey
    obtain ⟨hlist, hframework⟩ := hout key hkey.2
    obtain ⟨hlist', hframework'⟩ := hlisted.others key hkey.1
    exact ⟨hlist.trans hlist', hframework.trans hframework'⟩

theorem canonical_listFields (l : TrustList V) (fw : Option String) (asOf : Timestamp) :
    (listFields S l fw asOf).Forall fun f => f.2.Canonical P (n + 2) := by
  refine ⟨trivial, canonical_option fun _ _ => trivial, canonical_arr.2 fun v hv => ?_⟩
  obtain ⟨e, -, rfl⟩ := List.mem_map.1 hv
  exact canonical_fields ⟨trivial, trivial, canonical_option fun _ _ => trivial, trivial⟩

theorem canonical_listsDoc (order : HashOrder) (f : ListFilter) (s : State V) (asOf : Timestamp) :
    (listsDoc S order f s asOf).Canonical P 127 := by
  refine canonical_fields ⟨trivial, trivial, canonical_arr.2 fun v hv => ?_⟩
  obtain ⟨l, -, rfl⟩ := List.mem_map.1 ((sortByKey_perm _ _).mem_iff.1 hv)
  exact canonical_fields (canonical_listFields _ _ asOf)

/-- What a client reads at `/trust-lists` are the lists that its filter shows, in some order. -/
theorem Reads.lists (hA : A.Legible) {s : Store V} {doc : Value}
    (h : Reads A .trustLists req s doc) :
    ∃ asOf order, (∀ t, parseAt req.query = .ok (some t) → asOf = t) ∧
      ∃ rows : List (String × TrustList V × Option String),
      rows.Perm (listRows order (listFilter req.query) s.toState) ∧
      doc.get "trust_lists" = some (.arr (rows.map (shownRow A.crates.signatif asOf))) := by
  obtain ⟨order, at_, asOf, hd, hat⟩ := h.viewed (v := .trustLists) hA rfl fun _ _ _ _ hd => by
    cases hd
    exact canonical_listsDoc _ _ _ _
  have hdoc := Except.ok.inj hd
  have hviews : listViews A.crates.signatif order (listFilter req.query) s.toState asOf =
      sortByKey (textAt "jurisdiction") ((listRows order (listFilter req.query) s.toState).map
        (shownRow A.crates.signatif asOf)) := by
    rw [listViews, listRows, List.map_map]
    rfl
  -- the views are sorted, and with them the lists
  have hperm : listViews A.crates.signatif order (listFilter req.query) s.toState asOf |>.Perm
      ((listRows order (listFilter req.query) s.toState).map (shownRow A.crates.signatif asOf)) :=
    hviews ▸ sortByKey_perm _ _
  obtain ⟨rows, hrows, hperm⟩ :=
    (congrFun₂ (List.eq_map_comp_perm (shownRow A.crates.signatif asOf)) _ _).mpr hperm
  refine ⟨asOf, order, hat, rows, hperm, ?_⟩
  rw [← hdoc, listsDoc, hrows, get_object, lookup_fieldsOf]
  rfl

theorem canonical_listDoc (l : TrustList V) (fw : Option String) (asOf : Timestamp) :
    (listDoc S l fw asOf).Canonical P 127 :=
  canonical_fields ⟨trivial, canonical_listFields l fw asOf⟩

theorem canonical_trustListOne {s : State V} {asOf : Timestamp}
    (h : Api.trustListOne A jur s asOf = .ok d) : d.Canonical P 127 := by
  obtain ⟨l, -, h⟩ := bind_eq_ok h
  cases h
  exact canonical_listDoc _ _ _

theorem reads_list_congr {B : App V} (hA : A.Legible) (hB : B.crates = A.crates) {s t : Store V}
    (hlist : t.trustLists[toAsciiUppercase jur]? = s.trustLists[toAsciiUppercase jur]?)
    (hframework : t.frameworks[toAsciiUppercase jur]? = s.frameworks[toAsciiUppercase jur]?)
    {doc : Value} (h : Reads A (.trustListOne jur) req s doc) :
    Reads B (.trustListOne jur) req t doc := by
  refine reads_view_congr (v := .trustListOne jur) hA rfl
    (fun _ _ _ _ hd => canonical_trustListOne hd) hB (fun _ _ asOf => ?_) h
  simp only [View.doc, Api.trustListOne, findList, State.frameworkOf, hlist, hframework, hB]

def ListFilter.Shows (f : ListFilter) (s : State V) (key : String) : Prop :=
  key ∈ s.trustLists ∧ f.admits key (s.frameworkOf key) = true

theorem mem_keys_listRows (order : HashOrder) (f : ListFilter) (s : State V) :
    key ∈ (listRows order f s).map (·.1) ↔ f.Shows s key := by
  rw [List.mem_map, ListFilter.Shows, ← Std.ExtTreeMap.isSome_getElem?_iff_mem,
    Option.isSome_iff_exists]
  constructor
  · rintro ⟨⟨key, l, fw⟩, hrow, rfl⟩
    obtain ⟨hl, rfl, hadmits⟩ := (mem_listRows order f s).1 hrow
    exact ⟨⟨l, hl⟩, hadmits⟩
  · rintro ⟨⟨l, hl⟩, hadmits⟩
    exact ⟨(key, l, _), (mem_listRows order f s).2 ⟨hl, rfl, hadmits⟩, rfl⟩

/-- What a service shows of its trust lists, posted list by list to a service that has none of
them, is answered as created throughout, and leaves there just these lists beside what was there;
from then on both services show them alike. -/
theorem catalogue_mirrored (A B : App V) (hB : B.crates = A.crates) (hC : A.crates.Lawful)
    (hS : A.crates.signatif.Lists) (hA : A.Legible) (seed : Bool) (ticks : Nat → Tick)
    (ht : ∀ i, (ticks i).now.InYears ∧ (ticks i).written = true) (s₀ : Store V)
    (hopen : Store.open_ A.crates (some []) seed ticks = .ok s₀) (xs : List Arrival)
    (hxs : ∀ x ∈ xs, (Happening.arrival x).Admissible A) (req : Request) (doc : Value)
    (hdoc : Reads A .trustLists req (respondAll A s₀ xs).2 doc) (vs : List Value)
    (hvs : doc.get "trust_lists" = some (.arr vs)) (t : Store V) (ys : List Arrival)
    (hys : List.Forall₂ (fun v y => ∃ text, Posting B .trustLists text y ∧
      B.crates.json.fromStr text = .ok v) vs ys)
    (hfree : ∀ key, (listFilter req.query).Shows (respondAll A s₀ xs).2.toState key →
      key ∉ t.trustLists) :
    let s := (respondAll A s₀ xs).2
    let t' := (respondAll B t ys).2
    (∀ x ∈ (respondAll B t ys).1, Created x) ∧
    (∀ key, (listFilter req.query).Shows s.toState key →
      t'.trustLists[key]? = s.trustLists[key]? ∧ t'.frameworks[key]? = s.frameworks[key]?) ∧
    (∀ key, ¬ (listFilter req.query).Shows s.toState key →
      t'.trustLists[key]? = t.trustLists[key]? ∧ t'.frameworks[key]? = t.frameworks[key]?) ∧
    t.SameBut .lists t'.toState ∧
    ∀ jur, (listFilter req.query).Shows s.toState (toAsciiUppercase jur) → ∀ asked d,
      Reads B (.trustListOne jur) asked t' d ↔ Reads A (.trustListOne jur) asked s d := by
  intro s t'
  obtain ⟨hpublishable, hpaired, hkeyed⟩ := served_publishable hC hS ht hopen hxs
  obtain ⟨asOf, order, -, rows, hperm, hshown⟩ := hdoc.lists hA
  rw [hvs, Option.some.injEq, Value.arr.injEq] at hshown
  subst hshown
  have hrow (r : String × TrustList V × Option String) (hr : r ∈ rows) :
      s.trustLists[r.1]? = some r.2.1 ∧ s.frameworks[r.1]? = some r.2.2 := by
    obtain ⟨hl, hfw, -⟩ := (mem_listRows order _ _).1 (hperm.mem_iff.1 hr)
    exact ⟨hl, hfw ▸ hpaired.framework hl⟩
  have hkeys (key : String) : key ∈ rows.map (·.1) ↔ (listFilter req.query).Shows s.toState key :=
    ((hperm.map _).mem_iff).trans (mem_keys_listRows order _ _)
  rw [← hB] at hC hS hpublishable hys
  have hpublished : ∀ r ∈ rows, r.2.1.Keyed r.1 ∧ r.2.1.Publishable B.crates.signatif ∧
      ∀ f ∈ r.2.2, Stated f := by
    intro r hr
    obtain ⟨hl, hfw⟩ := hrow r hr
    exact ⟨hkeyed.list _ _ hl, hpublishable.list _ _ hl, fun f hf =>
      hpublishable.framework r.1 f (hfw.trans (congrArg some hf))⟩
  have hvacant : ∀ r ∈ rows, t.trustLists[r.1]? = none := by
    intro r hr
    rw [← Option.not_isSome_iff_eq_none, Std.ExtTreeMap.isSome_getElem?_iff_mem]
    exact hfree r.1 ((hkeys r.1).1 (List.mem_map_of_mem hr))
  obtain ⟨hcreated, hin, hout, hparts⟩ := rows_created hC.signatif hS hpublished
    ((hperm.map _).nodup_iff.2 (nodup_listRows order _ _)) (List.forall₂_map_left_iff.1 hys) hvacant
  have hsame (key : String) (hkey : (listFilter req.query).Shows s.toState key) :
      t'.trustLists[key]? = s.trustLists[key]? ∧ t'.frameworks[key]? = s.frameworks[key]? := by
    obtain ⟨r, hr, rfl⟩ := List.mem_map.1 ((hkeys key).2 hkey)
    obtain ⟨hl, hfw⟩ := hrow r hr
    obtain ⟨hl', hfw'⟩ := hin r hr
    exact ⟨hl'.trans hl.symm, hfw'.trans hfw.symm⟩
  refine ⟨hcreated, hsame, fun key hkey => hout key fun hmem => hkey ((hkeys key).1 hmem), hparts,
    fun jur hjur asked d => ?_⟩
  obtain ⟨hlist, hframework⟩ := hsame _ hjur
  exact ⟨reads_list_congr (hA.crates hB) hB.symm hlist.symm hframework.symm,
    reads_list_congr hA hB hlist hframework⟩

open Reference

def shownList : Value := shownRow signatif ⟨43200⟩ ("EU", ⟨"EU", ∅⟩, none)

theorem canonical_shownList : shownList.Canonical crates.json.printed 127 :=
  canonical_fields (canonical_listFields _ _ _)

theorem respondAll_listArrival :
    (respondAll app (storeOf crates [] []) [listArrival]).2 =
      ((storeOf crates [] []).record signatif (noon 0) (.registerTrustList "EU" none)).2 := by
  obtain ⟨r, hr, -⟩ := listArrival_created
  rw [respondAll_one, hr]

theorem reads_listArrival :
    ∃ doc, Reads app .trustLists ⟨∅, ∅, ""⟩
        (respondAll app (storeOf crates [] []) [listArrival]).2 doc ∧
      doc.get "trust_lists" = some (.arr [shownList]) := by
  rw [respondAll_listArrival]
  refine ⟨_, reads_doc (A := app) (x := fun order m => readAt ∅ m.now fun at_ asOf =>
    View.doc app order ∅ _ at_ asOf .trustLists) app_legible rfl (fun _ _ => rfl) .ascending
    ⟨⟨43200⟩, noon⟩ rfl rfl (canonical_listsDoc _ _ _ _), ?_⟩
  rw [listsDoc, get_object, lookup_fieldsOf]
  rfl

/-- The list stands on the second service as on the first. -/
theorem catalogue_mirrored_list :
    Created (respond app (posted .trustLists shownList.toStringPretty) (storeOf crates [] [])).1 ∧
      (respondAll app (storeOf crates [] [])
        [posted .trustLists shownList.toStringPretty]).2.trustLists["EU"]? = some ⟨"EU", ∅⟩ := by
  obtain ⟨doc, hdoc, hvs⟩ := reads_listArrival
  obtain ⟨hcreated, hsame, -⟩ := catalogue_mirrored app app rfl crates_lawful reference_lists
    app_legible false noon noon_inYears (storeOf crates [] []) rfl [listArrival]
    (List.forall_mem_singleton.2 listArrival_admissible) _ doc hdoc _ hvs (storeOf crates [] [])
    [posted .trustLists shownList.toStringPretty]
    (.cons (posting_shown .trustLists canonical_shownList) .nil)
    fun key _ hmem => Std.ExtTreeMap.not_mem_empty hmem
  refine ⟨hcreated _ List.mem_cons_self, ?_⟩
  rw [(hsame "EU" ?_).1, respondAll_listArrival]
  · rfl
  · rw [respondAll_listArrival]
    exact ⟨Std.ExtTreeMap.mem_insert_self, rfl⟩
end UnidppTrust
