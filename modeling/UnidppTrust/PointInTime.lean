import UnidppTrust.Keyed
import UnidppTrust.Reference

namespace UnidppTrust
open Rust Json Api
set_option autoImplicit true

def Api.View.reads : View → Part → Prop
  | .graph, p => p = .graph
  | .anchorBundle, p => p = .lists ∨ p = .master
  | .trustLists, p | .trustListOne _, p => p = .lists
  | .masterList, p => p = .master
  | .revocations, p => p = .ledger ∨ p = .graph

variable {V : Vocabulary} {S : Signatif V} {A : App V} {query : StringMap String}
  {at_ : Option Timestamp} {asOf : Timestamp}

def Op.listed (s : State V) : Op V → Option (String × Option String)
  | .registerTrustList jurisdiction framework => some (toAsciiUppercase jurisdiction, framework)
  | .upsertTrustEntry jurisdiction _ _ _ =>
    some (toAsciiUppercase jurisdiction, s.frameworkOf (toAsciiUppercase jurisdiction))
  | _ => none

/-- The operations that leave alone what a view shows: of parts it does not read, on lists and of
declarations it filters out, and on the graph when it shows no declaration that is judged there. -/
inductive Spares (S : Signatif V) (query : StringMap String) (s : State V) :
    View → Op V → Prop where
  | apart (h : ¬ v.reads op.part) : Spares S query s v op
  | otherBundle (hl : op.listed s = some (key, fw))
      (h : ∀ jur, optQuery query "jurisdiction" = some jur → toAsciiUppercase jur ≠ key) :
      Spares S query s .anchorBundle op
  | otherList (hl : op.listed s = some (key, fw)) (h : toAsciiUppercase jur ≠ key) :
      Spares S query s (.trustListOne jur) op
  | filtered (hl : op.listed s = some (key, fw)) (h : (listFilter query).admits key fw = false) :
      Spares S query s .trustLists op
  | unshown (h : ∀ q, revocationQuery query = .ok q → q.admits S r = false) :
      Spares S query s .revocations (.declareRevocation r)
  | unjudged (hp : op.part = .graph) (h : ∀ q, revocationQuery query = .ok q →
      ∀ r ∈ S.ledgerRevocations s.ledger, q.admits S r = true →
        S.isRetroactive r.reason = false) :
      Spares S query s .revocations op

/-- No mutation acts on what the view shows when it is made. -/
def Store.Spared (S : Signatif V) (query : StringMap String) (v : View) (s : Store V) :
    List (Op V × Tick) → Prop
  | [] => True
  | c :: cs => Spares S query s.toState v c.1 ∧ (s.mutate S c.2 c.1).2.Spared S query v cs

theorem findList_congr {s s' : State V}
    (h : s'.trustLists[toAsciiUppercase jur]? = s.trustLists[toAsciiUppercase jur]?) :
    findList s jur = findList s' jur := by
  rw [findList, findList, h]

theorem bundle_congr {s s' : State V} (hm : s'.master = s.master)
    (h : ∀ jur, optQuery query "jurisdiction" = some jur →
      s'.trustLists[toAsciiUppercase jur]? = s.trustLists[toAsciiUppercase jur]?) :
    Api.anchorBundle A query s asOf = Api.anchorBundle A query s' asOf := by
  unfold Api.anchorBundle
  cases hq : optQuery query "jurisdiction" with
  | none => rfl
  | some jur => rw [hm, okOr_some, ok_bind, ok_bind, findList_congr (h jur hq)]

theorem listOne_congr {s s' : State V}
    (h : s'.trustLists[toAsciiUppercase jur]? = s.trustLists[toAsciiUppercase jur]?)
    (hf : s'.frameworkOf (toAsciiUppercase jur) = s.frameworkOf (toAsciiUppercase jur)) :
    Api.trustListOne A jur s asOf = Api.trustListOne A jur s' asOf := by
  rw [Api.trustListOne, Api.trustListOne, findList_congr h, hf]

theorem revocations_congr {s s' : State V}
    (h : ∀ q, revocationQuery query = .ok q →
      revocationViews A.crates.signatif q s' asOf = revocationViews A.crates.signatif q s asOf) :
    Api.revocations A query s at_ asOf = Api.revocations A query s' at_ asOf := by
  unfold Api.revocations
  cases hq : revocationQuery query with
  | error e => rw [error_bind, error_bind]
  | ok q => simp only [ok_bind, revocationsDoc, h q hq]

/-- A view of another part is the same, in whatever order hash maps are gone through. -/
theorem doc_sameBut {s s' : State V} (hk : s.Keyed) (h : s.SameBut p s') {v : View}
    (hv : ¬ v.reads p) (order order' : HashOrder) :
    v.doc A order query s at_ asOf = v.doc A order' query s' at_ asOf := by
  have hlists (hp : p ≠ .lists) (k : String) :
      s'.trustLists[k]? = s.trustLists[k]? ∧ s'.frameworkOf k = s.frameworkOf k := by
    rw [State.frameworkOf, State.frameworkOf, (h.lists hp).1, (h.lists hp).2]
    exact ⟨rfl, rfl⟩
  cases v with
  | graph =>
    simp only [View.doc, Api.graph, h.graph hv]
  | anchorBundle =>
    obtain ⟨hl, hm⟩ := not_or.1 hv
    exact bundle_congr (h.master hm) fun jur _ => (hlists hl _).1
  | trustLists =>
    simp only [View.doc, Api.trustLists, listsDoc]
    rw [listViews_congr hk order order' asOf fun key l fw _ => ?_]
    rw [(hlists hv key).1, (hlists hv key).2]
  | trustListOne jur => exact listOne_congr (hlists hv _).1 (hlists hv _).2
  | masterList =>
    simp only [View.doc, Api.masterList, h.master hv]
  | revocations =>
    obtain ⟨hl, hg⟩ := not_or.1 hv
    exact revocations_congr fun q _ => by rw [revocationViews, revocationViews, h.graph hg,
      h.ledger hl]

theorem listed_part {op : Op V} (h : op.listed s = some (key, fw)) : op.part = .lists := by
  cases op with
  | registerTrustList j f => rfl
  | upsertTrustEntry j n b e => rfl
  | _ => cases h

theorem applyOp_listed {s : State V} {op : Op V} (h : op.listed s = some (key, fw))
    (hok : (applyOp S s op).1 = .ok ()) :
    (∀ k, k ≠ key → (applyOp S s op).2.trustLists[k]? = s.trustLists[k]? ∧
      (applyOp S s op).2.frameworkOf k = s.frameworkOf k) ∧
    (applyOp S s op).2.frameworkOf key = fw ∧
    ∀ l, s.trustLists[key]? = some l → s.frameworkOf key = fw := by
  have hne {key k : String} (hk : k ≠ key) : ¬ compare key k = .eq := fun hc =>
    hk (compare_eq_iff_eq.1 hc).symm
  cases op with
  | registerTrustList j f =>
    cases h
    simp only [applyOp] at hok ⊢
    split at hok
    · cases hok
    · rename_i hnew
      rw [if_neg hnew]
      refine ⟨fun k hk => ?_, ?_, fun l hl => ?_⟩
      · simp only [State.frameworkOf, Std.ExtTreeMap.getElem?_insert, if_neg (hne hk), and_self]
      · simp only [State.frameworkOf, Std.ExtTreeMap.getElem?_insert_self, Option.join_some]
      · rw [Std.ExtTreeMap.contains_eq_isSome_getElem?, hl] at hnew
        exact (hnew rfl).elim
  | upsertTrustEntry j n b e =>
    cases h
    simp only [applyOp] at hok ⊢
    split at hok
    · cases hok
    · refine ⟨fun k hk => ⟨?_, rfl⟩, rfl, fun _ _ => trivial⟩
      simp only [Std.ExtTreeMap.getElem?_insert, if_neg (hne hk)]
  | _ => cases h

theorem trustLists_filtered {s s' : State V} (hk : s.Keyed) (order order' : HashOrder)
    (hother : ∀ k, k ≠ key → s'.trustLists[k]? = s.trustLists[k]? ∧
      s'.frameworkOf k = s.frameworkOf k)
    (hnew : s'.frameworkOf key = fw)
    (hold : ∀ l, s.trustLists[key]? = some l → s.frameworkOf key = fw)
    (h : (listFilter query).admits key fw = false) :
    Api.trustLists A order query s asOf = Api.trustLists A order' query s' asOf := by
  have hviews : listViews A.crates.signatif order (listFilter query) s asOf =
      listViews A.crates.signatif order' (listFilter query) s' asOf := by
    apply listViews_congr hk order order' asOf
    intro k l f hadmits
    by_cases hkey : k = key
    · subst hkey
      have hf : f ≠ fw := by
        rintro rfl
        rw [h] at hadmits
        cases hadmits
      constructor
      · rintro ⟨hl, rfl⟩
        exact (hf (hold l hl)).elim
      · rintro ⟨-, rfl⟩
        exact (hf hnew).elim
    · rw [(hother k hkey).1, (hother k hkey).2]
  simp only [Api.trustLists, listsDoc, hviews]

theorem revocationView_graph {r : Revocation V} (h : S.isRetroactive r.reason = false)
    (g g' : V.TrustGraph) (knownBy : Option Timestamp) (asOf : Timestamp) (seq : Nat) :
    revocationView S g knownBy asOf seq r = revocationView S g' knownBy asOf seq r := by
  have hv (g : V.TrustGraph) : revocationVerdict S g r = none := by
    rw [revocationVerdict, h]
    rfl
  rw [revocationView, revocationView, hv, hv]

theorem revocationViews_graph {s s' : State V} {q : RevocationQuery}
    (hl : s'.ledger = s.ledger) (h : ∀ r ∈ S.ledgerRevocations s.ledger, q.admits S r = true →
      S.isRetroactive r.reason = false) :
    revocationViews S q s' asOf = revocationViews S q s asOf := by
  rw [revocationViews, revocationViews, hl]
  apply List.map_congr_left
  rintro ⟨r, i⟩ hr
  obtain ⟨hmem, hadmits⟩ := List.mem_filter.1 hr
  have hr' : r ∈ S.ledgerRevocations s.ledger := List.fst_mem_of_mem_zipIdx hmem
  exact revocationView_graph (h r hr' hadmits) _ _ _ _ _

theorem revocationViews_unshown {s s' : State V} {q : RevocationQuery} (hg : s'.graph = s.graph)
    (hl : S.ledgerRevocations s'.ledger = S.ledgerRevocations s.ledger ++ [r])
    (h : q.admits S r = false) :
    revocationViews S q s' asOf = revocationViews S q s asOf := by
  rw [revocationViews, revocationViews, hg, hl, List.zipIdx_append, List.filter_append,
    List.zipIdx_singleton, List.filter_singleton]
  simp only [h, Bool.cond_false, List.append_nil]

theorem applyOp_declared (hL : S.Ledger) {s : State V} {r : Revocation V}
    (hok : (applyOp S s (.declareRevocation r)).1 = .ok ()) :
    S.ledgerRevocations (applyOp S s (.declareRevocation r)).2.ledger =
      S.ledgerRevocations s.ledger ++ [r] := by
  simp only [applyOp] at hok ⊢
  split at hok
  · cases hok
  · apply hL.declared s.ledger r
    cases hd : (S.ledgerDeclare s.ledger r).1 with
    | ok u => rfl
    | error e =>
      rw [hd] at hok
      cases hok

theorem Spares.doc (hL : A.crates.signatif.Ledger) {s : State V} (hk : s.Keyed) {op : Op V}
    (h : Spares A.crates.signatif query s v op)
    (hok : (applyOp A.crates.signatif s op).1 = .ok ()) (order : HashOrder) :
    v.doc A order query s at_ asOf =
      v.doc A order query (applyOp A.crates.signatif s op).2 at_ asOf := by
  have hsame := applyOp_sameBut A.crates.signatif s op
  cases h with
  | apart h => exact doc_sameBut hk hsame h order order
  | otherBundle hl h =>
    have hm : op.part ≠ .master := by
      rw [listed_part hl]
      exact nofun
    exact bundle_congr (hsame.master hm) fun jur hq =>
      ((applyOp_listed hl hok).1 _ (h jur hq)).1
  | otherList hl h =>
    obtain ⟨hlist, hf⟩ := (applyOp_listed hl hok).1 _ h
    exact listOne_congr hlist hf
  | filtered hl h =>
    obtain ⟨hother, hnew, hold⟩ := applyOp_listed hl hok
    exact trustLists_filtered hk order order hother hnew hold h
  | unshown h =>
    exact revocations_congr fun q hq =>
      revocationViews_unshown (hsame.graph nofun) (applyOp_declared hL hok) (h q hq)
  | unjudged hp h =>
    have hledger : op.part ≠ .ledger := by
      rw [hp]
      exact nofun
    exact revocations_congr fun q hq => revocationViews_graph (hsame.ledger hledger) (h q hq)

/-- A run that spares a view leaves it as it is. -/
theorem Store.Spared.doc (hL : A.crates.signatif.Ledger) (hS : A.crates.signatif.Lists)
    {s : Store V} (hk : s.toState.Keyed) (h : s.Spared A.crates.signatif query v calls)
    (order : HashOrder) :
    v.doc A order query s.toState at_ asOf =
      v.doc A order query (s.mutateAll A.crates.signatif calls).toState at_ asOf := by
  induction calls generalizing s with
  | nil => rfl
  | cons c cs ih =>
    obtain ⟨hc, hcs⟩ := h
    rw [Store.mutateAll]
    rcases mutate_cases A.crates.signatif s c.2 c.1 with ⟨e, hm⟩ | ⟨hok, a, hm⟩
    · rw [hm] at hcs ⊢
      exact ih hk hcs
    · rw [hm] at hcs ⊢
      rw [hc.doc hL hk hok order]
      exact ih (s := (s.record A.crates.signatif c.2 c.1).2) (applyOp_keyed hS hk c.1) hcs

def Api.body (x : Outcome Empty Response × Store V) : Outcome Empty Bytes := x.1.map (·.body)

theorem body_signed (status : Nat) (doc : Value) (asOf : Timestamp) (cache : CachePolicy)
    (s : Store V) :
    body (.ok (signed A status doc asOf cache), s) = .ok (bytes doc.toStringPretty) := rfl

theorem body_ok (now : Timestamp) (d : Doc) (s : Store V) :
    body (answer A now (.ok d), s) = .ok (bytes d.doc.toStringPretty) :=
  body_signed _ _ _ _ _

theorem body_error (now : Timestamp) (r : Refusal) (s : Store V) :
    body (answer A now (.error (.err r)), s) =
      .ok (bytes (Value.object [("error", .str r.message)]).toStringPretty) :=
  body_signed _ _ _ _ _

theorem body_answer (now now' : Timestamp) (x : Outcome Refusal Doc) (s s' : Store V) :
    body (answer A now x, s) = body (answer A now' x, s') := by
  cases x with
  | ok d => rfl
  | error e =>
    cases e with
    | err r => rw [body_error, body_error]
    | abort => rfl

theorem pretty_injective {v w : Value} (hv : v.Canonical P n) (hw : w.Canonical Q m)
    (h : bytes v.toStringPretty = bytes w.toStringPretty) : v = w :=
  render_injective .pretty hv hw (String.ofList_injective (bytes_injective h))

theorem canonical_graphDoc (hS : S.Lawful P) (graph : V.TrustGraph) (asOf : Timestamp) :
    (graphDoc S graph asOf).Canonical P 127 :=
  canonical_fields (by simp [canonical_node, canonical_edge hS])

theorem serve_view {req : Request} (hat : parseAt req.query = .ok (some t)) (order : HashOrder)
    (m : Moment) (s : Store V) (v : View) :
    serve A order req m s (.view v) =
      (answer A m.now (v.doc A order req.query s.toState (some t) t >>= fun d =>
        .ok ⟨200, d, t, cacheFor (some t)⟩), s) := by
  simp only [serve, readAt, hat, ok_bind, Option.getD_some]

/-- The body of a view at a given instant is told by its document alone. -/
theorem body_view {req : Request} (hat : parseAt req.query = .ok (some t)) {v : View}
    {order order' : HashOrder} (m m' : Moment) {s s' : Store V}
    (h : v.doc A order req.query s.toState (some t) t =
      v.doc A order' req.query s'.toState (some t) t) :
    body (serve A order req m s (.view v)) = body (serve A order' req m' s' (.view v)) := by
  rw [serve_view hat, serve_view hat, h]
  exact body_answer _ _ _ _ _

/-- The response to a request with an instant has a fixed body over every run whose mutations
act on nothing the view shows. -/
theorem point_in_time_fixed (A : App V) (hS : A.crates.signatif.Lists)
    (hL : A.crates.signatif.Ledger) (s : Store V) (hs : s.Held A.crates) (v : View)
    (req : Request) (t : Timestamp) (hat : parseAt req.query = .ok (some t))
    (order order' : HashOrder) (m m' : Moment)
    (calls : List (Op V × Tick)) (h : s.Spared A.crates.signatif req.query v calls) :
    body (serve A order' req m' (s.mutateAll A.crates.signatif calls) (.view v)) =
      body (serve A order req m s (.view v)) := by
  have hk := held_keyed hS hs
  refine (body_view hat m m' ?_).symm
  rw [doc_sameBut hk (.refl .none s.toState) _ order order', h.doc hL hS hk order']
  cases v <;> simp [View.reads]

theorem body_graph {req : Request} (hat : parseAt req.query = .ok (some t)) (order : HashOrder)
    (m : Moment) (s : Store V) : body (serve A order req m s (.view .graph)) =
      .ok (bytes (graphDoc A.crates.signatif s.graph t).toStringPretty) := by
  rw [serve_view hat]
  exact body_ok _ _ _

open Reference

def midnight : Request :=
  ⟨Std.ExtTreeMap.ofList [("at", "1970-01-01T00:00:00Z")] compare, ∅, ""⟩

def atNoon : Moment := ⟨⟨43200⟩, noon⟩

theorem midnight_at : parseAt midnight.query = .ok (some ⟨0⟩) := by
  have hat : midnight.query["at"]? = some "1970-01-01T00:00:00Z" := rfl
  have hparse : Timestamp.parse "1970-01-01T00:00:00Z" = .ok ⟨0⟩ := rfl
  simp only [parseAt, hat, Option.some_or, hparse]
  rfl

theorem held_new : (storeOf crates [] []).Held crates :=
  ⟨some [], false, noon, _, [], rfl, fun _ hc => (by cases hc), rfl⟩

def lateNode : Op vocabulary := .registerNode ⟨"late", .end, []⟩

theorem point_in_time_fixed_master :
    body (serve app .ascending midnight atNoon
      ((storeOf crates [] []).mutateAll signatif [(lateNode, noon 1)]) (.view .masterList)) =
    body (serve app .ascending midnight atNoon (storeOf crates [] []) (.view .masterList)) :=
  point_in_time_fixed app reference_lists reference_ledger _ held_new .masterList midnight ⟨0⟩
    midnight_at .ascending .ascending atNoon atNoon _ ⟨.apart nofun, trivial⟩

/-- The graph of midnight, answered at noon as immutable, is another one after a registration. -/
theorem point_in_time_changed :
    ∃ s r, s.Held crates ∧ parseAt midnight.query = .ok (some ⟨0⟩) ∧
      0 ≤ atNoon.now.secs ∧
      (serve app .ascending midnight atNoon s (.view .graph)).1 = .ok r ∧ r.status = 200 ∧
      ("cache-control", "public, max-age=86400, immutable") ∈ r.headers ∧
      s.Accepts signatif [(lateNode, noon 1)] ∧
      body (serve app .ascending midnight atNoon (s.mutateAll signatif [(lateNode, noon 1)])
        (.view .graph)) ≠ body (serve app .ascending midnight atNoon s (.view .graph)) := by
  have hserve := congrArg Prod.fst
    (serve_view (A := app) midnight_at .ascending atNoon (storeOf crates [] []) .graph)
  refine ⟨storeOf crates [] [], _, held_new, midnight_at, by decide, hserve, rfl,
    by simp [signed, CachePolicy.headerValue, cacheFor], ⟨⟨_, rfl⟩, trivial⟩, fun h => ?_⟩
  rw [body_graph midnight_at, body_graph midnight_at] at h
  have hdoc := pretty_injective (canonical_graphDoc signatif_lawful _ ⟨0⟩)
    (canonical_graphDoc signatif_lawful _ ⟨0⟩) (Except.ok.inj h)
  have hcount := congrArg (fun v => (v.get "node_count").bind Value.asU64) hdoc
  simp only [graphDoc, get_object, lookup_fieldsOf] at hcount
  change some (1 : UInt64) = some 0 at hcount
  exact absurd hcount (by decide)

end UnidppTrust
