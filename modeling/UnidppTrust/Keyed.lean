import UnidppTrust.Accepted
import UnidppTrust.Api

namespace UnidppTrust
open Rust Json
set_option autoImplicit true

variable {V : Vocabulary} {S : Signatif V} {C : Crates V} {seed : Bool}

structure TrustList.Keyed (key : String) (l : TrustList V) : Prop where
  jurisdiction : toAsciiUppercase l.jurisdiction = key
  entry : ∀ (n : V.NodeId) (e : TrustListEntry V), l.entries[n]? = some e → e.node = n

/-- Everything is kept under the key it names itself. -/
structure State.Keyed (s : State V) : Prop where
  list : ∀ (key : String) (l : TrustList V), s.trustLists[key]? = some l → l.Keyed key
  document : ∀ (id : String) (e : Evidence), s.evidence[id]? = some e → e.id = id

theorem keyed_initial : (State.initial C).Keyed where
  list key l h := by
    simp only [State.initial, Std.ExtTreeMap.getElem?_empty] at h
    cases h
  document id e h := by
    simp only [State.initial, Std.ExtTreeMap.getElem?_empty] at h
    cases h

theorem keyed_new (hS : S.Lists) (j : String) :
    (S.trustListNew j).Keyed (toAsciiUppercase j) where
  jurisdiction := by rw [hS.jurisdiction]
  entry n e h := by
    rw [hS.entries, Std.ExtTreeMap.getElem?_empty] at h
    cases h

theorem TrustList.Keyed.applyEntry {l : TrustList V} (h : l.Keyed key)
    (e : TrustListEntryRecord V) : (applyEntry l e).Keyed key where
  jurisdiction := h.jurisdiction
  entry n x hx := by
    simp only [UnidppTrust.applyEntry, Std.ExtTreeMap.getElem?_insert] at hx
    split at hx
    · rename_i hn
      obtain rfl := Std.LawfulEqCmp.eq_of_compare hn
      cases hx
      split
      · rename_i y hy
        exact h.entry _ y hy
      · rfl
    · exact h.entry n x hx

theorem keyed_insertList {s : State V} (h : s.Keyed) {l : TrustList V} (hl : l.Keyed key)
    (fw : StringMap (Option String)) :
    State.Keyed { s with trustLists := s.trustLists.insert key l, frameworks := fw } where
  list k x hx := by
    simp only [Std.ExtTreeMap.getElem?_insert] at hx
    split at hx
    · rename_i hk
      obtain rfl := compare_eq_iff_eq.1 hk
      cases hx
      exact hl
    · exact h.list k x hx
  document := h.document

/-- No operation files anything under a wrong key. -/
theorem applyOp_keyed (hS : S.Lists) {s : State V} (h : s.Keyed) (op : Op V) :
    (applyOp S s op).2.Keyed := by
  have hlists : op.part ≠ .lists → ∀ (key : String) (l : TrustList V),
      (applyOp S s op).2.trustLists[key]? = some l → l.Keyed key := by
    intro hp key l hl
    rw [((applyOp_sameBut S s op).lists hp).1] at hl
    exact h.list key l hl
  have hdocument : op.part ≠ .evidence → ∀ (id : String) (e : Evidence),
      (applyOp S s op).2.evidence[id]? = some e → e.id = id := by
    intro hp id e he
    rw [(applyOp_sameBut S s op).evidence hp] at he
    exact h.document id e he
  cases op with
  | registerTrustList j fw =>
    simp only [applyOp]
    split
    · exact h
    · exact keyed_insertList h (keyed_new hS j) _
  | upsertTrustEntry j node notBefore supersededAt =>
    simp only [applyOp]
    split
    · exact h
    · rename_i l hl
      exact keyed_insertList h ((h.list _ l hl).applyEntry _) s.frameworks
  | registerEvidence e =>
    refine ⟨hlists (fun hp => by cases hp), ?_⟩
    simp only [applyOp]
    split
    · exact h.document
    · intro id x hx
      simp only [Std.ExtTreeMap.getElem?_insert] at hx
      split at hx
      · rename_i hk
        cases hx
        exact compare_eq_iff_eq.1 hk
      · exact h.document id x hx
  | _ => exact ⟨hlists (fun hp => by cases hp), hdocument (fun hp => by cases hp)⟩

theorem held_keyed (hS : C.signatif.Lists) {s : Store V} (h : s.Held C) : s.toState.Keyed :=
  held_keeps keyed_initial (fun _ op hs => applyOp_keyed hS hs op) h

theorem nodup_entries (order : HashOrder) (m : StringMap β) :
    ((order.entries m).map (·.1)).Nodup := by
  have h : (m.toList.map (·.1)).Nodup := by
    rw [Std.ExtTreeMap.map_fst_toList_eq_keys]
    exact Std.ExtTreeMap.nodup_keys
  exact ((order.perm m).map _).nodup_iff.2 h

theorem mem_entries (order : HashOrder) (m : StringMap β) :
    (k, v) ∈ order.entries m ↔ m[k]? = some v := by
  rw [(order.perm m).mem_iff, Std.ExtTreeMap.mem_toList_iff_getElem?_eq_some]

theorem entries_perm (order order' : HashOrder) (m : StringMap β) :
    (order.entries m).Perm (order'.entries m) := (order.perm m).trans (order'.perm m).symm

theorem TrustList.Keyed.length_filter {l : TrustList V} (h : l.Keyed key) (node : V.NodeId) :
    ((valuesOf l.entries).filter (·.node = node)).length ≤ 1 := by
  have hnodes : (valuesOf l.entries).map (·.node) = l.entries.keys := by
    rw [← Std.ExtTreeMap.map_fst_toList_eq_keys, valuesOf, List.map_map]
    apply List.map_congr_left
    intro p hp
    exact h.entry p.1 p.2 (Std.ExtTreeMap.mem_toList_iff_getElem?_eq_some.1 hp)
  have hnodup : ((valuesOf l.entries).map (·.node)).Nodup := by
    rw [hnodes]
    exact Std.ExtTreeMap.nodup_keys
  have hsub := (List.filter_sublist (p := fun e => decide (e.node = node))
    (l := valuesOf l.entries)).map (·.node)
  have hrep := List.eq_replicate_of_mem (a := node)
    (l := ((valuesOf l.entries).filter (·.node = node)).map (·.node)) fun n hn => by
      obtain ⟨e, he, rfl⟩ := List.mem_map.1 hn
      exact of_decide_eq_true (List.mem_filter.1 he).2
  have hfilter := hnodup.sublist hsub
  rw [hrep, List.nodup_replicate, List.length_map] at hfilter
  exact hfilter

def listRows (order : HashOrder) (f : ListFilter) (s : State V) :
    List (String × TrustList V × Option String) :=
  ((order.entries s.trustLists).filter fun l => f.admits l.1 (s.frameworkOf l.1)).map
    fun l => (l.1, l.2, s.frameworkOf l.1)

theorem mem_listRows (order : HashOrder) (f : ListFilter) (s : State V) :
    (key, l, fw) ∈ listRows order f s ↔
      s.trustLists[key]? = some l ∧ s.frameworkOf key = fw ∧ f.admits key fw = true := by
  simp only [listRows, List.mem_map, List.mem_filter, Prod.exists, mem_entries, Prod.mk.injEq]
  constructor
  · rintro ⟨k, x, ⟨hx, hf⟩, rfl, rfl, rfl⟩
    exact ⟨hx, rfl, hf⟩
  · rintro ⟨hx, rfl, hf⟩
    exact ⟨key, l, ⟨hx, hf⟩, rfl, rfl, rfl⟩

theorem nodup_listRows (order : HashOrder) (f : ListFilter) (s : State V) :
    ((listRows order f s).map (·.1)).Nodup := by
  rw [listRows, List.map_map]
  exact (nodup_entries order s.trustLists).sublist (List.filter_sublist.map Prod.fst)

theorem textAt_list (list : TrustList V) (fw : Option String) (asOf : Timestamp) :
    textAt "jurisdiction" (.object (listFields S list fw asOf)) = list.jurisdiction := by
  simp [textAt, listFields, lookup_cons_ite]

theorem listViews_congr {s s' : State V} (hs : s.Keyed) (order order' : HashOrder)
    {f : ListFilter} (asOf : Timestamp)
    (h : ∀ key l fw, f.admits key fw = true →
      ((s.trustLists[key]? = some l ∧ s.frameworkOf key = fw) ↔
        (s'.trustLists[key]? = some l ∧ s'.frameworkOf key = fw))) :
    listViews S order f s asOf = listViews S order' f s' asOf := by
  have hrows : (listRows order f s).Perm (listRows order' f s') := by
    refine (List.perm_ext_iff_of_nodup (nodup_listRows order f s).of_map
      (nodup_listRows order' f s').of_map).2 ?_
    rintro ⟨key, l, fw⟩
    rw [mem_listRows, mem_listRows, ← and_assoc, ← and_assoc]
    exact and_congr_left (h key l fw)
  have hview (o : HashOrder) (x : State V) : listViews S o f x asOf =
      sortByKey (textAt "jurisdiction")
        ((listRows o f x).map fun r => .object (listFields S r.2.1 r.2.2 asOf)) := by
    rw [listViews, listRows, List.map_map]
    rfl
  rw [hview, hview]
  apply sortByKey_congr (hrows.map _)
  have hkeys : (listRows order f s).map (·.1) =
      ((listRows order f s).map fun r => r.2.1.jurisdiction).map toAsciiUppercase := by
    rw [List.map_map]
    apply List.map_congr_left
    rintro ⟨key, l, fw⟩ hr
    exact (hs.list key l ((mem_listRows order f s).1 hr).1).jurisdiction.symm
  have hn := nodup_listRows order f s
  rw [hkeys] at hn
  rw [List.map_map]
  simpa only [Function.comp_def, textAt_list] using hn.of_map

theorem textAt_membership (jur : String) (asOf : Timestamp) (e : TrustListEntry V) :
    textAt "jurisdiction" (membership S jur asOf e) = jur := by
  simp [textAt, membership, lookup_cons_ite]

theorem memberships_congr {s : State V} (hs : s.Keyed) (order order' : HashOrder)
    (node : V.NodeId) (asOf : Timestamp) :
    sortByKey (textAt "jurisdiction")
      (memberships S (order.entries s.trustLists) node asOf) =
    sortByKey (textAt "jurisdiction")
      (memberships S (order'.entries s.trustLists) node asOf) := by
  refine sortByKey_congr ((entries_perm order order' s.trustLists).flatMap_right _) ?_
  rw [memberships, List.map_flatMap]
  simp only [List.map_map, Function.comp_def, textAt_membership]
  refine List.nodup_flatMap.2 ⟨?_, ?_⟩
  · rintro ⟨key, l⟩ hl
    rw [List.map_const', List.nodup_replicate]
    exact (hs.list key l ((mem_entries order _).1 hl)).length_filter node
  · apply ((List.pairwise_map (f := Prod.fst)).1 (nodup_entries order s.trustLists)).imp
    intro a b hab x ha hb
    obtain ⟨e, -, rfl⟩ := List.mem_map.1 ha
    obtain ⟨e', -, he⟩ := List.mem_map.1 hb
    exact hab he.symm

end UnidppTrust
