import UnidppTrust.Registrations
import UnidppTrust.Keyed
import UnidppTrust.Reference

namespace UnidppTrust
open Rust Json Api
set_option autoImplicit true

variable {V : Vocabulary} {S : Signatif V} {C : Crates V} {A : App V}

theorem listsDoc_unordered {s : State V} (hs : s.Keyed) (order order' : HashOrder)
    (f : ListFilter) (asOf : Timestamp) :
    listsDoc S order f s asOf = listsDoc S order' f s asOf := by
  rw [listsDoc, listsDoc, listViews_congr hs order order' asOf fun _ _ _ _ => Iff.rfl]

theorem operatorDoc_unordered {s : State V} (hs : s.Keyed) (order order' : HashOrder)
    (dn : DelegationNode V) (node : V.NodeId) (asOf : Timestamp) :
    operatorDoc S order s dn node asOf = operatorDoc S order' s dn node asOf := by
  rw [operatorDoc, operatorDoc, memberships_congr hs order order']

/-- The catalogue lists the documents by their ids, which are distinct. -/
theorem evidenceListJson_unordered {s : State V} (hs : s.Keyed) (order order' : HashOrder) :
    evidenceListJson order s.evidence = evidenceListJson order' s.evidence := by
  have hids : ((order.entries s.evidence).map (·.2)).map Evidence.id =
      (order.entries s.evidence).map (·.1) := by
    rw [List.map_map]
    apply List.map_congr_left
    rintro ⟨id, e⟩ he
    exact hs.document id e ((mem_entries order _).1 he)
  have hsort := sortByKey_congr ((entries_perm order order' s.evidence).map (·.2))
    (hids ▸ nodup_entries order s.evidence)
  rw [evidenceListJson, evidenceListJson, hsort]

theorem operatorView_unordered {s : State V} (hs : s.Keyed) (order order' : HashOrder)
    (node : String) (query : StringMap String) (now : Timestamp) :
    operatorView A order node query now s = operatorView A order' node query now s := by
  simp only [operatorView, operatorDoc_unordered hs order order']

theorem viewDoc_unordered {s : State V} (hs : s.Keyed) (order order' : HashOrder) (v : View)
    (query : StringMap String) (at_ : Option Timestamp) (asOf : Timestamp) :
    v.doc A order query s at_ asOf = v.doc A order' query s at_ asOf := by
  cases v with
  | trustLists =>
    simp only [View.doc, Api.trustLists, listsDoc_unordered hs order order']
  | _ => rfl

/-- No response tells in what order the hash maps of a store were gone through: neither the lists,
nor the memberships of an operator, nor the catalogue, nor what is answered over them. -/
theorem views_unordered (A : App V) (hS : A.crates.signatif.Lists) {s : Store V}
    (h : s.Held A.crates) (order order' : HashOrder) :
    (∀ f asOf, listsDoc A.crates.signatif order f s.toState asOf =
      listsDoc A.crates.signatif order' f s.toState asOf) ∧
    (∀ dn node asOf, operatorDoc A.crates.signatif order s.toState dn node asOf =
      operatorDoc A.crates.signatif order' s.toState dn node asOf) ∧
    evidenceListJson order s.evidence = evidenceListJson order' s.evidence ∧
    ∀ req m route, serve A order req m s route = serve A order' req m s route := by
  have hs := held_keyed hS h
  refine ⟨listsDoc_unordered hs order order', operatorDoc_unordered hs order order',
    evidenceListJson_unordered hs order order', fun req m route => ?_⟩
  cases route with
  | view v => simp only [serve, viewDoc_unordered hs order order']
  | operator node => simp only [serve, operatorView_unordered hs order order']
  | evidence =>
    simp only [serve, evidenceCatalogue, evidenceListJson_unordered hs order order']
  | _ => rfl

open Reference

def descending : HashOrder := ⟨fun m => m.toList.reverse, fun m => m.toList.reverse_perm⟩

def twoLists : Store vocabulary :=
  (Store.empty crates).mutateAll signatif
    [(.registerTrustList "de" none, noon 0), (.registerTrustList "fr" none, noon 1)]

theorem held_twoLists : twoLists.Held crates := by
  refine ⟨none, false, noon, Store.empty crates, _, rfl, ?_, rfl⟩
  intro c hc
  rcases List.mem_pair.1 hc with rfl | rfl
  · trivial
  · trivial

theorem views_unordered_two :
    listsDoc signatif .ascending ⟨none, none⟩ twoLists.toState ⟨43200⟩ =
      listsDoc signatif descending ⟨none, none⟩ twoLists.toState ⟨43200⟩ :=
  (views_unordered app reference_lists held_twoLists .ascending descending).1 _ _

end UnidppTrust
