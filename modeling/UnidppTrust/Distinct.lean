import Mathlib.Data.Finset.Card
import Std.Data.ExtTreeMap
import Std.Data.ExtTreeSet

namespace Rust
set_option autoImplicit true

theorem card_toFinset_eq_length [DecidableEq α] {l : List α} :
    l.toFinset.card = l.length ↔ l.Nodup :=
  Multiset.toFinset_card_eq_card_iff_nodup (m := (l : Multiset α))

variable [Ord α] [Std.TransOrd α] [Std.LawfulEqOrd α]

theorem size_ofList [DecidableEq α] (l : List (α × β)) :
    (Std.ExtTreeMap.ofList l compare).size = (l.map Prod.fst).toFinset.card := by
  have hkeys : (Std.ExtTreeMap.ofList l compare).keys.toFinset = (l.map Prod.fst).toFinset := by
    ext k
    rw [List.mem_toFinset, List.mem_toFinset, Std.ExtTreeMap.mem_keys, Std.ExtTreeMap.mem_ofList,
      List.contains_iff_mem]
  rw [← hkeys, List.toFinset_card_of_nodup Std.ExtTreeMap.nodup_keys, Std.ExtTreeMap.length_keys]

theorem getElem?_ofList [DecidableEq α] {l : List (α × β)} (hn : (l.map Prod.fst).Nodup) :
    (Std.ExtTreeMap.ofList l compare)[k]? = some v ↔ (k, v) ∈ l := by
  have hdistinct : l.Pairwise fun a b => ¬ compare a.1 b.1 = .eq :=
    (List.pairwise_map.1 hn).imp fun hab heq => hab (Std.compare_eq_iff_eq.1 heq)
  have hfound : ∀ v', (k, v') ∈ l → (Std.ExtTreeMap.ofList l compare)[k]? = some v' := fun v' h =>
    Std.ExtTreeMap.getElem?_ofList_of_mem Std.compare_self hdistinct h
  constructor
  · intro h
    have hkey : k ∈ Std.ExtTreeMap.ofList l compare := by
      rw [Std.ExtTreeMap.mem_iff_isSome_getElem?, h]
      rfl
    rw [Std.ExtTreeMap.mem_ofList, List.contains_iff_mem] at hkey
    obtain ⟨⟨_, v'⟩, hmem, rfl⟩ := List.mem_map.1 hkey
    rw [hfound v' hmem] at h
    cases h
    exact hmem
  · exact hfound v

theorem mem_foldl_insert {p : γ → Bool} {f : γ → α} (l : List γ) (s : Std.ExtTreeSet α compare) :
    k ∈ l.foldl (fun s x => if p x then s.insert (f x) else s) s ↔
      k ∈ s ∨ ∃ x ∈ l, p x = true ∧ f x = k := by
  induction l generalizing s with
  | nil => simp
  | cons x l ih =>
    rw [List.foldl_cons, ih]
    cases hp : p x with
    | false => simp [hp]
    | true =>
      simp only [if_true, Std.ExtTreeSet.mem_insert, Std.compare_eq_iff_eq, List.mem_cons,
        exists_eq_or_imp,
        hp, true_and]
      constructor
      · rintro ((h | h) | h)
        · exact .inr (.inl h)
        · exact .inl h
        · exact .inr (.inr h)
      · rintro (h | h | h)
        · exact .inl (.inr h)
        · exact .inl (.inl h)
        · exact .inr h

theorem toFinset_toList [DecidableEq α] (s : Std.ExtTreeSet α compare) :
    s.toList.toFinset.card = s.size := by
  have hnodup : s.toList.Nodup := by
    apply Std.ExtTreeSet.distinct_toList.imp
    intro a b hab heq
    exact hab (Std.compare_eq_iff_eq.2 heq)
  rw [List.toFinset_card_of_nodup hnodup, Std.ExtTreeSet.length_toList]

theorem size_foldl_insert [DecidableEq α] (p : γ → Bool) (f : γ → α) (l : List γ) :
    (l.foldl (fun s x => if p x then s.insert (f x) else s) (∅ : Std.ExtTreeSet α compare)).size =
      ((l.filter p).map f).toFinset.card := by
  rw [← toFinset_toList]
  congr 1
  ext k
  simp only [List.mem_toFinset, Std.ExtTreeSet.mem_toList, mem_foldl_insert,
    Std.ExtTreeSet.not_mem_empty,
    false_or, List.mem_map, List.mem_filter, and_assoc]

end Rust
