import Mathlib.Data.List.Nodup

namespace KeyedUnion
set_option autoImplicit true

variable {α K : Type} [DecidableEq K] (key : α → K)

/-- An item goes last, unless one with its key is there. -/
def add (xs : List α) (x : α) : List α := if xs.any (key · = key x) then xs else xs ++ [x]

def union (xs ys : List α) : List α := ys.foldl (add key) xs

def firsts : List α → List α
  | [] => []
  | x :: xs => x :: (firsts xs).filter (key · ≠ key x)

def fresh (xs : List α) (x : α) : Bool := !xs.any (key · = key x)

variable {key}

theorem fresh_concat (xs : List α) (y x : α) :
    fresh key (xs ++ [y]) x = (fresh key xs x && decide (key x ≠ key y)) := by
  simp only [fresh, List.any_append, List.any_cons, List.any_nil, Bool.or_false, Bool.not_or,
    ne_eq, decide_not, eq_comm]

theorem fresh_iff {xs : List α} : fresh key xs x = true ↔ ∀ y ∈ xs, key y ≠ key x := by
  simp only [fresh, Bool.not_eq_true', List.any_eq_false, decide_eq_true_eq, ne_eq]

theorem union_eq (xs ys : List α) :
    union key xs ys = xs ++ (firsts key ys).filter (fresh key xs) := by
  induction ys generalizing xs with
  | nil => exact (List.append_nil xs).symm
  | cons y ys ih =>
    rw [union, List.foldl_cons, ← union, ih, firsts, List.filter_cons]
    cases hy : xs.any (key · = key y) with
    | true =>
      have hfresh : fresh key xs y = false := by rw [fresh, hy]; rfl
      rw [add, if_pos hy, if_neg (by rw [hfresh]; exact Bool.false_ne_true), List.filter_filter]
      congr 1
      apply List.filter_congr
      intro x _
      cases hx : fresh key xs x with
      | false => rfl
      | true =>
        obtain ⟨z, hz, hzy⟩ := List.any_eq_true.1 hy
        have hne := fresh_iff.1 hx z hz
        rw [of_decide_eq_true hzy] at hne
        rw [decide_eq_true (Ne.symm hne)]
        rfl
    | false =>
      have hfresh : fresh key xs y = true := by rw [fresh, hy]; rfl
      rw [add, if_neg (by rw [hy]; exact Bool.false_ne_true), if_pos hfresh, List.append_assoc,
        List.singleton_append, List.filter_filter]
      congr 2
      apply List.filter_congr
      intro x _
      exact fresh_concat xs y x

theorem mem_union {xs ys : List α} (h : x ∈ union key xs ys) : x ∈ xs ∨ x ∈ ys := by
  induction ys generalizing xs with
  | nil => exact .inl h
  | cons y ys ih =>
    rw [union, List.foldl_cons, ← union] at h
    rcases ih h with hadd | hys
    · rw [add] at hadd
      split at hadd
      · exact .inl hadd
      · rcases List.mem_append.1 hadd with hxs | hy
        · exact .inl hxs
        · exact .inr (List.mem_singleton.1 hy ▸ List.mem_cons_self)
    · exact .inr (List.mem_cons_of_mem y hys)

theorem union_nil (ys : List α) : union key [] ys = firsts key ys := by
  rw [union_eq, List.nil_append]
  exact List.filter_eq_self.2 fun _ _ => rfl

theorem firsts_sublist (xs : List α) : (firsts key xs).Sublist xs := by
  induction xs with
  | nil => exact .slnil
  | cons x xs ih => exact (List.filter_sublist.trans ih).cons_cons x

theorem nodup_firsts (xs : List α) : ((firsts key xs).map key).Nodup := by
  induction xs with
  | nil => exact List.nodup_nil
  | cons x xs ih =>
    rw [firsts, List.map_cons, List.nodup_cons]
    refine ⟨fun hmem => ?_, ih.sublist (List.filter_sublist.map key)⟩
    obtain ⟨y, hy, hk⟩ := List.mem_map.1 hmem
    exact of_decide_eq_true (List.mem_filter.1 hy).2 hk

theorem firsts_eq_self {xs : List α} (h : (xs.map key).Nodup) : firsts key xs = xs := by
  induction xs with
  | nil => rfl
  | cons x xs ih =>
    rw [List.map_cons, List.nodup_cons] at h
    rw [firsts, ih h.2]
    congr 1
    apply List.filter_eq_self.2
    intro y hy
    exact decide_eq_true fun hk => h.1 (hk ▸ List.mem_map_of_mem hy)

theorem firsts_append (xs ys : List α) :
    firsts key (xs ++ ys) = union key (firsts key xs) ys := by
  rw [← union_nil, union, List.foldl_append, ← union, ← union, union_nil]

theorem prefix_union (xs ys : List α) : xs <+: union key xs ys := by
  rw [union_eq]
  exact List.prefix_append _ _

theorem union_eq_self {xs ys : List α} (h : ∀ y ∈ ys, ∃ x ∈ xs, key x = key y) :
    union key xs ys = xs := by
  rw [union_eq, List.filter_eq_nil_iff.2, List.append_nil]
  intro y hy hfresh
  obtain ⟨x, hx, hk⟩ := h y ((firsts_sublist ys).subset hy)
  exact fresh_iff.1 hfresh x hx hk

theorem exists_union_key {xs ys : List α} (hy : y ∈ ys) :
    ∃ x ∈ union key xs ys, key x = key y := by
  induction ys generalizing xs with
  | nil => cases hy
  | cons z ys ih =>
    rw [union, List.foldl_cons, ← union]
    rcases List.mem_cons.1 hy with rfl | hy
    · have hadd : ∃ x ∈ add key xs y, key x = key y := by
        rw [add]
        split
        · rename_i hany
          obtain ⟨x, hx, hk⟩ := List.any_eq_true.1 hany
          exact ⟨x, hx, of_decide_eq_true hk⟩
        · exact ⟨y, List.mem_append_right xs List.mem_cons_self, rfl⟩
      obtain ⟨x, hx, hk⟩ := hadd
      exact ⟨x, (prefix_union _ ys).subset hx, hk⟩
    · exact ih hy

/-- The same items again change nothing. -/
theorem union_twice (xs ys : List α) : union key (union key xs ys) ys = union key xs ys :=
  union_eq_self fun _ hy => exists_union_key hy

end KeyedUnion
