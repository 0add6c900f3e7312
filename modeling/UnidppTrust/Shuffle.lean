import Mathlib.Data.List.Basic
import Mathlib.Tactic.TypeStar

namespace Shuffle
set_option autoImplicit true

variable {σ α β γ ι : Type*}

/-- Every input concerns one region at most: it leaves the others, and what it answers and leaves
in its own is told by that region. -/
structure Confined (step : σ → α → β × σ) (label : α → Option ι) (Same : ι → σ → σ → Prop)
    (shown : β → γ) : Prop where
  equivalence : ∀ i, Equivalence (Same i)
  other : ∀ s a i, label a ≠ some i → Same i s (step s a).2
  own : ∀ s t a i, label a = some i → Same i s t →
    shown (step s a).1 = shown (step t a).1 ∧ Same i (step s a).2 (step t a).2

def run (step : σ → α → β × σ) (s : σ) : List α → List (α × β) × σ
  | [] => ([], s)
  | a :: as =>
    let rest := run step (step s a).2 as
    ((a, (step s a).1) :: rest.1, rest.2)

variable [DecidableEq ι]

/-- What is shown of the answers to the inputs of a region. -/
def answers (label : α → Option ι) (shown : β → γ) (i : ι) (xs : List (α × β)) : List γ :=
  (xs.filter (label ·.1 = some i)).map (shown ·.2)

theorem answers_cons (label : α → Option ι) (shown : β → γ) (i : ι) (x : α × β)
    (xs : List (α × β)) : answers label shown i (x :: xs) =
      if label x.1 = some i then shown x.2 :: answers label shown i xs
      else answers label shown i xs := by
  rw [answers, List.filter_cons]
  by_cases hx : label x.1 = some i
  · rw [if_pos hx, if_pos (decide_eq_true hx)]
    rfl
  · rw [if_neg hx, if_neg fun hd => hx (of_decide_eq_true hd)]
    rfl

section Confined
variable {step : σ → α → β × σ} {label : α → Option ι} {Same : ι → σ → σ → Prop}
  {shown : β → γ} (h : Confined step label Same shown)
include h

theorem Confined.filtered {s t : σ} {i : ι} (hs : Same i s t) (as : List α) :
    answers label shown i (run step s as).1 =
        answers label shown i (run step t (as.filter (label · = some i))).1 ∧
      Same i (run step s as).2 (run step t (as.filter (label · = some i))).2 := by
  induction as generalizing s t with
  | nil => exact ⟨rfl, hs⟩
  | cons a as ih =>
    by_cases ha : label a = some i
    · obtain ⟨hshown, hnext⟩ := h.own s t a i ha hs
      obtain ⟨hanswers, hsame⟩ := ih hnext
      have hkept : (a :: as).filter (label · = some i) = a :: as.filter (label · = some i) :=
        List.filter_cons_of_pos (decide_eq_true ha)
      rw [hkept]
      refine ⟨?_, hsame⟩
      simp only [run, answers_cons, if_pos ha]
      rw [hshown, hanswers]
    · have hnext := (h.equivalence i).trans ((h.equivalence i).symm (h.other s a i ha)) hs
      obtain ⟨hanswers, hsame⟩ := ih hnext
      have hleft : (a :: as).filter (label · = some i) = as.filter (label · = some i) :=
        List.filter_cons_of_neg fun hd => ha (of_decide_eq_true hd)
      rw [hleft]
      refine ⟨?_, hsame⟩
      simp only [run, answers_cons, if_neg ha]
      exact hanswers

/-- For a region it does not matter how its inputs are interleaved with those of the others. -/
theorem Confined.shuffled {s t : σ} {i : ι} (hs : Same i s t) {as bs : List α}
    (hbs : as.filter (label · = some i) = bs.filter (label · = some i)) :
    answers label shown i (run step s as).1 = answers label shown i (run step t bs).1 ∧
      Same i (run step s as).2 (run step t bs).2 := by
  obtain ⟨hanswers, hsame⟩ := h.filtered hs as
  obtain ⟨hanswers', hsame'⟩ := h.filtered ((h.equivalence i).refl t) bs
  rw [hbs] at hanswers hsame
  exact ⟨hanswers.trans hanswers'.symm,
    (h.equivalence i).trans hsame ((h.equivalence i).symm hsame')⟩

end Confined

end Shuffle
