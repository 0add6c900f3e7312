import Mathlib.Logic.Function.Basic
import Mathlib.Data.List.Basic

namespace LastWrite
set_option autoImplicit true

inductive Write (K N A B : Type) where
  | create (k : K) (a : A)
  | put (k : K) (n : N) (b : B)

/-- The rows, each with its label and its cells. -/
abbrev Table (K N A B : Type) := K → Option (A × (N → Option B))

variable {K N A B : Type} [DecidableEq K]

def labels (k : K) (ws : List (Write K N A B)) : List A :=
  ws.filterMap fun
    | .create k' a => if k' = k then some a else none
    | .put _ _ _ => none

def Write.key : Write K N A B → K
  | .create k _ => k
  | .put k _ _ => k

theorem labels_other {w : Write K N A B} (h : k ≠ w.key) (ws : List (Write K N A B)) :
    labels k (w :: ws) = labels k ws := by
  cases w with
  | create k' a => simp only [labels, List.filterMap_cons, if_neg (show k' ≠ k from h.symm)]
  | put k' n b => rfl

variable [DecidableEq N]

def Table.write (t : Table K N A B) : Write K N A B → Table K N A B
  | .create k a => Function.update t k (some (a, fun _ => none))
  | .put k n b => Function.update t k
      ((t k).map fun row => (row.1, Function.update row.2 n (some b)))

/-- A row is created where there is none, and a cell is set where there is a row. -/
def Table.Allows (t : Table K N A B) : Write K N A B → Prop
  | .create k _ => t k = none
  | .put k _ _ => t k ≠ none

def Table.writeAll (t : Table K N A B) (ws : List (Write K N A B)) : Table K N A B :=
  ws.foldl Table.write t

def Table.AllowsAll (t : Table K N A B) : List (Write K N A B) → Prop
  | [] => True
  | w :: ws => t.Allows w ∧ (t.write w).AllowsAll ws

def cells (k : K) (n : N) (ws : List (Write K N A B)) : List B :=
  ws.filterMap fun
    | .create _ _ => none
    | .put k' n' b => if k' = k ∧ n' = n then some b else none

theorem write_other {t : Table K N A B} {w : Write K N A B} (h : k ≠ w.key) :
    t.write w k = t k := by
  cases w with
  | create k' a => exact Function.update_of_ne h _ _
  | put k' n b => exact Function.update_of_ne h _ _

theorem cells_other {w : Write K N A B} (h : k ≠ w.key) (n : N) (ws : List (Write K N A B)) :
    cells k n (w :: ws) = cells k n ws := by
  cases w with
  | create k' a => rfl
  | put k' n' b =>
    simp only [cells, List.filterMap_cons,
      if_neg (fun hk => h hk.1.symm : ¬ (k' = k ∧ n' = n))]

theorem cells_self (k : K) (n : N) (b : B) (ws : List (Write K N A B)) :
    cells k n (.put k n b :: ws) = b :: cells k n ws := by
  simp only [cells, List.filterMap_cons, and_self, if_true]

theorem cells_ne {n m : N} (h : n ≠ m) (k : K) (b : B) (ws : List (Write K N A B)) :
    cells k m (.put k n b :: ws) = cells k m ws := by
  simp only [cells, List.filterMap_cons, h, and_false, if_false]

/-- A row that is there keeps its label, and each of its cells is the last that was written. -/
theorem writeAll_present {t : Table K N A B} (h : t k = some (a, f)) (hws : t.AllowsAll ws) :
    labels k ws = [] ∧
      t.writeAll ws k = some (a, fun n => (cells k n ws).getLast?.or (f n)) := by
  induction ws generalizing t f with
  | nil => exact ⟨rfl, h⟩
  | cons w ws ih =>
    obtain ⟨hw, hrest⟩ := hws
    by_cases hk : k = w.key
    · cases w with
      | create k' b =>
        obtain rfl : k = k' := hk
        rw [Table.Allows, h] at hw
        cases hw
      | put k' n b =>
        obtain rfl : k = k' := hk
        have hput : t.write (.put k n b) k = some (a, Function.update f n (some b)) := by
          rw [Table.write, Function.update_self, h]
          rfl
        obtain ⟨hlabels, hrow⟩ := ih hput hrest
        refine ⟨hlabels, hrow.trans ?_⟩
        congr 2
        funext m
        by_cases hm : n = m
        · subst hm
          rw [cells_self, Function.update_self, List.getLast?_cons]
          cases (cells k n ws).getLast? <;> rfl
        · rw [cells_ne hm, Function.update_of_ne (Ne.symm hm)]
    · rw [labels_other hk]
      simp only [cells_other hk]
      exact ih (by rw [write_other hk, h]) hrest

/-- A row that is not there is created at most once, before anything is written to it. -/
theorem writeAll_absent {t : Table K N A B} (h : t k = none) (hws : t.AllowsAll ws) :
    (labels k ws = [] ∧ (∀ n, cells k n ws = []) ∧ t.writeAll ws k = none) ∨
    ∃ a, labels k ws = [a] ∧ t.writeAll ws k = some (a, fun n => (cells k n ws).getLast?) := by
  induction ws generalizing t with
  | nil => exact .inl ⟨rfl, fun _ => rfl, h⟩
  | cons w ws ih =>
    obtain ⟨hw, hrest⟩ := hws
    by_cases hk : k = w.key
    · cases w with
      | create k' a =>
        obtain rfl : k = k' := hk
        have hcreate : t.write (.create k a) k = some (a, fun _ => none) :=
          Function.update_self _ _ _
        obtain ⟨hlabels, hrow⟩ := writeAll_present hcreate hrest
        refine .inr ⟨a, ?_, hrow.trans ?_⟩
        · simp only [labels, List.filterMap_cons, if_true]
          exact congrArg (a :: ·) hlabels
        · simp only [Option.or_none]
          rfl
      | put k' n b =>
        obtain rfl : k = k' := hk
        exact (hw h).elim
    · rw [labels_other hk]
      simp only [cells_other hk]
      exact ih (by rw [write_other hk, h]) hrest

end LastWrite
