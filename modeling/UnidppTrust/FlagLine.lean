import Mathlib.Data.List.Induction

namespace FlagLine
set_option autoImplicit true

structure Occurrence (F T : Type) where
  flag : F
  value : T

section Lines
variable {F T : Type} (token : F → T)

def written (occs : List (Occurrence F T)) : List T :=
  occs.flatMap fun x => [token x.flag, x.value]

@[simp] theorem written_nil : written token [] = [] := rfl

theorem written_cons (x : Occurrence F T) (occs : List (Occurrence F T)) :
    written token (x :: occs) = token x.flag :: x.value :: written token occs := rfl

theorem length_written (occs : List (Occurrence F T)) :
    (written token occs).length = 2 * occs.length := by
  induction occs with
  | nil => rfl
  | cons x occs ih =>
    rw [written_cons, List.length_cons, List.length_cons, ih, List.length_cons, Nat.mul_succ]

/-- A line that has an argument where a flag should be, or a flag without its value. -/
inductive Faulty : List T → Prop
  | unknown (occs : List (Occurrence F T)) (rest : List T) (h : ∀ f, a ≠ token f) :
      Faulty (written token occs ++ a :: rest)
  | missing (occs : List (Occurrence F T)) (f : F) : Faulty (written token occs ++ [token f])

variable {token}

theorem Faulty.cons (h : Faulty token args) (x : Occurrence F T) :
    Faulty token (token x.flag :: x.value :: args) := by
  cases h with
  | unknown occs rest h => exact .unknown (x :: occs) rest h
  | missing occs f => exact .missing (x :: occs) f

variable (token)

theorem written_or_faulty (args : List T) :
    (∃ occs, args = written token occs) ∨ Faulty token args := by
  induction args using List.twoStepInduction with
  | nil => exact .inl ⟨[], rfl⟩
  | singleton a =>
    by_cases h : ∃ f, a = token f
    · obtain ⟨f, rfl⟩ := h
      exact .inr (.missing [] f)
    · exact .inr (.unknown [] [] fun f hf => h ⟨f, hf⟩)
  | cons_cons a value args ih =>
    by_cases h : ∃ f, a = token f
    · obtain ⟨f, rfl⟩ := h
      rcases ih with ⟨occs, rfl⟩ | hfaulty
      · exact .inl ⟨⟨f, value⟩ :: occs, rfl⟩
      · exact .inr (hfaulty.cons ⟨f, value⟩)
    · exact .inr (.unknown [] (value :: args) fun f hf => h ⟨f, hf⟩)

end Lines

section Values
variable {F T : Type} [DecidableEq F]

def values (f : F) (occs : List (Occurrence F T)) : List T :=
  occs.filterMap fun x => if x.flag = f then some x.value else none

def lastValue (f : F) (occs : List (Occurrence F T)) : Option T := (values f occs).getLast?

@[simp] theorem values_nil (f : F) : values f ([] : List (Occurrence F T)) = [] := rfl

@[simp] theorem lastValue_nil (f : F) : lastValue f ([] : List (Occurrence F T)) = none := rfl

@[simp] theorem values_concat (f : F) (occs : List (Occurrence F T)) (x : Occurrence F T) :
    values f (occs ++ [x]) = if x.flag = f then values f occs ++ [x.value] else values f occs := by
  by_cases h : x.flag = f
  · simp [values, h]
  · simp [values, h]

@[simp] theorem lastValue_concat (f : F) (occs : List (Occurrence F T)) (x : Occurrence F T) :
    lastValue f (occs ++ [x]) = if x.flag = f then some x.value else lastValue f occs := by
  rw [lastValue, values_concat]
  split
  · exact List.getLast?_concat
  · rfl

end Values

end FlagLine
