import Mathlib.Data.Int.Basic
import Mathlib.Tactic.SplitIfs

namespace Gregorian
set_option autoImplicit true

def LeapYear (y : Int) : Prop := (y % 4 = 0 ∧ y % 100 ≠ 0) ∨ y % 400 = 0

instance : DecidablePred LeapYear := fun _ => inferInstanceAs (Decidable (_ ∨ _))

def monthLength (y m : Int) : Int :=
  if m = 2 then if LeapYear y then 29 else 28
  else if m = 4 ∨ m = 6 ∨ m = 9 ∨ m = 11 then 30
  else 31

theorem monthLength_bounds (y m : Int) : 28 ≤ monthLength y m ∧ monthLength y m ≤ 31 := by
  rw [monthLength]
  split_ifs <;> omega

@[ext] structure Date where
  year : Int
  month : Int
  day : Int
  hmonth : 1 ≤ month ∧ month ≤ 12
  hday : 1 ≤ day ∧ day ≤ monthLength year month

def Date.Before (a b : Date) : Prop :=
  a.year < b.year ∨ a.year = b.year ∧
    (a.month < b.month ∨ a.month = b.month ∧ a.day < b.day)

theorem Date.before_total (a b : Date) : a.Before b ∨ a = b ∨ b.Before a := by
  rw [Date.ext_iff]
  simp only [Date.Before]
  omega

theorem Date.day_le (a : Date) : a.day ≤ 31 := Int.le_trans a.hday.2 (monthLength_bounds _ _).2

def Date.next (a : Date) : Date :=
  if hd : a.day < monthLength a.year a.month then
    ⟨a.year, a.month, a.day + 1, a.hmonth, by have := a.hday; omega⟩
  else if hm : a.month < 12 then
    ⟨a.year, a.month + 1, 1, by have := a.hmonth; omega, by
      have := monthLength_bounds a.year (a.month + 1); omega⟩
  else
    ⟨a.year + 1, 1, 1, by omega, by have := monthLength_bounds (a.year + 1) 1; omega⟩

theorem Date.before_next (a b : Date) : a.Before b ↔ b = a.next ∨ a.next.Before b := by
  have ha := a.hday
  have hb := b.hday
  have hm := b.hmonth
  have ham := a.hmonth
  rw [Date.ext_iff, Date.next]
  simp only [Date.Before]
  split_ifs with hd hlast
  · simp only
    omega
  · simp only
    rcases Decidable.em (b.year = a.year ∧ b.month = a.month) with ⟨hy, hmo⟩ | hne
    · rw [hy, hmo] at hb
      omega
    · omega
  · simp only
    rcases Decidable.em (b.year = a.year ∧ b.month = a.month) with ⟨hy, hmo⟩ | hne
    · rw [hy, hmo] at hb
      omega
    · omega

end Gregorian
