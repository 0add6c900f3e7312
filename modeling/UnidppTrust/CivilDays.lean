import UnidppTrust.Calendar
import UnidppTrust.Gregorian
import Mathlib.Algebra.Ring.Int.Defs

namespace Gregorian
open UnidppTrust
set_option autoImplicit true

theorem daysInMonth_eq (y : Int) (h : 1 ≤ m ∧ m ≤ 12) : daysInMonth y m = monthLength y m := by
  have hleap : isLeapYear y = true ↔ LeapYear y := isLeapYear_iff y
  rw [daysInMonth, monthLength]
  simp only [hleap]
  split_ifs <;> omega

def Date.number (a : Date) : Int := daysFromCivil a.year a.month a.day

def dateOf (z : Int) : Date where
  year := (civilFromDays z).1
  month := (civilFromDays z).2.1
  day := (civilFromDays z).2.2
  hmonth := ⟨(civilFromDays_valid z).1, (civilFromDays_valid z).2.1⟩
  hday := by
    obtain ⟨hm1, hm2, hd1, hd2⟩ := civilFromDays_valid z
    rw [daysInMonth_eq _ ⟨hm1, hm2⟩] at hd2
    exact ⟨hd1, hd2⟩

theorem number_dateOf (z : Int) : (dateOf z).number = z := daysFromCivil_civilFromDays z

theorem yearDays_succ (y : Int) :
    yearDays y = yearDays (y - 1) + if LeapYear y then 366 else 365 := by
  simp only [yearDays, LeapYear]
  split_ifs <;> omega

def monthStart (y m : Int) : Int :=
  if m ≤ 2 then 31 * (m - 1) else (153 * (m - 3) + 2) / 5 + if LeapYear y then 60 else 59

theorem monthStart_succ (y : Int) (h : 1 ≤ m ∧ m < 12) :
    monthStart y (m + 1) = monthStart y m + monthLength y m := by
  have hm : m = 1 ∨ m = 2 ∨ m = 3 ∨ m = 4 ∨ m = 5 ∨ m = 6 ∨ m = 7 ∨ m = 8 ∨ m = 9 ∨ m = 10 ∨
      m = 11 := by omega
  rcases hm with rfl | rfl | rfl | rfl | rfl | rfl | rfl | rfl | rfl | rfl | rfl
  all_goals
    simp only [monthStart, monthLength]
    rcases Decidable.em (LeapYear y) with hleap | hleap
  all_goals simp [hleap]

theorem monthStart_mono (y : Int) (h : 1 ≤ m) (hle : m ≤ n) :
    monthStart y m ≤ monthStart y n := by
  simp only [monthStart]
  split_ifs <;> omega

theorem Date.number_eq (a : Date) :
    a.number = yearDays (a.year - 1) - 719163 + monthStart a.year a.month + a.day := by
  have hyear := yearDays_succ a.year
  have hmonth := a.hmonth
  rw [Date.number, daysFromCivil_eq _ _ a.hmonth, monthStart]
  split_ifs at hyear ⊢ <;> omega

theorem Date.number_month (a : Date) (hm : a.month < 12) :
    a.number < yearDays (a.year - 1) - 719162 + monthStart a.year (a.month + 1) := by
  have hday := a.hday
  have hmonth := a.hmonth
  rw [a.number_eq, monthStart_succ _ ⟨hmonth.1, hm⟩]
  omega

theorem Date.number_year (a : Date) :
    yearDays (a.year - 1) - 719162 ≤ a.number ∧ a.number < yearDays a.year - 719162 := by
  have hday := a.hday
  have hmonth := a.hmonth
  have hyear := yearDays_succ a.year
  have hfirst := monthStart_mono a.year (Int.le_refl 1) hmonth.1
  have hstart : monthStart a.year 1 = 0 := rfl
  have hlast : monthStart a.year 12 + 31 = if LeapYear a.year then 366 else 365 := by
    simp only [monthStart]
    split_ifs <;> omega
  rcases Decidable.em (a.month < 12) with hm | hm
  · have hnumber := a.number_month hm
    have hle := monthStart_mono (n := 12) a.year (show 1 ≤ a.month + 1 by omega) (by omega)
    rw [a.number_eq] at hnumber ⊢
    omega
  · have hdec : a.month = 12 := by omega
    have hd := a.day_le
    rw [a.number_eq, hdec]
    omega

theorem Date.number_lt {a b : Date} (h : a.Before b) : a.number < b.number := by
  rcases h with hy | ⟨hy, hm | ⟨hm, hd⟩⟩
  · have ha := a.number_year
    have hb := b.number_year
    have hle := yearDays_mono (show a.year ≤ b.year - 1 by omega)
    omega
  · have hbm := b.hmonth
    have ham := a.hmonth
    have hbd := b.hday
    have hnumber := a.number_month (by omega)
    have hle := monthStart_mono b.year (show 1 ≤ a.month + 1 by omega) (show _ ≤ b.month by omega)
    rw [b.number_eq]
    rw [hy] at hnumber
    omega
  · rw [a.number_eq, b.number_eq, hy, hm]
    omega

theorem Date.number_lt_iff (a b : Date) : a.Before b ↔ a.number < b.number := by
  constructor
  · exact number_lt
  · intro h
    rcases a.before_total b with hab | rfl | hba
    · exact hab
    · exact (Int.lt_irrefl _ h).elim
    · exact (Int.lt_asymm h (number_lt hba)).elim

theorem Date.number_injective {a b : Date} (h : a.number = b.number) : a = b := by
  rcases a.before_total b with hab | hab | hba
  · exact (Int.ne_of_lt (number_lt hab) h).elim
  · exact hab
  · exact (Int.ne_of_lt (number_lt hba) h.symm).elim

theorem dateOf_number (a : Date) : dateOf a.number = a :=
  Date.number_injective (number_dateOf a.number)

/-- The number after that of a date is the next date's. -/
theorem Date.number_next (a : Date) : a.next.number = a.number + 1 := by
  have hafter := Date.number_lt ((a.before_next a.next).2 (.inl rfl))
  have hlate := a.before_next (dateOf (a.number + 1))
  rw [Date.number_lt_iff, Date.number_lt_iff, number_dateOf] at hlate
  rcases hlate.1 (Int.lt_succ _) with h | h
  · rw [← h, number_dateOf]
  · omega

theorem dateOf_succ (z : Int) : dateOf (z + 1) = (dateOf z).next := by
  apply Date.number_injective
  rw [number_dateOf, Date.number_next, number_dateOf]

theorem Date.year_small (a : Date) (h : -2 ^ 48 ≤ a.number ∧ a.number ≤ 2 ^ 48) :
    -2 ^ 53 ≤ a.year ∧ a.year ≤ 2 ^ 53 := by
  have hyear := a.number_year
  simp only [yearDays] at hyear
  omega

end Gregorian

namespace UnidppTrust
open Gregorian

/-- A result of `i64` arithmetic, unless it overflows. -/
def i64 (n : Int) : Option Int := if -2 ^ 63 ≤ n ∧ n < 2 ^ 63 then some n else none

def u32 (n : Int) : Option Int := if 0 ≤ n ∧ n < 2 ^ 32 then some n else none

theorem i64_bind (h : -2 ^ 63 ≤ n ∧ n < 2 ^ 63) (f : Int → Option α) : (i64 n >>= f) = f n := by
  rw [i64, if_pos h]
  rfl

theorem u32_bind (h : 0 ≤ n ∧ n < 2 ^ 32) (f : Int → Option α) : (u32 n >>= f) = f n := by
  rw [u32, if_pos h]
  rfl

/-- `days_from_civil`, every operation checked; a division by a positive constant cannot
overflow. -/
def checkedDaysFromCivil (y m d : Int) : Option Int := do
  let y ← i64 (if m ≤ 2 then y - 1 else y)
  let era := (← i64 (if y ≥ 0 then y else y - 399)).tdiv 400
  let yoe ← i64 (y - (← i64 (era * 400)))
  let mp ← i64 (if m > 2 then m - 3 else m + 9)
  let doy ← i64 ((← i64 ((← i64 ((← i64 (153 * mp)) + 2)).tdiv 5 + d)) - 1)
  let doe ← i64 ((← i64 ((← i64 ((← i64 (yoe * 365)) + yoe.tdiv 4)) - yoe.tdiv 100)) + doy)
  i64 ((← i64 ((← i64 (era * 146097)) + doe)) - 719468)

def checkedCivilFromDays (z : Int) : Option (Int × Int × Int) := do
  let z ← i64 (z + 719468)
  let era := (← i64 (if z ≥ 0 then z else z - 146096)).tdiv 146097
  let doe ← i64 (z - (← i64 (era * 146097)))
  let yoe := (← i64 ((← i64 ((← i64 (doe - doe.tdiv 1460)) + doe.tdiv 36524)) -
    doe.tdiv 146096)).tdiv 365
  let y ← i64 (yoe + (← i64 (era * 400)))
  let doy ← i64 (doe - (← i64 ((← i64 ((← i64 (365 * yoe)) + yoe.tdiv 4)) - yoe.tdiv 100)))
  let mp := (← i64 ((← i64 (5 * doy)) + 2)).tdiv 153
  let d ← u32 (← i64 ((← i64 (doy - (← i64 ((← i64 (153 * mp)) + 2)).tdiv 5)) + 1))
  let m ← u32 (← i64 (if mp < 10 then mp + 3 else mp - 9))
  some (← i64 (if m ≤ 2 then y + 1 else y), m, d)

theorem checkedCivilFromDays_eq (hz : -2 ^ 62 ≤ z ∧ z ≤ 2 ^ 62) :
    checkedCivilFromDays z = some (civilFromDays z) := by
  obtain ⟨e, he, hc⟩ := exists_civil z
  have hpos : 0 ≤ e.doe ∧ e.doe ≤ 146096 := by omega
  have hr := e.hr
  have hy := e.yoe_nonneg
  have hm := marchMonth_bounds hr
  have hmonth : 1 ≤ monthOf e.r ∧ monthOf e.r ≤ 12 := by
    rw [monthOf]
    split_ifs <;> omega
  have hday := dayOf_bounds hr
  have hera : -2 ^ 63 ≤ (if z + 719468 ≥ 0 then z + 719468 else z + 719468 - 146096) ∧
      (if z + 719468 ≥ 0 then z + 719468 else z + 719468 - 146096) < 2 ^ 63 := by
    split_ifs <;> omega
  -- the era and the day of it
  rw [checkedCivilFromDays, i64_bind (by omega), i64_bind hera, tdiv_era_days]
  extract_lets era
  have hera : era = (z + 719468) / 146097 := rfl
  clear_value era
  have hdoe : z + 719468 - era * 146097 = e.doe := by omega
  rw [i64_bind (by omega), i64_bind (by omega), hdoe]
  -- the year and the day of it
  rw [Int.tdiv_eq_ediv_of_nonneg hpos.1, Int.tdiv_eq_ediv_of_nonneg hpos.1,
    Int.tdiv_eq_ediv_of_nonneg hpos.1, i64_bind (by omega), i64_bind (by omega),
    i64_bind (by omega), Int.tdiv_eq_ediv_of_nonneg (by omega), e.year]
  extract_lets yoe
  have hyoe : yoe = e.yoe := rfl
  clear_value yoe
  subst hyoe
  rw [i64_bind (by omega), i64_bind (by omega), Int.tdiv_eq_ediv_of_nonneg hy.1,
    Int.tdiv_eq_ediv_of_nonneg hy.1, i64_bind (by omega), i64_bind (by omega),
    i64_bind (by omega), i64_bind (by omega), e.dayOfYear]
  -- the month and the day of it
  rw [i64_bind (by omega), i64_bind (by omega), Int.tdiv_eq_ediv_of_nonneg (by omega),
    ← marchMonth]
  extract_lets mp
  have hmp : mp = marchMonth e.r := rfl
  clear_value mp
  subst hmp
  rw [i64_bind (by omega), i64_bind (by omega), Int.tdiv_eq_ediv_of_nonneg (by omega),
    i64_bind (by omega)]
  rw [← dayOf, i64_bind (by omega), u32_bind (by omega), ← monthOf, i64_bind (by omega),
    u32_bind (by omega), i64_bind (by split_ifs <;> omega), hc, hera]
  rfl

theorem checkedDaysFromCivil_eq (hy : -2 ^ 53 ≤ y ∧ y ≤ 2 ^ 53) (hm : 1 ≤ m ∧ m ≤ 12)
    (hd : 1 ≤ d ∧ d ≤ 31) : checkedDaysFromCivil y m d = some (daysFromCivil y m d) := by
  have hmarch : -2 ^ 53 - 1 ≤ (if m ≤ 2 then y - 1 else y) ∧
      (if m ≤ 2 then y - 1 else y) ≤ 2 ^ 53 := by
    split_ifs <;> omega
  have hmp : 0 ≤ (if m > 2 then m - 3 else m + 9) ∧ (if m > 2 then m - 3 else m + 9) ≤ 11 := by
    split_ifs <;> omega
  rw [checkedDaysFromCivil, i64_bind (by omega), daysFromCivil]
  generalize (if m ≤ 2 then y - 1 else y) = y' at hmarch ⊢
  generalize (if m > 2 then m - 3 else m + 9) = mp at hmp ⊢
  -- the era and the year of it
  have hbefore : -2 ^ 63 ≤ (if y' ≥ 0 then y' else y' - 399) ∧
      (if y' ≥ 0 then y' else y' - 399) < 2 ^ 63 := by
    split_ifs <;> omega
  rw [i64_bind hbefore, tdiv_era]
  extract_lets era
  have hera : era = y' / 400 := rfl
  clear_value era
  have hyoe : 0 ≤ y' - era * 400 ∧ y' - era * 400 ≤ 399 := by omega
  rw [← hera, i64_bind (by omega), i64_bind (by omega), i64_bind (by omega)]
  -- the day of the year
  rw [i64_bind (by omega), i64_bind (by omega), Int.tdiv_eq_ediv_of_nonneg (by omega),
    i64_bind (by omega), i64_bind (by omega)]
  -- the day of the era, and the number
  rw [Int.tdiv_eq_ediv_of_nonneg hyoe.1, Int.tdiv_eq_ediv_of_nonneg hyoe.1, i64_bind (by omega),
    i64_bind (by omega), i64_bind (by omega), i64_bind (by omega), i64_bind (by omega),
    i64_bind (by omega), i64, if_pos (by omega)]

/-- Over the seconds of an `i64`, the conversions are inverse to each other, and compute within
their types; the day after a day is the next date, and the number of a date grows with the date. -/
theorem calendar_bijective :
    (∀ secs : Int64, let z := secs.toInt / 86400
      let (y, m, d) := civilFromDays z
      (1 ≤ m ∧ m ≤ 12 ∧ 1 ≤ d ∧ d ≤ daysInMonth y m) ∧ daysFromCivil y m d = z ∧
      checkedCivilFromDays z = some (y, m, d) ∧ checkedDaysFromCivil y m d = some z ∧
      dateOf (z + 1) = (dateOf z).next) ∧
    (∀ a : Date, civilFromDays (daysFromCivil a.year a.month a.day) = (a.year, a.month, a.day)) ∧
    ∀ a b : Date, a.Before b ↔
      daysFromCivil a.year a.month a.day < daysFromCivil b.year b.month b.day := by
  refine ⟨fun secs => ?_, fun a => ?_, fun a b => a.number_lt_iff b⟩
  · have hlo := secs.le_toInt
    have hhi := secs.toInt_lt
    have hz : -2 ^ 48 ≤ secs.toInt / 86400 ∧ secs.toInt / 86400 ≤ 2 ^ 48 := by omega
    generalize secs.toInt / 86400 = z at hz
    have hday := (dateOf z).day_le
    have hyear := (dateOf z).year_small (by rw [number_dateOf]; exact hz)
    refine ⟨civilFromDays_valid z, daysFromCivil_civilFromDays z,
      checkedCivilFromDays_eq (by omega), ?_, dateOf_succ z⟩
    refine (checkedDaysFromCivil_eq hyear (dateOf z).hmonth ⟨(dateOf z).hday.1, hday⟩).trans ?_
    exact congrArg some (number_dateOf z)
  · have h := dateOf_number a
    rw [Date.ext_iff] at h
    exact Prod.ext h.1 (Prod.ext h.2.1 h.2.2)

end UnidppTrust
