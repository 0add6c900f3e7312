import Mathlib.Data.Int.Basic
import Mathlib.Tactic.SplitIfs

namespace UnidppTrust
set_option autoImplicit true

def isLeapYear (y : Int) : Bool :=
  (y.tmod 4 == 0 && y.tmod 100 != 0) || y.tmod 400 == 0

def daysInMonth (y : Int) (m : Int) : Int :=
  if m = 1 ∨ m = 3 ∨ m = 5 ∨ m = 7 ∨ m = 8 ∨ m = 10 ∨ m = 12 then 31
  else if m = 4 ∨ m = 6 ∨ m = 9 ∨ m = 11 then 30
  else if m = 2 then
    if isLeapYear y then 29 else 28
  else 0

/-- Howard Hinnant's `days_from_civil` (proleptic Gregorian). -/
def daysFromCivil (y m d : Int) : Int :=
  let y := if m ≤ 2 then y - 1 else y
  let era := (if y ≥ 0 then y else y - 399).tdiv 400
  let yoe := y - era * 400
  let mp := if m > 2 then m - 3 else m + 9
  let doy := (153 * mp + 2).tdiv 5 + d - 1
  let doe := yoe * 365 + yoe.tdiv 4 - yoe.tdiv 100 + doy
  era * 146097 + doe - 719468

/-- Howard Hinnant's `civil_from_days` (proleptic Gregorian). -/
def civilFromDays (z : Int) : Int × Int × Int :=
  let z := z + 719468
  let era := (if z ≥ 0 then z else z - 146096).tdiv 146097
  let doe := z - era * 146097
  let yoe := (doe - doe.tdiv 1460 + doe.tdiv 36524 - doe.tdiv 146096).tdiv 365
  let y := yoe + era * 400
  let doy := doe - (365 * yoe + yoe.tdiv 4 - yoe.tdiv 100)
  let mp := (5 * doy + 2).tdiv 153
  let d := doy - (153 * mp + 2).tdiv 5 + 1
  let m := if mp < 10 then mp + 3 else mp - 9
  (if m ≤ 2 then y + 1 else y, m, d)

/-- A day of a 400-year era, counted by centuries, leap cycles, years and days. -/
structure EraDay where
  c : Int
  q : Int
  k : Int
  r : Int
  hc : 0 ≤ c ∧ c ≤ 3
  hq : 0 ≤ q ∧ q ≤ 24
  hk : 0 ≤ k ∧ k ≤ 3
  hr : 0 ≤ r ∧ r ≤ 365
  hleap : r = 365 → k = 3 ∧ (q < 24 ∨ c = 3)

def EraDay.doe (e : EraDay) : Int := 36524 * e.c + 1461 * e.q + 365 * e.k + e.r

def EraDay.yoe (e : EraDay) : Int := 100 * e.c + 4 * e.q + e.k

theorem EraDay.quotients (e : EraDay) :
    e.doe / 36524 = e.c + e.doe / 146096 ∧
      (e.doe / 1460 = 25 * e.c + e.q ∧ e.r < 365 ∨
        e.doe / 1460 = 25 * e.c + e.q + 1 ∧ 0 < e.r) := by
  obtain ⟨c, q, k, r, hc, hq, hk, hr, hleap⟩ := e
  simp only [EraDay.doe]
  constructor
  · rcases Decidable.em (1461 * q + 365 * k + r < 36524) with h | h
    · have hs : 0 ≤ 1461 * q + 365 * k + r := by omega
      rw [Int.add_assoc, Int.add_assoc, ← Int.add_assoc (1461 * q)]
      generalize 1461 * q + 365 * k + r = s at h hs
      have h₁ : (36524 * c + s) / 36524 = c := by omega
      have h₂ : (36524 * c + s) / 146096 = 0 := by omega
      rw [h₁, h₂, Int.add_zero]
    · obtain ⟨rfl, rfl, rfl, rfl⟩ : c = 3 ∧ q = 24 ∧ k = 3 ∧ r = 365 := by omega
      rfl
  · rcases Decidable.em (24 * c + q + 365 * k + r < 1460) with h | h
    · left
      refine ⟨by omega, ?_⟩
      by_contra hr'
      have := hleap (by omega)
      omega
    · right
      omega

theorem EraDay.year (e : EraDay) :
    (e.doe - e.doe / 1460 + e.doe / 36524 - e.doe / 146096) / 365 = e.yoe := by
  obtain ⟨h1, h2⟩ := e.quotients
  have hr := e.hr
  have hdoe : e.doe = 36524 * e.c + 1461 * e.q + 365 * e.k + e.r := rfl
  rw [EraDay.yoe]
  rcases h2 with h2 | h2
  · omega
  · omega

theorem EraDay.dayOfYear (e : EraDay) :
    e.doe - (365 * e.yoe + e.yoe / 4 - e.yoe / 100) = e.r := by
  obtain ⟨c, q, k, r, hc, hq, hk, hr, hleap⟩ := e
  simp only [EraDay.doe, EraDay.yoe]
  have h4 : (100 * c + 4 * q + k) / 4 = 25 * c + q := by omega
  have h100 : (100 * c + 4 * q + k) / 100 = c := by omega
  omega

theorem exists_eraDay (h : 0 ≤ doe ∧ doe ≤ 146096) : ∃ e : EraDay, e.doe = doe := by
  rcases Decidable.em (doe = 146096) with rfl | hlast
  · exact ⟨⟨3, 24, 3, 365, by omega, by omega, by omega, by omega, by omega⟩, rfl⟩
  · generalize hc : doe / 36524 = c
    generalize hs : doe % 36524 = s
    generalize hq : s / 1461 = q
    generalize ht : s % 1461 = t
    rcases Decidable.em (t = 1460) with h1460 | h1460
    · refine ⟨⟨c, q, 3, 365, by omega, by omega, by omega, by omega, by omega⟩, ?_⟩
      simp only [EraDay.doe]
      omega
    · refine ⟨⟨c, q, t / 365, t % 365, by omega, by omega, by omega, by omega, by omega⟩, ?_⟩
      simp only [EraDay.doe]
      omega

/-- Rounding the dividend down first makes truncated division the floor. -/
theorem tdiv_era (y : Int) : (if y ≥ 0 then y else y - 399).tdiv 400 = y / 400 := by
  split_ifs with hy
  · exact Int.tdiv_eq_ediv_of_nonneg hy
  · rw [← Int.neg_neg (y - 399), Int.neg_tdiv, Int.tdiv_eq_ediv_of_nonneg (by omega)]
    omega

theorem tdiv_era_days (z : Int) :
    (if z ≥ 0 then z else z - 146096).tdiv 146097 = z / 146097 := by
  split_ifs with hz
  · exact Int.tdiv_eq_ediv_of_nonneg hz
  · rw [← Int.neg_neg (z - 146096), Int.neg_tdiv, Int.tdiv_eq_ediv_of_nonneg (by omega)]
    omega

/-- Months are counted from March, so that the leap day is the last of its year. -/
def marchMonth (r : Int) : Int := (5 * r + 2) / 153

def monthOf (r : Int) : Int := if marchMonth r < 10 then marchMonth r + 3 else marchMonth r - 9

def dayOf (r : Int) : Int := r - (153 * marchMonth r + 2) / 5 + 1

def EraDay.civil (e : EraDay) (era : Int) : Int × Int × Int :=
  let y := e.yoe + era * 400
  (if monthOf e.r ≤ 2 then y + 1 else y, monthOf e.r, dayOf e.r)

theorem EraDay.yoe_nonneg (e : EraDay) : 0 ≤ e.yoe ∧ e.yoe ≤ 399 := by
  obtain ⟨c, q, k, r, hc, hq, hk, hr, hleap⟩ := e
  simp only [EraDay.yoe]
  omega

theorem marchMonth_bounds (h : 0 ≤ r ∧ r ≤ 365) : 0 ≤ marchMonth r ∧ marchMonth r ≤ 11 := by
  simp only [marchMonth]
  omega

theorem civilFromDays_eq (e : EraDay) (h : e.doe = (z + 719468) % 146097) :
    civilFromDays z = e.civil ((z + 719468) / 146097) := by
  have hz : z + 719468 - (z + 719468) / 146097 * 146097 = e.doe := by omega
  have hpos : 0 ≤ e.doe := by omega
  have hr := e.hr
  have hy := e.yoe_nonneg
  have hm := marchMonth_bounds hr
  have hn : 0 ≤ e.doe - e.doe / 1460 + e.doe / 36524 - e.doe / 146096 := by omega
  have hdoy := e.dayOfYear
  simp only [civilFromDays, tdiv_era_days, hz, Int.tdiv_eq_ediv_of_nonneg hpos,
    Int.tdiv_eq_ediv_of_nonneg hn, e.year, Int.tdiv_eq_ediv_of_nonneg hy.1, hdoy,
    Int.tdiv_eq_ediv_of_nonneg (show 0 ≤ 5 * e.r + 2 by omega)]
  rw [← marchMonth, Int.tdiv_eq_ediv_of_nonneg (show 0 ≤ 153 * marchMonth e.r + 2 by omega)]
  rfl

theorem exists_civil (z : Int) :
    ∃ e : EraDay, e.doe = (z + 719468) % 146097 ∧
      civilFromDays z = e.civil ((z + 719468) / 146097) := by
  have hday : 0 ≤ (z + 719468) % 146097 ∧ (z + 719468) % 146097 ≤ 146096 := by omega
  obtain ⟨e, he⟩ := exists_eraDay hday
  exact ⟨e, he, civilFromDays_eq e he⟩

theorem EraDay.daysFromCivil (e : EraDay) (era : Int) :
    let (y, m, d) := e.civil era
    UnidppTrust.daysFromCivil y m d = era * 146097 + e.doe - 719468 := by
  have hr := e.hr
  have hy := e.yoe_nonneg
  have hm := marchMonth_bounds hr
  have hdoy := e.dayOfYear
  have hmp : (if monthOf e.r > 2 then monthOf e.r - 3 else monthOf e.r + 9) = marchMonth e.r := by
    simp only [monthOf]
    split_ifs <;> omega
  have hera : (e.yoe + era * 400) / 400 = era := by omega
  have hyoe : e.yoe + era * 400 - era * 400 = e.yoe := by omega
  have hdiv := Int.tdiv_eq_ediv_of_nonneg (b := 5) (show 0 ≤ 153 * marchMonth e.r + 2 by omega)
  have hcount : era * 146097 + (e.yoe * 365 + e.yoe / 4 - e.yoe / 100 +
      ((153 * marchMonth e.r + 2) / 5 + dayOf e.r - 1)) - 719468 =
      era * 146097 + e.doe - 719468 := by
    simp only [dayOf]
    omega
  rcases Decidable.em (monthOf e.r ≤ 2) with h | h
  · simp only [EraDay.civil, UnidppTrust.daysFromCivil, h, if_true, Int.add_sub_cancel, hmp,
      tdiv_era, hera, hyoe, Int.tdiv_eq_ediv_of_nonneg hy.1, hdiv, hcount]
  · simp only [EraDay.civil, UnidppTrust.daysFromCivil, h, if_false, hmp, tdiv_era, hera, hyoe,
      Int.tdiv_eq_ediv_of_nonneg hy.1, hdiv, hcount]

theorem daysFromCivil_civilFromDays (z : Int) :
    let (y, m, d) := civilFromDays z
    daysFromCivil y m d = z := by
  obtain ⟨e, he, hc⟩ := exists_civil z
  have h := e.daysFromCivil ((z + 719468) / 146097)
  rw [hc]
  simp only at h ⊢
  rw [h, he]
  omega

theorem isLeapYear_iff (y : Int) :
    isLeapYear y = true ↔ (y % 4 = 0 ∧ y % 100 ≠ 0) ∨ y % 400 = 0 := by
  have ht (n : Int) : y.tmod n = 0 ↔ y % n = 0 := by
    rw [← Int.dvd_iff_tmod_eq_zero, Int.dvd_iff_emod_eq_zero]
  simp only [isLeapYear, Bool.or_eq_true, Bool.and_eq_true, beq_iff_eq, bne_iff_ne, ne_eq, ht]

theorem EraDay.leap (e : EraDay) (era : Int) (h : e.r = 365) :
    isLeapYear (e.civil era).1 = true := by
  have hm : monthOf e.r = 2 := by rw [h]; rfl
  obtain ⟨c, q, k, r, hc, hq, hk, hr, hleap⟩ := e
  obtain ⟨hk3, hlast⟩ := hleap h
  rw [isLeapYear_iff]
  simp only at hm
  simp only [EraDay.civil, EraDay.yoe, hm, hk3]
  omega

theorem dayOf_bounds (h : 0 ≤ r ∧ r ≤ 365) : 1 ≤ dayOf r ∧ dayOf r ≤ 31 ∧
    ((monthOf r = 4 ∨ monthOf r = 6 ∨ monthOf r = 9 ∨ monthOf r = 11) → dayOf r ≤ 30) ∧
    (monthOf r = 2 → dayOf r ≤ 29 ∧ (dayOf r = 29 → r = 365)) := by
  have hm := marchMonth_bounds h
  have hr : 5 * r + 2 = 153 * marchMonth r + (5 * r + 2) % 153 := by
    simp only [marchMonth]
    omega
  simp only [monthOf, dayOf]
  generalize marchMonth r = m at hm hr ⊢
  split_ifs <;> omega

theorem daysInMonth_le (y m : Int) : daysInMonth y m ≤ 31 := by
  simp only [daysInMonth]
  split_ifs <;> omega

theorem dayOf_le (h : 0 ≤ r ∧ r ≤ 365) (hleap : r = 365 → isLeapYear y = true) :
    dayOf r ≤ daysInMonth y (monthOf r) := by
  obtain ⟨hd1, hd31, hd30, hd29⟩ := dayOf_bounds h
  have hm := marchMonth_bounds h
  have hmonth : 1 ≤ monthOf r ∧ monthOf r ≤ 12 := by
    simp only [monthOf]
    split_ifs <;> omega
  simp only [daysInMonth]
  split_ifs with h₁ h₂ h₃ h₄
  · exact hd31
  · exact hd30 h₂
  · exact (hd29 h₃).1
  · have hle := (hd29 h₃).1
    have hne : dayOf r ≠ 29 := fun h => h₄ (hleap ((hd29 h₃).2 h))
    omega
  · omega

theorem civilFromDays_valid (z : Int) :
    let (y, m, d) := civilFromDays z
    1 ≤ m ∧ m ≤ 12 ∧ 1 ≤ d ∧ d ≤ daysInMonth y m := by
  obtain ⟨e, he, hc⟩ := exists_civil z
  have hm := marchMonth_bounds e.hr
  have hmonth : 1 ≤ monthOf e.r ∧ monthOf e.r ≤ 12 := by
    simp only [monthOf]
    split_ifs <;> omega
  rw [hc]
  exact ⟨hmonth.1, hmonth.2, (dayOf_bounds e.hr).1, dayOf_le e.hr (e.leap _)⟩

def yearDays (y : Int) : Int := 365 * y + y / 4 - y / 100 + y / 400

theorem yearDays_mono (h : x ≤ y) : yearDays x ≤ yearDays y := by
  obtain ⟨n, rfl⟩ := Int.le.dest h
  clear h
  induction n with
  | zero =>
    exact Int.le_of_eq (congrArg yearDays (Int.add_zero x).symm)
  | succ n ih =>
    rw [show x + ((n + 1 : Nat) : Int) = x + n + 1 by omega]
    simp only [yearDays] at ih ⊢
    omega

theorem daysFromCivil_eq (y d : Int) (h : 1 ≤ m ∧ m ≤ 12) :
    daysFromCivil y m d = yearDays (if m ≤ 2 then y - 1 else y) +
      (153 * (if m > 2 then m - 3 else m + 9) + 2) / 5 + d - 719469 := by
  have hmp : 0 ≤ 153 * (if m > 2 then m - 3 else m + 9) + 2 := by split_ifs <;> omega
  simp only [daysFromCivil, yearDays, tdiv_era, Int.tdiv_eq_ediv_of_nonneg hmp]
  generalize (if m ≤ 2 then y - 1 else y) = y'
  have hyoe : 0 ≤ y' - y' / 400 * 400 := by omega
  rw [Int.tdiv_eq_ediv_of_nonneg hyoe, Int.tdiv_eq_ediv_of_nonneg hyoe]
  omega

theorem daysFromCivil_cases (y d : Int) (h : 1 ≤ m ∧ m ≤ 12) :
    (m = 1 ∧ daysFromCivil y m d = yearDays (y - 1) + d - 719163) ∨
    (m = 2 ∧ daysFromCivil y m d = yearDays (y - 1) + d - 719132) ∨
    (3 ≤ m ∧ yearDays y + d - 719469 ≤ daysFromCivil y m d ∧
      daysFromCivil y m d ≤ yearDays y + d - 719194 ∧
      (m < 12 → daysFromCivil y m d ≤ yearDays y + d - 719224) ∧
      (m = 12 → daysFromCivil y m d = yearDays y + d - 719194)) := by
  rw [daysFromCivil_eq y d h]
  split_ifs with h₁ h₂ h₂
  · omega
  · have hm : m = 1 ∨ m = 2 := by omega
    rcases hm with rfl | rfl
    · left; omega
    · right; left; omega
  · right; right; omega
  · omega

theorem daysFromCivil_first (hm : 1 ≤ m ∧ m ≤ 12) (hd : 1 ≤ d ∧ d ≤ 31) :
    (0 ≤ y ↔ -719528 ≤ daysFromCivil y m d) ∧
      (0 ≤ y → daysFromCivil y m d = -719528 → y = 0 ∧ m = 1 ∧ d = 1) := by
  have hcases := daysFromCivil_cases y d hm
  have h₀ : yearDays 0 = 0 := rfl
  have h₁ : yearDays (-1) = -366 := rfl
  have h₂ : yearDays (-2) = -731 := rfl
  rcases Decidable.em (y < 0) with hy | hy
  · have hle := yearDays_mono (show y ≤ -1 by omega)
    have hle' := yearDays_mono (show y - 1 ≤ -2 by omega)
    omega
  · have hge := yearDays_mono (show 0 ≤ y by omega)
    have hge' := yearDays_mono (show -1 ≤ y - 1 by omega)
    refine ⟨by omega, fun _ h => ?_⟩
    rcases Decidable.em (0 < y) with hpos | hpos
    · have hge'' := yearDays_mono (show 0 ≤ y - 1 by omega)
      omega
    · omega

theorem daysFromCivil_last (hm : 1 ≤ m ∧ m ≤ 12) (hd : 1 ≤ d ∧ d ≤ 31) :
    (y ≤ 9999 ↔ daysFromCivil y m d ≤ 2932896) ∧
      (y ≤ 9999 → daysFromCivil y m d = 2932896 → y = 9999 ∧ m = 12 ∧ d = 31) := by
  have hcases := daysFromCivil_cases y d hm
  have h₀ : yearDays 9999 = 3652059 := rfl
  have h₁ : yearDays 10000 = 3652425 := rfl
  have h₂ : yearDays 9998 = 3651694 := rfl
  rcases Decidable.em (9999 < y) with hy | hy
  · have hle := yearDays_mono (show 10000 ≤ y by omega)
    have hle' := yearDays_mono (show 9999 ≤ y - 1 by omega)
    omega
  · have hge := yearDays_mono (show y ≤ 9999 by omega)
    have hge' := yearDays_mono (show y - 1 ≤ 9998 by omega)
    refine ⟨by omega, fun _ h => ?_⟩
    rcases Decidable.em (y < 9999) with hpos | hpos
    · have hge'' := yearDays_mono (show y ≤ 9998 by omega)
      omega
    · omega

end UnidppTrust
