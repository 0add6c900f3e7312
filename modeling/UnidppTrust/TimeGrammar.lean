import UnidppTrust.Time
import UnidppTrust.CivilDays

namespace UnidppTrust
open Rust Gregorian
set_option autoImplicit true

def decimalValue (v : Int) (b : Bytes) : Int := b.foldl (fun n c => n * 10 + (c.toNat - 48 : Int)) v

/-- A number written in so many decimal digits. -/
structure Numeral (w : Nat) (n : Int) (b : Bytes) : Prop where
  length : b.length = w
  digits : ∀ c ∈ b, isAsciiDigit c = true
  value : decimalValue 0 b = n

def DateText (a : Date) (b : Bytes) : Prop :=
  ∃ year month day, b = year ++ 45 :: (month ++ 45 :: day) ∧
    Numeral 4 a.year year ∧ Numeral 2 a.month month ∧ Numeral 2 a.day day

/-- A fraction of a second: none, or a point and digits. -/
inductive FractionText : Bytes → Prop
  | none : FractionText []
  | point (h : ∀ c ∈ ds, isAsciiDigit c = true) : FractionText (46 :: ds)

/-- A time of day: none, or after `T`, `t` or a space the hour, the minute and the second, parted
by colons, and a fraction. -/
inductive ClockText : Int → Bytes → Prop
  | none : ClockText 0 []
  | time (hsep : sep = 84 ∨ sep = 116 ∨ sep = 32) (hhour : Numeral 2 hour h) (hh : hour ≤ 23)
      (hminute : Numeral 2 minute m) (hm : minute ≤ 59) (hsecond : Numeral 2 second s)
      (hs : second ≤ 59) (hfraction : FractionText f) :
      ClockText (hour * 3600 + minute * 60 + second) (sep :: (h ++ 58 :: (m ++ 58 :: (s ++ f))))

/-- A zone: none, `Z` or `z`, or a signed offset in hours and minutes, with or without a colon. -/
inductive ZoneText : Int → Bytes → Prop
  | none : ZoneText 0 []
  | utc (h : c = 90 ∨ c = 122) : ZoneText 0 [c]
  | offset (hsign : (c = 43 ∧ sign = 1) ∨ (c = 45 ∧ sign = -1)) (hhour : Numeral 2 oh h)
      (hh : oh ≤ 23) (hcolon : colon = [] ∨ colon = [58]) (hminute : Numeral 2 om m)
      (hm : om ≤ 59) : ZoneText (sign * (oh * 3600 + om * 60)) (c :: (h ++ (colon ++ m)))

/-- A timestamp, and the instant it states. -/
def TimeText (secs : Int) (b : Bytes) : Prop :=
  ∃ a date time clock offset zone, b = date ++ (clock ++ zone) ∧ DateText a date ∧
    ClockText time clock ∧ ZoneText offset zone ∧ secs = a.number * 86400 + time - offset

theorem decimal_iff : decimal v b = some n ↔
    (∀ c ∈ b, isAsciiDigit c = true) ∧
      decimalValue v b = n := by
  induction b generalizing v with
  | nil => simp [decimal, decimalValue]
  | cons c cs ih =>
    rw [decimal, List.forall_mem_cons, decimalValue, List.foldl_cons, ← decimalValue]
    split
    · rename_i hc
      rw [ih]
      simp only [hc, true_and]
    · rename_i hc
      simp only [hc, Bool.false_eq_true, false_and]
      constructor
      · intro h
        cases h
      · exact False.elim

theorem digits_iff (hw : 0 < w) : digits b pos w = some n ↔
    ∃ num rest, Numeral w n num ∧ b.drop pos = num ++ rest := by
  unfold digits
  constructor
  · intro h
    split at h
    · cases h
    · rename_i hlen
      obtain ⟨hdigits, hvalue⟩ := decimal_iff.1 h
      refine ⟨(b.drop pos).take w, (b.drop pos).drop w, ⟨?_, hdigits, hvalue⟩,
        (List.take_append_drop w _).symm⟩
      rw [List.length_take, List.length_drop]
      omega
  · rintro ⟨num, rest, ⟨hlength, hdigits, hvalue⟩, hdrop⟩
    have hlen := congrArg List.length hdrop
    rw [List.length_drop, List.length_append] at hlen
    rw [if_neg (by omega), hdrop, List.take_left' hlength]
    exact decimal_iff.2 ⟨hdigits, hvalue⟩

theorem Numeral.nonneg (h : Numeral w n b) : 0 ≤ n ∧ n < 10 ^ w := by
  have hb := decimal_bounds (Int.le_refl 0) (decimal_iff.2 ⟨h.digits, h.value⟩)
  rwa [h.length, Int.zero_add, Int.one_mul] at hb

theorem numeral_text (hw : 0 < w) (h : digits b pos w = some n) :
    ∃ num, Numeral w n num ∧ b.drop pos = num ++ b.drop (pos + w) := by
  obtain ⟨num, rest, hnum, hb⟩ := (digits_iff hw).1 h
  exact ⟨num, hnum, by rw [drop_after hb hnum.length, hb]⟩

theorem numeral_separated (hw : 0 < w) (h : digits b pos w = some n)
    (hc : b[pos + w]? = some c) :
    ∃ num, Numeral w n num ∧ b.drop pos = num ++ c :: b.drop (pos + w + 1) := by
  obtain ⟨num, hnum, hb⟩ := numeral_text hw h
  obtain ⟨rest, hrest⟩ := getElem_iff.1 hc
  exact ⟨num, hnum, by rw [drop_succ hrest, hb, hrest]⟩

theorem parseDate_text (h : parseDate b err = .ok (year, month, day)) :
    ∃ a date rest, b = date ++ rest ∧ DateText a date ∧ a.year = year ∧ a.month = month ∧
      a.day = day := by
  obtain ⟨hy, hc, hm, hc', hd, hmonth, hday⟩ := parseDate_ok h
  -- the text, piece by piece
  obtain ⟨ny, hny, h0 : b.drop 0 = ny ++ 45 :: b.drop 5⟩ := numeral_separated (by decide) hy hc
  obtain ⟨nm, hnm, h5 : b.drop 5 = nm ++ 45 :: b.drop 8⟩ := numeral_separated (by decide) hm hc'
  obtain ⟨nd, hnd, h8⟩ := numeral_text (by decide) hd
  rw [daysInMonth_eq _ hmonth] at hday
  refine ⟨⟨year, month, day, hmonth, by omega⟩, ny ++ 45 :: (nm ++ 45 :: nd), b.drop (8 + 2), ?_,
    ⟨ny, nm, nd, rfl, hny, hnm, hnd⟩, rfl, rfl, rfl⟩
  rw [List.drop_zero, h5, h8] at h0
  refine h0.trans ?_
  simp only [List.append_assoc, List.cons_append]

theorem parseDate_written (h : DateText a date) (rest : Bytes) :
    parseDate (date ++ rest) err = .ok (a.year, a.month, a.day) := by
  obtain ⟨ny, nm, nd, rfl, hny, hnm, hnd⟩ := h
  generalize hb : ny ++ 45 :: (nm ++ 45 :: nd) ++ rest = b
  have h0 : b.drop 0 = ny ++ 45 :: (nm ++ 45 :: (nd ++ rest)) := by
    rw [List.drop_zero, ← hb]
    simp only [List.append_assoc, List.cons_append]
  have h4 := drop_after h0 hny.length
  have h5 := drop_succ h4
  have h7 := drop_after h5 hnm.length
  have h8 := drop_succ h7
  have hy := (digits_iff (by decide)).2 ⟨ny, _, hny, h0⟩
  have hm := (digits_iff (by decide)).2 ⟨nm, _, hnm, h5⟩
  have hd := (digits_iff (by decide)).2 ⟨nd, _, hnd, h8⟩
  have hlen : ¬ b.length < 10 := by
    have hl := congrArg List.length h8
    rw [List.length_drop, List.length_append, hnd.length] at hl
    omega
  have hday := a.hday
  rw [← daysInMonth_eq _ a.hmonth] at hday
  have hrange : ¬ (a.day < 1 ∨ a.day > daysInMonth a.year a.month) := by omega
  unfold parseDate
  simp only [if_neg hlen, hy, hm, hd, index_of_drop h4, index_of_drop h7, okOr_some, ok_bind,
    a.hmonth, hrange, if_false, and_self, not_true_eq_false, ne_eq]

theorem ZoneText.first (h : ZoneText o zone) (hc : zone.head? = some c) :
    c = 90 ∨ c = 122 ∨ c = 43 ∨ c = 45 := by
  cases h with
  | none => cases hc
  | utc h =>
    cases hc
    exact h.imp_right .inl
  | offset hsign =>
    cases hc
    rcases hsign with ⟨rfl, -⟩ | ⟨rfl, -⟩
    · exact .inr (.inr (.inl rfl))
    · exact .inr (.inr (.inr rfl))

def afterFraction (b : Bytes) : Nat :=
  if b[19]? = some 46 then 20 + ((b.drop 20).takeWhile isAsciiDigit).length else 19

theorem afterFraction_text (hlen : 19 ≤ b.length) :
    afterFraction b ≤ b.length ∧
      ∃ f, FractionText f ∧ b.drop 19 = f ++ b.drop (afterFraction b) := by
  rw [afterFraction]
  split
  · rename_i hpoint
    obtain ⟨rest, hrest⟩ := getElem_iff.1 hpoint
    obtain ⟨hlt, -⟩ := List.getElem?_eq_some_iff.1 hpoint
    have hsplit := (List.takeWhile_append_dropWhile (p := isAsciiDigit) (l := b.drop 20)).symm
    have hfits := (List.takeWhile_prefix isAsciiDigit (l := b.drop 20)).length_le
    rw [List.length_drop] at hfits
    refine ⟨by omega, 46 :: (b.drop 20).takeWhile isAsciiDigit,
      .point fun c hc => List.mem_takeWhile_imp hc, ?_⟩
    rw [drop_after hsplit rfl, List.cons_append, ← hsplit, hrest, drop_succ hrest]
  · exact ⟨hlen, [], .none, rfl⟩

theorem parseClock_text (hlen : 10 ≤ b.length) (h : parseClock b err = .ok (time, pos)) :
    pos ≤ b.length ∧ ∃ clock, b.drop 10 = clock ++ b.drop pos ∧ ClockText time clock := by
  unfold parseClock at h
  split at h
  · cases h
    exact ⟨hlen, [], rfl, .none⟩
  rename_i sep hsep
  split at h
  · rename_i hsep'
    dsimp only at h
    obtain ⟨hlen', h⟩ := check_eq_ok h
    obtain ⟨hour, hhour, h⟩ := bind_eq_ok h
    obtain ⟨c, hc, h⟩ := bind_eq_ok h
    obtain ⟨hcolon, h⟩ := check_eq_ok h
    obtain ⟨minute, hminute, h⟩ := bind_eq_ok h
    obtain ⟨c', hc', h⟩ := bind_eq_ok h
    obtain ⟨hcolon', h⟩ := check_eq_ok h
    obtain ⟨second, hsecond, h⟩ := bind_eq_ok h
    obtain ⟨hrange, h⟩ := check_eq_ok h
    cases h
    rw [Decidable.not_not] at hcolon hcolon'
    subst hcolon
    subst hcolon'
    obtain ⟨r10, h10⟩ := getElem_iff.1 hsep
    obtain ⟨nh, hnh, h11 : b.drop 11 = nh ++ 58 :: b.drop 14⟩ :=
      numeral_separated (by decide) (okOr_eq_ok hhour) (index_eq_ok hc)
    obtain ⟨nm, hnm, h14 : b.drop 14 = nm ++ 58 :: b.drop 17⟩ :=
      numeral_separated (by decide) (okOr_eq_ok hminute) (index_eq_ok hc')
    obtain ⟨ns, hns, h17 : b.drop 17 = ns ++ b.drop 19⟩ :=
      numeral_text (by decide) (okOr_eq_ok hsecond)
    rw [← afterFraction]
    obtain ⟨hfits, f, hfraction, h19⟩ := afterFraction_text (Nat.not_lt.1 hlen')
    have hhour' := hnh.nonneg
    refine ⟨hfits, sep :: (nh ++ 58 :: (nm ++ 58 :: (ns ++ f))), ?_,
      .time hsep' hnh (by omega) hnm (by omega) hns (by omega) hfraction⟩
    rw [h10, ← drop_succ h10, h11, h14, h17, h19]
    simp only [List.append_assoc, List.cons_append]
  · cases h
    exact ⟨hlen, [], rfl, .none⟩

theorem afterFraction_written {b : Bytes} (hfraction : FractionText f) (hzone : ZoneText o zone)
    (hb : b.drop 19 = f ++ zone) : afterFraction b = 19 + f.length := by
  rw [afterFraction]
  cases hfraction with
  | none =>
    rw [if_neg]
    · rfl
    · intro h
      obtain ⟨rest, hrest⟩ := getElem_iff.1 h
      rw [List.nil_append] at hb
      have hfirst := hzone.first (by rw [← hb, hrest, List.head?_cons])
      exact absurd hfirst (by decide)
  | @point ds hds =>
    have hstop : zone.takeWhile isAsciiDigit = [] := by
      cases zone with
      | nil => rfl
      | cons c cs =>
        rw [List.takeWhile_cons_of_neg]
        rcases hzone.first rfl with rfl | rfl | rfl | rfl
        all_goals decide
    rw [List.cons_append] at hb
    rw [if_pos (getElem_iff.2 ⟨_, hb⟩), drop_succ hb, List.takeWhile_append_of_pos hds, hstop,
      List.append_nil, List.length_cons]
    omega

theorem parseClock_written (hclock : ClockText time clock) (hzone : ZoneText o zone)
    (hb : b.drop 10 = clock ++ zone) : parseClock b err = .ok (time, 10 + clock.length) := by
  unfold parseClock
  cases hclock with
  | none =>
    rw [List.nil_append] at hb
    split
    · rfl
    · rename_i c hc
      obtain ⟨rest, hrest⟩ := getElem_iff.1 hc
      rw [hb] at hrest
      have hfirst := hzone.first (by rw [hrest, List.head?_cons])
      rw [if_neg]
      · rfl
      · rcases hfirst with rfl | rfl | rfl | rfl
        all_goals decide
  | @time sep hour h minute m second s f hsep hhour hh hminute hm hsecond hs hfraction =>
    have h10 : b.drop 10 = sep :: (h ++ 58 :: (m ++ 58 :: (s ++ (f ++ zone)))) := by
      rw [hb]
      simp only [List.append_assoc, List.cons_append]
    have h11 := drop_succ h10
    have h13 := drop_after h11 hhour.length
    have h14 := drop_succ h13
    have h16 := drop_after h14 hminute.length
    have h17 := drop_succ h16
    have h19 : b.drop 19 = f ++ zone := drop_after h17 hsecond.length
    have hhour' := (digits_iff (by decide)).2 ⟨h, _, hhour, h11⟩
    have hminute' := (digits_iff (by decide)).2 ⟨m, _, hminute, h14⟩
    have hsecond' := (digits_iff (by decide)).2 ⟨s, _, hsecond, h17⟩
    have hlen : ¬ b.length < 19 := by
      have hl := congrArg List.length h17
      rw [List.length_drop, List.length_append, hsecond.length] at hl
      omega
    have hrange : ¬ (hour > 23 ∨ minute > 59 ∨ second > 59) := by omega
    have hpos : afterFraction b = 10 + (sep :: (h ++ 58 :: (m ++ 58 :: (s ++ f)))).length := by
      rw [afterFraction_written hfraction hzone h19]
      simp only [List.length_cons, List.length_append, hhour.length, hminute.length,
        hsecond.length]
      omega
    rw [afterFraction] at hpos
    simp only [getElem_iff.2 ⟨_, h10⟩, hsep, if_true, if_neg hlen, hhour', hminute', hsecond',
      index_of_drop h13, index_of_drop h16, okOr_some, ok_bind, hrange, if_false, hpos, ne_eq,
      not_true_eq_false]

def afterColon (b : Bytes) (pos : Nat) : Nat := if b[pos]? = some 58 then pos + 1 else pos

theorem afterColon_text (b : Bytes) (pos : Nat) :
    ∃ colon, (colon = [] ∨ colon = [58]) ∧ b.drop pos = colon ++ b.drop (afterColon b pos) := by
  rw [afterColon]
  split
  · rename_i h
    obtain ⟨rest, hrest⟩ := getElem_iff.1 h
    exact ⟨[58], .inr rfl, by rw [drop_succ hrest, hrest, List.singleton_append]⟩
  · exact ⟨[], .inl rfl, rfl⟩

theorem afterColon_written {b : Bytes} (hcolon : colon = [] ∨ colon = [58])
    (hm : Numeral (w + 1) n num) (hb : b.drop pos = colon ++ num) :
    afterColon b pos = pos + colon.length := by
  rcases hcolon with rfl | rfl
  · rw [afterColon, if_neg]
    · rfl
    · intro h
      obtain ⟨rest, hrest⟩ := getElem_iff.1 h
      rw [List.nil_append, hrest] at hb
      have hdigit := hm.digits 58 (by rw [← hb]; exact List.mem_cons_self)
      cases hdigit
  · rw [afterColon, if_pos (getElem_iff.2 ⟨num, hb⟩)]
    rfl

theorem parseZone_text (h : parseZone b pos err = .ok o) : ZoneText o (b.drop pos) := by
  unfold parseZone at h
  split at h
  · rename_i hend
    cases h
    rw [getElem_none hend]
    exact .none
  rename_i c hc
  obtain ⟨rest, hrest⟩ := getElem_iff.1 hc
  have hnext := drop_succ hrest
  split at h
  · rename_i hutc
    obtain ⟨hend, h⟩ := check_eq_ok h
    cases h
    rw [Decidable.not_not] at hend
    rw [hend, List.drop_length] at hnext
    rw [hrest, ← hnext]
    exact .utc hutc
  split at h
  · rename_i hsign
    dsimp only at h
    rw [← afterColon] at h
    obtain ⟨oh, hoh, h⟩ := bind_eq_ok h
    obtain ⟨om, hom, h⟩ := bind_eq_ok h
    obtain ⟨hrange, h⟩ := check_eq_ok h
    obtain ⟨hend, h⟩ := check_eq_ok h
    cases h
    rw [Decidable.not_not] at hend
    obtain ⟨nh, hnh, h1⟩ := numeral_text (by decide) (okOr_eq_ok hoh)
    obtain ⟨colon, hcolon, h3⟩ := afterColon_text b (pos + 1 + 2)
    obtain ⟨nm, hnm, h4⟩ := numeral_text (by decide) (okOr_eq_ok hom)
    rw [hend, List.drop_length, List.append_nil] at h4
    have htext : b.drop pos = c :: (nh ++ (colon ++ nm)) := by
      rw [hrest, ← hnext, h1, h3, h4]
    rw [htext]
    refine .offset ?_ hnh (by omega) hcolon hnm (by omega)
    rcases hsign with rfl | rfl
    · exact .inl ⟨rfl, rfl⟩
    · exact .inr ⟨rfl, rfl⟩
  · cases h

theorem parseZone_written (hpos : pos ≤ b.length) (h : ZoneText o (b.drop pos)) :
    parseZone b pos err = .ok o := by
  generalize hb : b.drop pos = zone at h
  unfold parseZone
  cases h with
  | none =>
    rw [List.getElem?_eq_none_iff.2 (List.drop_eq_nil_iff.1 hb)]
  | @utc c hc =>
    have hlen := congrArg List.length hb
    rw [List.length_drop, List.length_singleton] at hlen
    have hend : ¬ pos + 1 ≠ b.length := by omega
    simp only [getElem_iff.2 ⟨_, hb⟩, if_pos hc, if_neg hend]
  | @offset c sign oh h colon om m hsign hhour hh hcolon hminute hm =>
    have h1 := drop_succ hb
    have h3 := drop_after h1 hhour.length
    have h4 := drop_after h3 rfl
    have hq := afterColon_written hcolon hminute h3
    rw [← hq] at h4
    have hoh := (digits_iff (by decide)).2 ⟨h, _, hhour, h1⟩
    have hom := (digits_iff (by decide)).2 ⟨m, [], hminute, h4.trans (List.append_nil m).symm⟩
    have hrange : ¬ (oh > 23 ∨ om > 59) := by omega
    have hend : ¬ afterColon b (pos + 1 + 2) + 2 ≠ b.length := by
      have hlen := congrArg List.length h4
      rw [List.length_drop, hminute.length] at hlen
      omega
    have hutc : ¬ (c = 90 ∨ c = 122) := by
      rcases hsign with ⟨rfl, -⟩ | ⟨rfl, -⟩
      all_goals decide
    have hsigned : (c = 43 ∨ c = 45) ∧ (if c = 45 then -1 else 1) = sign := by
      rcases hsign with ⟨rfl, rfl⟩ | ⟨rfl, rfl⟩
      all_goals decide
    rw [afterColon] at hom hend
    simp only [getElem_iff.2 ⟨_, hb⟩, if_neg hutc, if_pos hsigned.1, hsigned.2, hoh, hom,
      okOr_some, ok_bind, if_neg hrange, if_neg hend]

theorem DateText.length (h : DateText a b) : b.length = 10 := by
  obtain ⟨ny, nm, nd, rfl, hy, hm, hd⟩ := h
  simp only [List.length_append, List.length_cons, hy.length, hm.length, hd.length]

theorem ClockText.bounds (h : ClockText n b) : 0 ≤ n ∧ n < 86400 := by
  cases h with
  | none => decide
  | time hsep hhour hh hminute hm hsecond hs hfraction =>
    have hhour' := hhour.nonneg
    have hminute' := hminute.nonneg
    have hsecond' := hsecond.nonneg
    omega

theorem ZoneText.bounds (h : ZoneText o b) : -86400 < o ∧ o < 86400 := by
  cases h with
  | none => decide
  | utc => decide
  | offset hsign hhour hh hcolon hminute hm =>
    have hhour' := hhour.nonneg
    have hminute' := hminute.nonneg
    rcases hsign with ⟨-, rfl⟩ | ⟨-, rfl⟩
    all_goals omega

/-- What a timestamp states fits an `i64`. -/
theorem TimeText.fits (h : TimeText secs b) : -2 ^ 63 ≤ secs ∧ secs < 2 ^ 63 := by
  obtain ⟨a, date, time, clock, o, zone, -, ⟨ny, nm, nd, -, hy, -, -⟩, hclock, hzone, rfl⟩ := h
  have hyear := hy.nonneg
  have hnumber := a.number_year
  have htime := hclock.bounds
  have hoffset := hzone.bounds
  simp only [yearDays] at hnumber
  omega

/-- A text is accepted exactly if it is written as a timestamp, for the instant it states. -/
theorem parse_written (s : String) (t : Timestamp) :
    Timestamp.parse s = .ok t ↔ TimeText t.secs (bytes s) := by
  rw [Timestamp.parse]
  generalize bytes s = b
  constructor
  · intro h
    obtain ⟨⟨year, month, day⟩, hdate, h⟩ := bind_eq_ok h
    obtain ⟨⟨time, pos⟩, hclock, h⟩ := bind_eq_ok h
    obtain ⟨o, hzone, h⟩ := bind_eq_ok h
    cases h
    obtain ⟨a, date, rest, hb, hwritten, rfl, rfl, rfl⟩ := parseDate_text hdate
    have hlen : 10 ≤ b.length := by
      rw [hb, List.length_append, hwritten.length]
      omega
    obtain ⟨hpos, clock, hdrop, htime⟩ := parseClock_text hlen hclock
    have hrest : b.drop 10 = rest := by rw [hb, List.drop_left' hwritten.length]
    exact ⟨a, date, time, clock, o, b.drop pos, by rw [← hdrop, hrest, hb], hwritten, htime,
      parseZone_text hzone, rfl⟩
  · rintro ⟨a, date, time, clock, o, zone, rfl, hwritten, htime, hoffset, hsecs⟩
    have hdrop : (date ++ (clock ++ zone)).drop 10 = clock ++ zone :=
      List.drop_left' hwritten.length
    have hlen : 10 + clock.length ≤ (date ++ (clock ++ zone)).length := by
      rw [List.length_append, List.length_append, hwritten.length]
      omega
    have hend : (date ++ (clock ++ zone)).drop (10 + clock.length) = zone := drop_after hdrop rfl
    simp only [parseDate_written hwritten (clock ++ zone),
      parseClock_written htime hoffset hdrop, parseZone_written hlen (hend ▸ hoffset), ok_bind]
    rw [← Date.number, ← hsecs]

theorem parse_fits (h : Timestamp.parse s = .ok t) : t.Fits := ((parse_written s t).1 h).fits

/-- A text is accepted exactly if it is written as a timestamp, and then the instant is the one
stated, within an `i64`; no text makes the parser read outside it. -/
theorem parse_iff_written : (∀ (s : String) (t : Timestamp),
      Timestamp.parse s = .ok t ↔ TimeText t.secs (bytes s)) ∧
    (∀ secs b, TimeText secs b → -2 ^ 63 ≤ secs ∧ secs < 2 ^ 63) ∧
    ∀ s : String, Returns (Timestamp.parse s) :=
  ⟨parse_written, fun _ _ h => h.fits, returns_parse⟩

end UnidppTrust
