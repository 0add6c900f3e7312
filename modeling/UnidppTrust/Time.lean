import UnidppTrust.Outcome
import UnidppTrust.Text
import UnidppTrust.Calendar
import Mathlib.Algebra.Ring.Int.Defs

namespace UnidppTrust
open Rust
set_option autoImplicit true

structure TimeParseError where
  input : String
  deriving DecidableEq

def TimeParseError.toString (e : TimeParseError) : String :=
  "invalid timestamp `" ++ e.input ++ "` (expected RFC 3339 UTC)"

structure Timestamp where
  secs : Int
  deriving DecidableEq, Repr

def isAsciiDigit (c : UInt8) : Bool := 48 ≤ c && c ≤ 57

def decimal (v : Int) : Bytes → Option Int
  | [] => some v
  | c :: cs => if isAsciiDigit c then decimal (v * 10 + (c.toNat - 48)) cs else none

def digits (b : Bytes) (pos len : Nat) : Option Int :=
  if pos + len > b.length then none else decimal 0 ((b.drop pos).take len)

/-- `parse` up to the day: the date, checked. -/
def parseDate (b : Bytes) (err : TimeParseError) : Outcome TimeParseError (Int × Int × Int) := do
  if b.length < 10 then fail err
  let year ← okOr (digits b 0 4) err
  if (← index b 4) ≠ 45 then fail err
  let month ← okOr (digits b 5 2) err
  if (← index b 7) ≠ 45 then fail err
  let day ← okOr (digits b 8 2) err
  if ¬ (1 ≤ month ∧ month ≤ 12) then fail err
  if day < 1 ∨ day > daysInMonth year month then fail err
  .ok (year, month, day)

/-- `parse` from byte 10 on: the seconds of the day, and where the zone starts. -/
def parseClock (b : Bytes) (err : TimeParseError) : Outcome TimeParseError (Int × Nat) :=
  match b[10]? with
  | none => .ok (0, 10)
  | some c =>
    if c = 84 ∨ c = 116 ∨ c = 32 then do
      if b.length < 19 then fail err
      let hour ← okOr (digits b 11 2) err
      if (← index b 13) ≠ 58 then fail err
      let min ← okOr (digits b 14 2) err
      if (← index b 16) ≠ 58 then fail err
      let sec ← okOr (digits b 17 2) err
      if hour > 23 ∨ min > 59 ∨ sec > 59 then fail err
      let pos :=
        if b[19]? = some 46 then 20 + ((b.drop 20).takeWhile isAsciiDigit).length else 19
      .ok (hour * 3600 + min * 60 + sec, pos)
    else .ok (0, 10)

/-- `parse` from `pos` on: the zone's offset in seconds. -/
def parseZone (b : Bytes) (pos : Nat) (err : TimeParseError) : Outcome TimeParseError Int :=
  match b[pos]? with
  | none => .ok 0
  | some c =>
    if c = 90 ∨ c = 122 then do
      if pos + 1 ≠ b.length then fail err
      .ok 0
    else if c = 43 ∨ c = 45 then do
      let sign : Int := if c = 45 then -1 else 1
      let pos := pos + 1
      let oh ← okOr (digits b pos 2) err
      let pos := pos + 2
      let pos := if b[pos]? = some 58 then pos + 1 else pos
      let om ← okOr (digits b pos 2) err
      let pos := pos + 2
      if oh > 23 ∨ om > 59 then fail err
      if pos ≠ b.length then fail err
      .ok (sign * (oh * 3600 + om * 60))
    else fail err

def Timestamp.parse (input : String) : Outcome TimeParseError Timestamp := do
  let b := bytes input
  let err := TimeParseError.mk input
  let (year, month, day) ← parseDate b err
  let (clock, pos) ← parseClock b err
  let offsetSecs ← parseZone b pos err
  .ok ⟨daysFromCivil year month day * 86400 + clock - offsetSecs⟩

/-- An integer formatted to a width with leading zeros; the sign counts. -/
def zeroPad (w : Nat) (n : Int) : List Char :=
  let ds := Nat.toDigits 10 n.natAbs
  let sign := if n < 0 then ['-'] else []
  sign ++ List.replicate (w - (sign.length + ds.length)) '0' ++ ds

def Timestamp.toString (t : Timestamp) : String :=
  let days := t.secs / 86400
  let rem := t.secs % 86400
  let (year, month, day) := civilFromDays days
  String.ofList (zeroPad 4 year ++ '-' :: zeroPad 2 month ++ '-' :: zeroPad 2 day ++
    'T' :: zeroPad 2 (rem / 3600) ++ ':' :: zeroPad 2 (rem % 3600 / 60) ++
    ':' :: zeroPad 2 (rem % 60) ++ ['Z'])

def Timestamp.InYears (t : Timestamp) : Prop :=
  let (year, _, _) := civilFromDays (t.secs / 86400)
  0 ≤ year ∧ year ≤ 9999

def Timestamp.Fits (t : Timestamp) : Prop := -2 ^ 63 ≤ t.secs ∧ t.secs < 2 ^ 63

theorem inYears_iff (t : Timestamp) :
    t.InYears ↔ -719528 ≤ t.secs / 86400 ∧ t.secs / 86400 ≤ 2932896 := by
  have hdate := civilFromDays_valid (t.secs / 86400)
  have hdays := daysFromCivil_civilFromDays (t.secs / 86400)
  simp only [Timestamp.InYears]
  generalize civilFromDays (t.secs / 86400) = date at hdate hdays ⊢
  obtain ⟨year, month, day⟩ := date
  obtain ⟨hm1, hm2, hd1, hd2⟩ := hdate
  have hd : 1 ≤ day ∧ day ≤ 31 := ⟨hd1, Int.le_trans hd2 (daysInMonth_le year month)⟩
  rw [(daysFromCivil_first ⟨hm1, hm2⟩ hd).1, (daysFromCivil_last ⟨hm1, hm2⟩ hd).1, hdays]

theorem Timestamp.InYears.fits {t : Timestamp} (h : t.InYears) : t.Fits := by
  obtain ⟨hlo, hhi⟩ := (inYears_iff t).1 h
  simp only [Timestamp.Fits]
  omega

theorem zeroPad_succ (h : 0 ≤ n) (w : Nat) :
    zeroPad (w + 2) n = zeroPad (w + 1) (n / 10) ++ [Nat.digitChar (n % 10).toNat] := by
  obtain ⟨n, rfl⟩ := Int.eq_ofNat_of_zero_le h
  have hneg : ¬ ((n : Int) < 0) := by omega
  have hneg' : ¬ ((n : Int) / 10 < 0) := by omega
  have hdiv : ((n : Int) / 10).natAbs = n / 10 := by omega
  have hmod : ((n : Int) % 10).toNat = n % 10 := by omega
  simp only [zeroPad, hneg, hneg', hdiv, hmod, if_false, Int.natAbs_natCast, List.length_nil,
    Nat.zero_add, List.nil_append]
  rcases Nat.lt_or_ge n 10 with hn | hn
  · have h0 : n / 10 = 0 := by omega
    have hm : n % 10 = n := by omega
    rw [h0, hm, Nat.toDigits_of_lt_base hn, Nat.toDigits_zero, List.append_left_inj]
    simp only [List.length_cons, List.length_nil, Nat.zero_add, Nat.add_sub_cancel]
    exact List.replicate_succ'
  · rw [Nat.toDigits_of_base_le (by omega) hn, List.length_append, ← List.append_assoc]
    simp only [List.length_cons, List.length_nil, Nat.zero_add]
    congr 3
    omega

theorem zeroPad_one (h : 0 ≤ n) (hn : n < 10) : zeroPad 1 n = [Nat.digitChar n.toNat] := by
  obtain ⟨n, rfl⟩ := Int.eq_ofNat_of_zero_le h
  have hneg : ¬ ((n : Int) < 0) := by omega
  simp only [zeroPad, hneg, if_false, Int.natAbs_natCast, Int.toNat_natCast,
    Nat.toDigits_of_lt_base (show n < 10 by omega)]
  rfl

def digitByte (n : Int) : UInt8 := UInt8.ofNat (48 + n.toNat)

theorem utf8_digit (h : 0 ≤ n) (hn : n < 10) :
    String.utf8EncodeChar (Nat.digitChar n.toNat) = [digitByte n] := by
  have hall : ∀ k : Fin 10,
      String.utf8EncodeChar (Nat.digitChar k.val) = [UInt8.ofNat (48 + k.val)] := by
    decide
  exact hall ⟨n.toNat, by omega⟩

theorem utf8_zeroPad_two (h : 0 ≤ n) (hn : n < 100) :
    utf8 (zeroPad 2 n) = [digitByte (n / 10), digitByte (n % 10)] := by
  rw [zeroPad_succ h 0, zeroPad_one (by omega) (by omega), utf8_append, utf8_cons, utf8_cons,
    utf8_digit (by omega) (by omega), utf8_digit (by omega) (by omega)]
  rfl

theorem utf8_zeroPad_four (h : 0 ≤ n) (hn : n < 10000) :
    utf8 (zeroPad 4 n) = [digitByte (n / 10 / 10 / 10), digitByte (n / 10 / 10 % 10),
      digitByte (n / 10 % 10), digitByte (n % 10)] := by
  rw [zeroPad_succ h 2, zeroPad_succ (by omega) 1, utf8_append, utf8_append,
    utf8_zeroPad_two (by omega) (by omega), utf8_cons, utf8_cons,
    utf8_digit (by omega) (by omega), utf8_digit (by omega) (by omega)]
  rfl

theorem decimal_digit (h : 0 ≤ n) (hn : n < 10) (v : Int) (cs : Bytes) :
    decimal v (digitByte n :: cs) = decimal (v * 10 + n) cs := by
  have hall : ∀ k : Fin 10, isAsciiDigit (UInt8.ofNat (48 + k.val)) = true ∧
      (UInt8.ofNat (48 + k.val)).toNat = 48 + k.val := by decide
  have hd : isAsciiDigit (digitByte n) = true := (hall ⟨n.toNat, by omega⟩).1
  have hv := (hall ⟨n.toNat, by omega⟩).2
  have hval : ((digitByte n).toNat : Int) - 48 = n := by
    simp only [digitByte, hv]
    omega
  rw [decimal, if_pos hd, hval]

theorem decimal_two (h : 0 ≤ n) (hn : n < 100) :
    decimal 0 [digitByte (n / 10), digitByte (n % 10)] = some n := by
  rw [decimal_digit (by omega) (by omega), decimal_digit (by omega) (by omega), decimal]
  congr 1
  omega

theorem decimal_four (h : 0 ≤ n) (hn : n < 10000) :
    decimal 0 [digitByte (n / 10 / 10 / 10), digitByte (n / 10 / 10 % 10),
      digitByte (n / 10 % 10), digitByte (n % 10)] = some n := by
  rw [decimal_digit (by omega) (by omega), decimal_digit (by omega) (by omega),
    decimal_digit (by omega) (by omega), decimal_digit (by omega) (by omega), decimal]
  congr 1
  omega

def stamp (year month day hour min sec : Int) : Bytes :=
  [digitByte (year / 10 / 10 / 10), digitByte (year / 10 / 10 % 10), digitByte (year / 10 % 10),
    digitByte (year % 10), 45, digitByte (month / 10), digitByte (month % 10), 45,
    digitByte (day / 10), digitByte (day % 10), 84, digitByte (hour / 10), digitByte (hour % 10),
    58, digitByte (min / 10), digitByte (min % 10), 58, digitByte (sec / 10), digitByte (sec % 10),
    90]

variable {year month day hour min sec : Int}

theorem parseDate_stamp (hy : 0 ≤ year ∧ year < 10000) (hm : 1 ≤ month ∧ month ≤ 12)
    (hd : 1 ≤ day ∧ day ≤ daysInMonth year month) (err : TimeParseError) :
    parseDate (stamp year month day hour min sec) err = .ok (year, month, day) := by
  have hday := daysInMonth_le year month
  have hyear : digits (stamp year month day hour min sec) 0 4 = some year :=
    decimal_four hy.1 hy.2
  have hmonth : digits (stamp year month day hour min sec) 5 2 = some month :=
    decimal_two (by omega) (by omega)
  have hdays : digits (stamp year month day hour min sec) 8 2 = some day :=
    decimal_two (by omega) (by omega)
  have hrange : ¬ (day < 1 ∨ day > daysInMonth year month) := by omega
  simp only [parseDate, hyear, hmonth, hdays, okOr_some, ok_bind, if_neg hrange, hm, and_self,
    not_true_eq_false, if_false]
  rfl

theorem parseClock_stamp (hh : 0 ≤ hour ∧ hour < 24) (hm : 0 ≤ min ∧ min < 60)
    (hs : 0 ≤ sec ∧ sec < 60) (err : TimeParseError) :
    parseClock (stamp year month day hour min sec) err =
      .ok (hour * 3600 + min * 60 + sec, 19) := by
  have hhour : digits (stamp year month day hour min sec) 11 2 = some hour :=
    decimal_two hh.1 (by omega)
  have hmin : digits (stamp year month day hour min sec) 14 2 = some min :=
    decimal_two hm.1 (by omega)
  have hsec : digits (stamp year month day hour min sec) 17 2 = some sec :=
    decimal_two hs.1 (by omega)
  have hrange : ¬ (hour > 23 ∨ min > 59 ∨ sec > 59) := by omega
  have hsep : (stamp year month day hour min sec)[10]? = some 84 := rfl
  simp only [parseClock, hsep, hhour, hmin, hsec, okOr_some, ok_bind, if_neg hrange]
  rfl

theorem bytes_stamp (hy : 0 ≤ year ∧ year < 10000) (hm : 1 ≤ month ∧ month ≤ 12)
    (hd : 1 ≤ day ∧ day ≤ 31) (hh : 0 ≤ hour ∧ hour < 24) (hmin : 0 ≤ min ∧ min < 60)
    (hs : 0 ≤ sec ∧ sec < 60) :
    bytes (String.ofList (zeroPad 4 year ++ '-' :: zeroPad 2 month ++ '-' :: zeroPad 2 day ++
      'T' :: zeroPad 2 hour ++ ':' :: zeroPad 2 min ++ ':' :: zeroPad 2 sec ++ ['Z'])) =
      stamp year month day hour min sec := by
  simp only [bytes, String.toList_ofList, utf8_append, utf8_cons, utf8_nil,
    utf8_zeroPad_four hy.1 hy.2, utf8_zeroPad_two (show 0 ≤ month by omega) (by omega),
    utf8_zeroPad_two (show 0 ≤ day by omega) (by omega), utf8_zeroPad_two hh.1 (by omega),
    utf8_zeroPad_two hmin.1 (by omega), utf8_zeroPad_two hs.1 (by omega)]
  rfl

theorem parse_stamp (hy : 0 ≤ year ∧ year < 10000) (hm : 1 ≤ month ∧ month ≤ 12)
    (hd : 1 ≤ day ∧ day ≤ daysInMonth year month) (hh : 0 ≤ hour ∧ hour < 24)
    (hmin : 0 ≤ min ∧ min < 60) (hs : 0 ≤ sec ∧ sec < 60)
    (hb : bytes s = stamp year month day hour min sec) :
    Timestamp.parse s =
      .ok ⟨daysFromCivil year month day * 86400 + (hour * 3600 + min * 60 + sec)⟩ := by
  have hzone (err : TimeParseError) :
      parseZone (stamp year month day hour min sec) 19 err = .ok 0 := rfl
  rw [Timestamp.parse, hb]
  simp only [parseDate_stamp hy hm hd, parseClock_stamp hh hmin hs, hzone, ok_bind,
    Int.sub_zero]

/-- Parsing undoes printing in the years 0000 to 9999. -/
theorem Timestamp.parse_toString (t : Timestamp) (h : t.InYears) :
    Timestamp.parse t.toString = .ok t := by
  have hdate := civilFromDays_valid (t.secs / 86400)
  have hdays := daysFromCivil_civilFromDays (t.secs / 86400)
  have hsecs : t.secs = t.secs / 86400 * 86400 + (t.secs % 86400 / 3600 * 3600 +
      t.secs % 86400 % 3600 / 60 * 60 + t.secs % 86400 % 60) := by omega
  have hhour : 0 ≤ t.secs % 86400 / 3600 ∧ t.secs % 86400 / 3600 < 24 := by omega
  have hmin : 0 ≤ t.secs % 86400 % 3600 / 60 ∧ t.secs % 86400 % 3600 / 60 < 60 := by omega
  have hsec : 0 ≤ t.secs % 86400 % 60 ∧ t.secs % 86400 % 60 < 60 := by omega
  simp only [Timestamp.InYears] at h
  simp only [Timestamp.toString]
  generalize civilFromDays (t.secs / 86400) = date at h hdate hdays ⊢
  generalize t.secs % 86400 / 3600 = hour at hsecs hhour ⊢
  generalize t.secs % 86400 % 3600 / 60 = min at hsecs hmin ⊢
  generalize t.secs % 86400 % 60 = sec at hsecs hsec ⊢
  obtain ⟨year, month, day⟩ := date
  obtain ⟨hm1, hm2, hd1, hd2⟩ := hdate
  have hd31 : day ≤ 31 := Int.le_trans hd2 (daysInMonth_le year month)
  have hy : 0 ≤ year ∧ year < 10000 := by omega
  rw [parse_stamp hy ⟨hm1, hm2⟩ ⟨hd1, hd2⟩ hhour hmin hsec
    (bytes_stamp hy ⟨hm1, hm2⟩ ⟨hd1, hd31⟩ hhour hmin hsec), hdays, ← hsecs]

theorem decimal_bounds (hv : 0 ≤ v) (h : decimal v cs = some n) :
    0 ≤ n ∧ n < (v + 1) * 10 ^ cs.length := by
  induction cs generalizing v with
  | nil =>
    cases h
    simp only [List.length_nil, Int.pow_zero]
    omega
  | cons c cs ih =>
    rw [decimal] at h
    split at h
    · rename_i hc
      have hd : 48 ≤ c.toNat ∧ c.toNat ≤ 57 := by
        simpa [isAsciiDigit, UInt8.le_iff_toNat_le] using hc
      obtain ⟨hn, hlt⟩ := ih (by omega) h
      refine ⟨hn, Int.lt_of_lt_of_le hlt ?_⟩
      rw [List.length_cons, Int.pow_succ, Int.mul_comm (10 ^ cs.length), ← Int.mul_assoc]
      exact Int.mul_le_mul_of_nonneg_right (by omega) (Int.pow_nonneg (by omega))
    · cases h

theorem parseDate_ok (h : parseDate b err = .ok (year, month, day)) :
    digits b 0 4 = some year ∧ b[4]? = some 45 ∧ digits b 5 2 = some month ∧ b[7]? = some 45 ∧
      digits b 8 2 = some day ∧ (1 ≤ month ∧ month ≤ 12) ∧
      (1 ≤ day ∧ day ≤ daysInMonth year month) := by
  unfold parseDate at h
  dsimp only at h
  obtain ⟨-, h⟩ := check_eq_ok h
  obtain ⟨y, hy, h⟩ := bind_eq_ok h
  obtain ⟨c, hc, h⟩ := bind_eq_ok h
  obtain ⟨hdash, h⟩ := check_eq_ok h
  obtain ⟨m, hm, h⟩ := bind_eq_ok h
  obtain ⟨c', hc', h⟩ := bind_eq_ok h
  obtain ⟨hdash', h⟩ := check_eq_ok h
  obtain ⟨d, hd, h⟩ := bind_eq_ok h
  obtain ⟨hmonth, h⟩ := check_eq_ok h
  obtain ⟨hday, h⟩ := check_eq_ok h
  cases h
  rw [Decidable.not_not] at hmonth hdash hdash'
  subst hdash
  subst hdash'
  exact ⟨okOr_eq_ok hy, index_eq_ok hc, okOr_eq_ok hm, index_eq_ok hc', okOr_eq_ok hd, hmonth,
    by omega⟩

theorem returns_parseDate (b : Bytes) (err : TimeParseError) : Returns (parseDate b err) := by
  unfold parseDate
  dsimp only
  apply Returns.check
  intro hlen
  apply (returns_okOr _ _).bind
  intro year _
  apply (returns_index (by omega)).bind
  intro c _
  apply Returns.check
  intro _
  apply (returns_okOr _ _).bind
  intro month _
  apply (returns_index (by omega)).bind
  intro d _
  apply Returns.check
  intro _
  apply (returns_okOr _ _).bind
  intro day _
  apply Returns.check
  intro _
  apply Returns.check
  intro _
  exact returns_ok _

theorem returns_parseClock (b : Bytes) (err : TimeParseError) : Returns (parseClock b err) := by
  unfold parseClock
  split
  · exact returns_ok _
  · dsimp only
    split
    · apply Returns.check
      intro hlen
      apply (returns_okOr _ _).bind
      intro hour _
      apply (returns_index (by omega)).bind
      intro c _
      apply Returns.check
      intro _
      apply (returns_okOr _ _).bind
      intro min _
      apply (returns_index (by omega)).bind
      intro d _
      apply Returns.check
      intro _
      apply (returns_okOr _ _).bind
      intro sec _
      apply Returns.check
      intro _
      exact returns_ok _
    · exact returns_ok _

theorem returns_parseZone (b : Bytes) (pos : Nat) (err : TimeParseError) :
    Returns (parseZone b pos err) := by
  unfold parseZone
  split
  · exact returns_ok _
  · dsimp only
    split
    · apply Returns.check
      intro _
      exact returns_ok _
    split
    · apply (returns_okOr _ _).bind
      intro oh _
      apply (returns_okOr _ _).bind
      intro om _
      apply Returns.check
      intro _
      apply Returns.check
      intro _
      exact returns_ok _
    · exact returns_fail err

/-- Parsing a timestamp does not abort. -/
theorem returns_parse (s : String) : Returns (Timestamp.parse s) := by
  rw [Timestamp.parse]
  apply (returns_parseDate _ _).bind
  rintro ⟨year, month, day⟩ _
  apply (returns_parseClock _ _).bind
  rintro ⟨clock, pos⟩ _
  apply (returns_parseZone _ _ _).bind
  intro offset _
  exact returns_ok _

end UnidppTrust
