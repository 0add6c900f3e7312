import UnidppTrust.Run
import UnidppTrust.Reference

namespace UnidppTrust
open Rust Json LineLog Gregorian
set_option autoImplicit true

theorem parse_fields (h : Timestamp.parse s = .ok t) :
    ∃ year month day clock pos offset,
      parseDate (bytes s) ⟨s⟩ = .ok (year, month, day) ∧
      parseClock (bytes s) ⟨s⟩ = .ok (clock, pos) ∧ parseZone (bytes s) pos ⟨s⟩ = .ok offset ∧
      t.secs = daysFromCivil year month day * 86400 + clock - offset := by
  rw [Timestamp.parse] at h
  obtain ⟨⟨year, month, day⟩, hdate, h⟩ := bind_eq_ok h
  obtain ⟨⟨clock, pos⟩, hclock, h⟩ := bind_eq_ok h
  obtain ⟨offset, hzone, h⟩ := bind_eq_ok h
  cases h
  exact ⟨year, month, day, clock, pos, offset, hdate, hclock, hzone, rfl⟩

theorem digits_first (h : digits b 0 4 = some n) : ∃ c cs, b = c :: cs ∧ isAsciiDigit c = true := by
  unfold digits at h
  split at h
  · cases h
  · rename_i hlen
    cases b with
    | nil =>
      exact (hlen (by decide)).elim
    | cons c cs =>
      refine ⟨c, cs, rfl, ?_⟩
      simp only [List.drop_zero, List.take_succ_cons, decimal] at h
      split at h
      · assumption
      · cases h

theorem zeroPad_neg (h : n < 0) (w : Nat) : ∃ cs, zeroPad w n = '-' :: cs := by
  simp only [zeroPad, if_pos h]
  exact ⟨_, rfl⟩

theorem isDigit_zeroPad (h : 0 ≤ n) (w : Nat) : ∀ c ∈ zeroPad w n, c.isDigit = true := by
  have hneg : ¬ n < 0 := by omega
  simp only [zeroPad, if_neg hneg, List.nil_append]
  intro c hc
  rcases List.mem_append.1 hc with hc | hc
  · rw [(List.mem_replicate.1 hc).2]
    rfl
  · exact Nat.isDigit_of_mem_toDigits (by decide) (by decide) hc

theorem length_zeroPad (h : 9999 < n) (w : Nat) : 4 < (zeroPad w n).length := by
  have hneg : ¬ n < 0 := by omega
  have hlen : ¬ (Nat.toDigits 10 n.natAbs).length ≤ 4 := by
    rw [Nat.length_toDigits_le_iff (by decide) (by decide)]
    omega
  simp only [zeroPad, if_neg hneg, List.length_append]
  omega

theorem utf8_isDigit (h : c.isDigit = true) :
    ∃ d, String.utf8EncodeChar c = [d] ∧ isAsciiDigit d = true := by
  have hc : 48 ≤ c.toNat ∧ c.toNat ≤ 57 := by
    simpa [Char.isDigit, Char.le_def, UInt32.le_iff_toNat_le] using h
  have hn : (UInt8.ofNat c.toNat).toNat = c.toNat := by
    rw [UInt8.toNat_ofNat']
    omega
  refine ⟨UInt8.ofNat c.toNat, utf8EncodeChar_ascii (by omega), ?_⟩
  simp only [isAsciiDigit, Bool.and_eq_true, decide_eq_true_eq, UInt8.le_iff_toNat_le, hn]
  exact hc

theorem utf8_digits (h : ∀ c ∈ cs, c.isDigit = true) (hi : i < cs.length) (rest : List Char) :
    ∃ d, (utf8 (cs ++ rest))[i]? = some d ∧ isAsciiDigit d = true := by
  induction cs generalizing i with
  | nil => cases hi
  | cons c cs ih =>
    obtain ⟨d, hd, hdigit⟩ := utf8_isDigit (h c List.mem_cons_self)
    rw [List.cons_append, utf8_cons, hd, List.singleton_append]
    cases i with
    | zero => exact ⟨d, rfl, hdigit⟩
    | succ i =>
      rw [List.length_cons, Nat.add_lt_add_iff_right] at hi
      exact ih (fun x hx => h x (List.mem_cons_of_mem c hx)) hi

/-- A printed instant is read back only if it falls in the years 0000 to 9999. -/
theorem inYears_of_parse {t t' : Timestamp} (h : Timestamp.parse t.toString = .ok t') :
    t.InYears := by
  obtain ⟨y, m, d, clock, pos, offset, hdate, -⟩ := parse_fields h
  obtain ⟨hyear, hdash, -⟩ := parseDate_ok hdate
  simp only [Timestamp.InYears]
  revert hyear hdash
  simp only [Timestamp.toString, bytes, String.toList_ofList, List.append_assoc]
  generalize civilFromDays (t.secs / 86400) = date
  obtain ⟨year, month, day⟩ := date
  intro hyear hdash
  dsimp only at hyear hdash ⊢
  constructor
  · by_contra hneg
    obtain ⟨cs, hcs⟩ := zeroPad_neg (show year < 0 by omega) 4
    rw [hcs, List.cons_append, utf8_cons] at hyear
    obtain ⟨c, cs', hc, hdigit⟩ := digits_first hyear
    cases hc
    cases hdigit
  · by_contra hbig
    obtain ⟨d, hd, hdigit⟩ := utf8_digits (isDigit_zeroPad (show 0 ≤ year by omega) 4)
      (length_zeroPad (show 9999 < year by omega) 4) _
    rw [hd] at hdash
    cases hdash
    cases hdigit

/-- On the first day of the years 0000 to 9999, or on their last, the offset carries the time of day
over their end. -/
def LeavesYears (s : String) : Prop :=
  ∃ (a : Date) (date clock zone : Bytes) (time o : Int), bytes s = date ++ (clock ++ zone) ∧
    DateText a date ∧ ClockText time clock ∧ ZoneText o zone ∧
    (a.year = 0 ∧ a.month = 1 ∧ a.day = 1 ∧ time < o ∨
      a.year = 9999 ∧ a.month = 12 ∧ a.day = 31 ∧ 86400 ≤ time - o)

theorem LeavesYears.secs (h : LeavesYears s) (hparse : Timestamp.parse s = .ok t) :
    t.secs / 86400 < -719528 ∨ 2932896 < t.secs / 86400 := by
  obtain ⟨a, date, clock, zone, time, o, hs, hdate, hclock, hzone, hleaves⟩ := h
  have hsecs : Timestamp.parse s = .ok ⟨a.number * 86400 + time - o⟩ :=
    (parse_written s _).2 ⟨a, date, time, clock, o, zone, hs, hdate, hclock, hzone, rfl⟩
  rw [hparse] at hsecs
  rw [Except.ok.inj hsecs]
  have htime := hclock.bounds
  dsimp only
  rcases hleaves with ⟨hy, hm, hd, hlt⟩ | ⟨hy, hm, hd, hle⟩
  · have hday : a.number = -719528 := by
      rw [Date.number, hy, hm, hd]
      rfl
    omega
  · have hday : a.number = 2932896 := by
      rw [Date.number, hy, hm, hd]
      rfl
    omega

theorem inYears_iff_stays (h : Timestamp.parse s = .ok t) : t.InYears ↔ ¬ LeavesYears s := by
  rw [inYears_iff]
  constructor
  · intro hin hleaves
    have hout := hleaves.secs h
    omega
  · intro hstays
    obtain ⟨a, date, time, clock, o, zone, hs, hdate, hclock, hzone, hsecs⟩ :=
      (parse_written s t).1 h
    obtain ⟨ny, nm, nd, -, hyear, -, -⟩ := id hdate
    have hy := hyear.nonneg
    have htime := hclock.bounds
    have ho := hzone.bounds
    have hday : 1 ≤ a.day ∧ a.day ≤ 31 := by
      have hd := a.hday
      rw [← daysInMonth_eq _ a.hmonth] at hd
      exact ⟨hd.1, Int.le_trans hd.2 (daysInMonth_le _ _)⟩
    obtain ⟨hfirst, hfirst'⟩ := daysFromCivil_first (y := a.year) a.hmonth hday
    obtain ⟨hlast, hlast'⟩ := daysFromCivil_last (y := a.year) a.hmonth hday
    rw [← Date.number] at hfirst hfirst' hlast hlast'
    have hlo := hfirst.1 hy.1
    have hhi := hlast.1 (by omega)
    constructor
    · by_contra hlow
      obtain ⟨hy0, hm1, hd1⟩ := hfirst' hy.1 (by omega)
      exact hstays ⟨a, date, clock, zone, time, o, hs, hdate, hclock, hzone,
        .inl ⟨hy0, hm1, hd1, by omega⟩⟩
    · by_contra hhigh
      obtain ⟨hy9, hm12, hd31⟩ := hlast' (by omega) (by omega)
      exact hstays ⟨a, date, clock, zone, time, o, hs, hdate, hclock, hzone,
        .inr ⟨hy9, hm12, hd31, by omega⟩⟩

theorem parse_toString_iff (t : Timestamp) : Timestamp.parse t.toString = .ok t ↔ t.InYears :=
  ⟨inYears_of_parse, Timestamp.parse_toString t⟩

variable {V : Vocabulary} {S : Signatif V} {C : Crates V}

theorem tsParse_stampStr_iff (hS : S.Lawful P) {t : Timestamp} (ht : t.Fits) :
    (∃ x, tsParse S (stampStr S (S.timeFromSecs t.secs)) = .ok x) ↔ t.InYears := by
  constructor
  · rintro ⟨x, hx⟩
    rw [tsParse, stampStr, hS.timeSecs t ht] at hx
    obtain ⟨u, hu, -⟩ := bind_eq_ok hx
    exact inYears_of_parse (mapErr_eq_ok hu)
  · intro h
    exact ⟨_, tsParse_stampStr hS ⟨t, h, rfl⟩⟩

theorem trustEntryFromJson_clock (h : trustEntryFromJson S
    ((Op.upsertTrustEntry jurisdiction node notBefore supersededAt).body S) = .ok op) :
    (∃ x, tsParse S (stampStr S notBefore) = .ok x) ∧
      ∀ t ∈ supersededAt, ∃ x, tsParse S (stampStr S t) = .ok x := by
  rw [trustEntryFromJson] at h
  obtain ⟨obj, hobj, h⟩ := bind_eq_ok h
  rw [Op.body, objectOf_object] at hobj
  cases hobj
  obtain ⟨j, -, h⟩ := bind_eq_ok h
  obtain ⟨n, -, h⟩ := bind_eq_ok h
  obtain ⟨id, -, h⟩ := bind_eq_ok h
  obtain ⟨first, hfirst, h⟩ := bind_eq_ok h
  obtain ⟨x, hx, h⟩ := bind_eq_ok h
  rw [strField_fieldsOf] at hfirst
  have hstamp : stampStr S notBefore = first := by
    simpa [lookup_cons_ite] using hfirst
  refine ⟨⟨x, by rw [hstamp]; exact hx⟩, fun t ht => ?_⟩
  cases ht
  rw [lookup_fieldsOf] at h
  simp only [Option.map_some, Value.ofOption, List.reverse_cons, List.reverse_nil, List.nil_append,
    List.cons_append, lookup_cons_ite, if_pos, Option.bind_some, asStr_str] at h
  obtain ⟨y, hy, -⟩ := bind_eq_ok h
  exact ⟨y, hy⟩

theorem reads_iff (hC : C.Lawful) {r : AuditRecord V} (ht : OnClock C.signatif r.recordedAt) :
    (journalFormat C).Reads r ↔
      opFromJson C.signatif r.op.name (r.op.body C.signatif) = .ok r.op := by
  rw [Format.Reads, journal_read, readLine_record hC, record_fromJson,
    tsParse_stampStr hC.signatif ht, inField_ok, ok_bind]
  cases opFromJson C.signatif r.op.name (r.op.body C.signatif) with
  | ok op =>
    rw [ok_bind]
    constructor
    · intro h
      cases r
      cases h
      rfl
    · intro h
      cases h
      rfl
  | error e =>
    cases e with
    | err e =>
      constructor
      · intro h; cases h
      · intro h; cases h
    | abort =>
      constructor
      · intro h; cases h
      · intro h; cases h

/-- The record of an entry is read back exactly if its instants are. -/
theorem upsert_reads_iff (hC : C.Lawful) {at_ : V.Time} (hat : OnClock C.signatif at_)
    (seq : UInt64) (jurisdiction : String) (node : V.NodeId) {notBefore : Timestamp}
    {supersededAt : Option Timestamp} (hfits : notBefore.Fits ∧ ∀ t ∈ supersededAt, t.Fits) :
    (journalFormat C).Reads ⟨seq, at_, .upsertTrustEntry jurisdiction node
      (C.signatif.timeFromSecs notBefore.secs)
      (supersededAt.map fun t => C.signatif.timeFromSecs t.secs)⟩ ↔
    notBefore.InYears ∧ ∀ t ∈ supersededAt, t.InYears := by
  have hS := hC.signatif
  rw [reads_iff hC hat]
  constructor
  · intro h
    obtain ⟨hfirst, hlast⟩ := trustEntryFromJson_clock h
    refine ⟨(tsParse_stampStr_iff hS hfits.1).1 hfirst, fun t ht => ?_⟩
    exact (tsParse_stampStr_iff hS (hfits.2 t ht)).1 (hlast _ (Option.mem_map_of_mem _ ht))
  · rintro ⟨hfirst, hlast⟩
    apply op_round_trip hS
    refine ⟨⟨notBefore, hfirst, rfl⟩, fun t ht => ?_⟩
    obtain ⟨u, hu, rfl⟩ := Option.map_eq_some_iff.1 ht
    exact ⟨u, hlast u hu, rfl⟩

/-- The printed form of an accepted instant is accepted for that instant, and the records of entries
with accepted instants are read back, exactly if the offset does not carry the time of day over an
end of the years. -/
theorem canonical_closed_iff (hC : C.Lawful) (h : Timestamp.parse s = .ok t) :
    (Timestamp.parse t.toString = .ok t ↔ ¬ LeavesYears s) ∧
    ∀ (seq : UInt64) (at_ : V.Time) (jurisdiction : String) (node : V.NodeId)
      (superseded : Option (String × Timestamp)), OnClock C.signatif at_ →
      (∀ x ∈ superseded, Timestamp.parse x.1 = .ok x.2) →
      ((journalFormat C).Reads ⟨seq, at_, .upsertTrustEntry jurisdiction node
          (C.signatif.timeFromSecs t.secs)
          (superseded.map fun x => C.signatif.timeFromSecs x.2.secs)⟩ ↔
        ¬ LeavesYears s ∧ ∀ x ∈ superseded, ¬ LeavesYears x.1) := by
  constructor
  · rw [parse_toString_iff, inYears_iff_stays h]
  · intro seq at_ jurisdiction node superseded hat hparsed
    have hmap : (superseded.map fun x => C.signatif.timeFromSecs x.2.secs) =
        (superseded.map (·.2)).map fun t => C.signatif.timeFromSecs t.secs := by
      rw [Option.map_map]
      rfl
    have hfits : ∀ u ∈ superseded.map (·.2), u.Fits := by
      intro u hu
      obtain ⟨x, hx, rfl⟩ := Option.map_eq_some_iff.1 hu
      exact parse_fits (hparsed x hx)
    rw [hmap, upsert_reads_iff hC hat seq jurisdiction node ⟨parse_fits h, hfits⟩,
      inYears_iff_stays h]
    constructor
    · rintro ⟨hfirst, hlast⟩
      refine ⟨hfirst, fun x hx => ?_⟩
      exact (inYears_iff_stays (hparsed x hx)).1 (hlast x.2 (Option.mem_map_of_mem _ hx))
    · rintro ⟨hfirst, hlast⟩
      refine ⟨hfirst, fun u hu => ?_⟩
      obtain ⟨x, hx, rfl⟩ := Option.map_eq_some_iff.1 hu
      exact (inYears_iff_stays (hparsed x hx)).2 (hlast x hx)

open Reference in
theorem canonical_closed_offset :
    (Timestamp.parse (Timestamp.mk 82800).toString = .ok ⟨82800⟩ ↔
      ¬ LeavesYears "1970-01-02T00:00:00+01:00") ∧
    ∀ (seq : UInt64) (at_ : Int) (jurisdiction node : String)
      (superseded : Option (String × Timestamp)), OnClock crates.signatif at_ →
      (∀ x ∈ superseded, Timestamp.parse x.1 = .ok x.2) →
      ((journalFormat crates).Reads ⟨seq, at_, .upsertTrustEntry jurisdiction node 82800
          (superseded.map fun x => x.2.secs)⟩ ↔
        ¬ LeavesYears "1970-01-02T00:00:00+01:00" ∧ ∀ x ∈ superseded, ¬ LeavesYears x.1) :=
  canonical_closed_iff crates_lawful (t := ⟨82800⟩) (by decide +kernel)

open Reference in
/-- A first minute east of Greenwich is printed in the year -1, which is not read, and the entry
that begins with it is not read back. -/
theorem canonical_unread :
    Timestamp.parse "0000-01-01T00:00:00+00:01" = .ok ⟨-62167219260⟩ ∧
    (∀ u, Timestamp.parse (Timestamp.mk (-62167219260)).toString ≠ .ok u) ∧
    ¬ (journalFormat crates).Reads
      ⟨1, 43200, .upsertTrustEntry "EU" "node-a" (-62167219260) none⟩ := by
  have hyears : ¬ (Timestamp.mk (-62167219260)).InYears := by
    rw [Timestamp.InYears]
    decide +kernel
  refine ⟨by decide +kernel, fun u hu => hyears (inYears_of_parse hu), fun hreads => ?_⟩
  have hnoon : OnClock crates.signatif 43200 := ⟨⟨43200⟩, (noon_inYears 0).1, rfl⟩
  have hfits : (Timestamp.mk (-62167219260)).Fits ∧ ∀ t ∈ (none : Option Timestamp), t.Fits :=
    ⟨⟨by decide, by decide⟩, fun t ht => by cases ht⟩
  exact hyears ((upsert_reads_iff crates_lawful hnoon 1 "EU" "node-a" hfits).1 hreads).1

end UnidppTrust
