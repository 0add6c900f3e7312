import UnidppTrust.Httpc
import Mathlib.Data.Nat.Digits.Defs

namespace UnidppTrust
open Rust
set_option autoImplicit true

structure HexDigit where
  value : Fin 16
  upper : Bool

def HexDigit.char (d : HexDigit) : Char :=
  if d.upper then (Nat.digitChar d.value).toUpper else Nat.digitChar d.value

def spelledNumber (digits : List HexDigit) : Nat :=
  Nat.ofDigits 16 (digits.reverse.map fun d => d.value.val)

/-- A text that gives a size: hexadecimal digits, with a plus sign before them or none, between
whitespace, and after a semicolon anything. -/
def SizeText (size : Nat) (text : List Char) : Prop :=
  ∃ (before plus : List Char) (digits : List HexDigit) (after extension : List Char),
    text = before ++ (plus ++ digits.map HexDigit.char) ++ after ++ extension ∧
    (∀ c ∈ before, isWhitespace c) ∧ (∀ c ∈ after, isWhitespace c) ∧
    (plus = [] ∨ plus = ['+']) ∧ digits ≠ [] ∧ spelledNumber digits = size ∧
    (extension = [] ∨ ∃ cs, extension = ';' :: cs)

def SizeHeader (size : Nat) (line : Bytes) : Prop :=
  ¬ crlf <:+: line ∧ ∃ text, line = utf8 text ∧ SizeText size text

/-- A chunk with all its bytes: the line that gives its size, so many bytes and at least one, and
two more, whatever they are. -/
def WholeChunk (chunk : Bytes) : Prop :=
  ∃ (size : Nat) (line data trailer : Bytes), chunk = line ++ crlf ++ data ++ trailer ∧
    SizeHeader size line ∧ data.length = size ∧ size ≠ 0 ∧ trailer.length = 2

/-- After whole chunks comes the line of one whose data would end beyond 64 bits. -/
def Overflowing (raw : Bytes) : Prop :=
  ∃ (chunks : List Bytes) (size : Nat) (line rest : Bytes), (∀ c ∈ chunks, WholeChunk c) ∧
    raw = chunks.flatten ++ line ++ crlf ++ rest ∧ SizeHeader size line ∧ size < 2 ^ 64 ∧
    2 ^ 64 ≤ chunks.flatten.length + line.length + 2 + size

variable {checks : Bool} {raw : Bytes}

theorem toDigit_char (d : HexDigit) : toDigit d.char = some d.value.val := by
  obtain ⟨value, upper⟩ := d
  revert value upper
  decide

theorem HexDigit.plain (d : HexDigit) :
    d.char ≠ '+' ∧ d.char ≠ ';' ∧ (d.char ≠ '\r' ∧ d.char ≠ '\n') ∧
      isWhitespace d.char = false := by
  obtain ⟨value, upper⟩ := d
  revert value upper
  decide

theorem spelledNumber_cons (d : HexDigit) (ds : List HexDigit) :
    spelledNumber (d :: ds) = d.value.val * 16 ^ ds.length + spelledNumber ds := by
  rw [spelledNumber, List.reverse_cons, List.map_append, Nat.ofDigits_append, List.length_map,
    List.length_reverse, List.map_singleton, Nat.ofDigits_singleton, Nat.add_comm, Nat.mul_comm]
  rfl

theorem hexValue_digits (n : Nat) (ds : List HexDigit) :
    hexValue n (ds.map HexDigit.char) = some (n * 16 ^ ds.length + spelledNumber ds) := by
  induction ds generalizing n with
  | nil => rw [List.map_nil, hexValue, List.length_nil, Nat.pow_zero, Nat.mul_one]; rfl
  | cons d ds ih =>
    rw [List.map_cons, hexValue, toDigit_char, Option.bind_some, ih, spelledNumber_cons,
      List.length_cons, Nat.pow_succ]
    congr 1
    ring

theorem withoutPlus_digits (ds : List HexDigit) :
    withoutPlus (ds.map HexDigit.char) = ds.map HexDigit.char := by
  cases ds with
  | nil => rfl
  | cons d ds =>
    rw [List.map_cons, withoutPlus]
    intro cs h
    obtain ⟨hplus, -⟩ := d.plain
    exact hplus (List.cons.inj h).1

theorem char_of_toDigit (h : toDigit c = some n) : ∃ d : HexDigit, c = d.char := by
  have hdigits : ∀ n < 128, (toDigit (Char.ofNat n)).isSome →
      ∃ value : Fin 16, ∃ upper, Char.ofNat n = HexDigit.char ⟨value, upper⟩ := by
    decide +kernel
  have hle (a b : Char) (hab : a ≤ b) : a.toNat ≤ b.toNat := hab
  have hascii : c.toNat < 128 := by
    unfold toDigit at h
    split at h
    · rename_i hc
      exact Nat.lt_of_le_of_lt (hle _ _ hc.2) (by decide)
    split at h
    · rename_i hc
      exact Nat.lt_of_le_of_lt (hle _ _ hc.2) (by decide)
    split at h
    · rename_i hc
      exact Nat.lt_of_le_of_lt (hle _ _ hc.2) (by decide)
    · cases h
  have hc := hdigits c.toNat hascii
  rw [Char.ofNat_toNat] at hc
  obtain ⟨value, upper, hd⟩ := hc (Option.isSome_iff_exists.2 ⟨n, h⟩)
  exact ⟨⟨value, upper⟩, hd⟩

theorem digits_of_hexValue (h : hexValue n cs = some m) :
    ∃ ds : List HexDigit, cs = ds.map HexDigit.char := by
  induction cs generalizing n with
  | nil => exact ⟨[], rfl⟩
  | cons c cs ih =>
    obtain ⟨i, hi, hcs⟩ := Option.bind_eq_some_iff.1 h
    obtain ⟨d, rfl⟩ := char_of_toDigit hi
    obtain ⟨ds, rfl⟩ := ih hcs
    exact ⟨d :: ds, rfl⟩

theorem withoutPlus_sign (cs : List Char) : ∃ plus, (plus = [] ∨ plus = ['+']) ∧
    cs = plus ++ withoutPlus cs := by
  unfold withoutPlus
  split
  · exact ⟨['+'], .inr rfl, rfl⟩
  · exact ⟨[], .inl rfl, rfl⟩

theorem usizeFromHex_iff : usizeFromHex (String.ofList cs) = some size ↔
    (∃ (plus : List Char) (digits : List HexDigit), cs = plus ++ digits.map HexDigit.char ∧
      (plus = [] ∨ plus = ['+']) ∧ digits ≠ [] ∧ spelledNumber digits = size) ∧
    size < 2 ^ 64 := by
  have hvalue (ds : List HexDigit) : hexValue 0 (ds.map HexDigit.char) =
      some (spelledNumber ds) := by
    rw [hexValue_digits, Nat.zero_mul, Nat.zero_add]
  rw [usizeFromHex, String.toList_ofList]
  constructor
  · intro h
    obtain ⟨plus, hplus, hcs⟩ := withoutPlus_sign cs
    rcases Decidable.em (withoutPlus cs = []) with hnil | hne
    · rw [hnil] at h
      cases h
    rw [if_neg (by rwa [List.isEmpty_iff])] at h
    obtain ⟨hn, hsize⟩ := Option.filter_eq_some_iff.1 h
    obtain ⟨ds, hds⟩ := digits_of_hexValue hn
    rw [hds, hvalue, Option.some.injEq] at hn
    rw [hds] at hcs hne
    have hdigits : ds ≠ [] := fun hnil => hne (by rw [hnil, List.map_nil])
    exact ⟨⟨plus, ds, hcs, hplus, hdigits, hn⟩, of_decide_eq_true hsize⟩
  · rintro ⟨⟨plus, ds, rfl, hplus, hne, rfl⟩, hsize⟩
    have hdigits : withoutPlus (plus ++ ds.map HexDigit.char) = ds.map HexDigit.char := by
      rcases hplus with rfl | rfl
      · exact withoutPlus_digits ds
      · rfl
    have hsome : ¬ (ds.map HexDigit.char).isEmpty = true := by
      rwa [List.isEmpty_iff, List.map_eq_nil_iff]
    rw [hdigits, if_neg hsome, hvalue, Option.filter_some, if_pos (decide_eq_true hsize)]

theorem afterSemicolon (cs : List Char) : cs.dropWhile (fun c => c ≠ ';') = [] ∨
    ∃ rest, cs.dropWhile (fun c => c ≠ ';') = ';' :: rest := by
  cases hext : cs.dropWhile (fun c => c ≠ ';') with
  | nil => exact .inl rfl
  | cons c rest =>
    have hc := List.head?_dropWhile_not (fun c => decide (c ≠ ';')) cs
    rw [hext] at hc
    have : c = ';' := by simpa using hc
    exact .inr ⟨rest, by rw [this]⟩

theorem beforeSemicolon_text {cs extension : List Char} (h : ∀ c ∈ cs, c ≠ ';')
    (hext : extension = [] ∨ ∃ rest, extension = ';' :: rest) :
    beforeSemicolon (String.ofList (cs ++ extension)) = String.ofList cs := by
  have hno : ∀ c ∈ cs, decide (c ≠ ';') = true := fun c hc => decide_eq_true (h c hc)
  have hnone : extension.takeWhile (fun c => decide (c ≠ ';')) = [] := by
    rcases hext with rfl | ⟨rest, rfl⟩
    · rfl
    · rfl
  rw [beforeSemicolon, String.toList_ofList, List.takeWhile_append_of_pos hno, hnone,
    List.append_nil]

theorem signedDigits_plain {plus : List Char} (hplus : plus = [] ∨ plus = ['+'])
    (digits : List HexDigit) : ∀ c ∈ plus ++ digits.map HexDigit.char,
      c ≠ ';' ∧ isWhitespace c = false := by
  intro c hc
  rcases List.mem_append.1 hc with hc | hc
  · rcases hplus with rfl | rfl
    · cases hc
    · rw [List.mem_singleton.1 hc]
      decide
  · obtain ⟨d, -, rfl⟩ := List.mem_map.1 hc
    obtain ⟨-, hsemicolon, -, hblank⟩ := d.plain
    exact ⟨hsemicolon, hblank⟩

/-- The line that gives a size, read back. -/
theorem declaredSize_iff {line : Bytes} : declaredSize line = .ok size ↔
    (∃ text, line = utf8 text ∧ SizeText size text) ∧ size < 2 ^ 64 := by
  constructor
  · intro h
    obtain ⟨s, hs, h⟩ := bind_eq_ok h
    have hline := bytes_of_fromUtf8 (okOr_eq_ok hs)
    obtain ⟨⟨plus, digits, hdigits, hplus, hne, hspelled⟩, hsize⟩ :=
      usizeFromHex_iff.1 (okOr_eq_ok h)
    rw [beforeSemicolon, String.toList_ofList] at hdigits
    obtain ⟨before, after, hsplit, hbefore, hafter⟩ :=
      trimChars_split (s.toList.takeWhile fun c => c ≠ ';')
    refine ⟨⟨s.toList, hline.symm, before, plus, digits, after,
      s.toList.dropWhile (fun c => c ≠ ';'), ?_, hbefore, hafter, hplus, hne, hspelled,
      afterSemicolon s.toList⟩, hsize⟩
    rw [← hdigits, ← hsplit, List.takeWhile_append_dropWhile]
  · rintro ⟨⟨text, rfl, before, plus, digits, after, extension, rfl, hbefore, hafter, hplus, hne,
      hspelled, hext⟩, hsize⟩
    have hinner := signedDigits_plain hplus digits
    have hblank (c : Char) (hc : isWhitespace c = true) : c ≠ ';' := by
      rintro rfl
      exact absurd hc (by decide)
    have hno : ∀ c ∈ before ++ (plus ++ digits.map HexDigit.char) ++ after, c ≠ ';' := by
      intro c hc
      rcases List.mem_append.1 hc with hc | hc
      · rcases List.mem_append.1 hc with hc | hc
        · exact hblank c (hbefore c hc)
        · exact (hinner c hc).1
      · exact hblank c (hafter c hc)
    have hread : fromUtf8 (utf8 (before ++ (plus ++ digits.map HexDigit.char) ++ after ++
        extension)) = some (String.ofList (before ++ (plus ++ digits.map HexDigit.char) ++ after ++
        extension)) := by
      rw [← fromUtf8_bytes, bytes, String.toList_ofList]
    have htrim : trim (String.ofList (before ++ (plus ++ digits.map HexDigit.char) ++ after)) =
        String.ofList (plus ++ digits.map HexDigit.char) := by
      rw [trim, String.toList_ofList, trimChars_around hbefore hafter fun c hc => (hinner c hc).2]
    have hnumber := usizeFromHex_iff.2 ⟨⟨plus, digits, rfl, hplus, hne, hspelled⟩, hsize⟩
    rw [declaredSize, hread, okOr_some, ok_bind]
    dsimp only
    rw [beforeSemicolon_text hno hext, htrim, hnumber, okOr_some]

theorem findSubslice_line {line : Bytes} (h : ¬ crlf <:+: line) (rest : Bytes) :
    findSubslice crlf (line ++ crlf ++ rest) = some line.length := by
  induction line with
  | nil => rfl
  | cons b bs ih =>
    have hb : ¬ crlf.isPrefixOf (b :: (bs ++ crlf ++ rest)) = true := by
      rw [List.isPrefixOf_iff_prefix]
      intro hp
      cases bs with
      | nil =>
        -- the needle would begin within itself
        have hnext := (List.cons_prefix_cons.1 hp).2
        exact absurd (List.cons_prefix_cons.1 hnext).1 (by decide)
      | cons b' bs =>
        obtain ⟨rfl, hnext⟩ := List.cons_prefix_cons.1 hp
        obtain ⟨rfl, -⟩ := List.cons_prefix_cons.1 hnext
        exact h (List.prefix_append crlf bs).isInfix
    rw [List.cons_append, List.cons_append, findSubslice, if_neg hb,
      ih fun hin => h (hin.trans (List.suffix_cons b bs).isInfix)]
    rfl

theorem findSubslice_crlf_iff {b : Bytes} : findSubslice crlf b = some i ↔
    ∃ line rest, b = line ++ crlf ++ rest ∧ ¬ crlf <:+: line ∧ line.length = i := by
  constructor
  · intro h
    induction b generalizing i with
    | nil => cases h
    | cons x xs ih =>
      rw [findSubslice] at h
      split at h
      · rename_i hp
        obtain ⟨rest, hrest⟩ := List.isPrefixOf_iff_prefix.1 hp
        refine ⟨[], rest, hrest.symm, fun hin => ?_, Option.some.inj h⟩
        exact absurd (List.infix_nil.1 hin) (by decide)
      · rename_i hp
        rw [List.isPrefixOf_iff_prefix] at hp
        obtain ⟨j, hj, rfl⟩ := Option.map_eq_some_iff.1 h
        obtain ⟨line, rest, rfl, hline, rfl⟩ := ih hj
        refine ⟨x :: line, rest, rfl, fun hin => ?_, rfl⟩
        rcases List.infix_cons_iff.1 hin with hfirst | hlater
        · rw [List.append_assoc] at hp
          exact hp (hfirst.trans (List.prefix_append (x :: line) _))
        · exact hline hlater
  · rintro ⟨line, rest, rfl, hline, rfl⟩
    exact findSubslice_line hline rest

theorem header_iff : Header raw pos start size ↔
    ∃ line rest, raw.drop pos = line ++ crlf ++ rest ∧ SizeHeader size line ∧ size < 2 ^ 64 ∧
      start = pos + line.length + 2 := by
  constructor
  · rintro ⟨i, hi, hsize, rfl⟩
    obtain ⟨line, rest, hdrop, hline, rfl⟩ := findSubslice_crlf_iff.1 hi
    rw [hdrop, List.append_assoc, List.take_left] at hsize
    obtain ⟨htext, hlt⟩ := declaredSize_iff.1 hsize
    exact ⟨line, rest, hdrop, ⟨hline, htext⟩, hlt, rfl⟩
  · rintro ⟨line, rest, hdrop, ⟨hline, htext⟩, hlt, rfl⟩
    refine ⟨line.length, ?_, ?_, rfl⟩
    · rw [hdrop]
      exact findSubslice_line hline rest
    · rw [hdrop, List.append_assoc, List.take_left]
      exact declaredSize_iff.2 ⟨htext, hlt⟩

theorem follows_iff (hraw : raw.length < 2 ^ 63) (hpos : pos ≤ raw.length) :
    Follows raw pos next ↔
      ∃ chunk rest, raw.drop pos = chunk ++ rest ∧ WholeChunk chunk ∧
        next = pos + chunk.length := by
  have htwo : crlf.length = 2 := rfl
  constructor
  · rintro ⟨start, size, hheader, hne, rfl, hle⟩
    obtain ⟨line, rest, hdrop, hline, hlt, rfl⟩ := header_iff.1 hheader
    have hlen := congrArg List.length hdrop
    rw [List.length_drop, List.length_append, List.length_append, htwo] at hlen
    refine ⟨line ++ crlf ++ rest.take size ++ (rest.drop size).take 2, rest.drop (size + 2), ?_,
      ⟨size, line, rest.take size, (rest.drop size).take 2, rfl, hline, ?_, hne, ?_⟩, ?_⟩
    · rw [hdrop, List.append_assoc _ _ (rest.drop (size + 2)), ← List.drop_drop,
        List.take_append_drop, List.append_assoc _ (rest.take size), List.take_append_drop]
    · rw [List.length_take]
      omega
    · rw [List.length_take, List.length_drop]
      omega
    · rw [List.length_append, List.length_append, List.length_append, List.length_take,
        List.length_take, List.length_drop, htwo]
      omega
  · rintro ⟨chunk, rest, hdrop, ⟨size, line, data, trailer, rfl, hline, hdata, hne, htrailer⟩, rfl⟩
    have hlen := congrArg List.length hdrop
    rw [List.length_drop, List.length_append, List.length_append, List.length_append,
      List.length_append, htwo, hdata, htrailer] at hlen
    refine ⟨_, size, header_iff.2 ⟨line, data ++ trailer ++ rest, ?_, hline, by omega, rfl⟩, hne,
      ?_, ?_⟩
    · rw [hdrop, List.append_assoc _ trailer rest, List.append_assoc _ data,
        ← List.append_assoc data]
    · rw [List.length_append, List.length_append, List.length_append, htwo, hdata, htrailer]
      omega
    · rw [List.length_append, List.length_append, List.length_append, htwo, hdata, htrailer]
      omega

open Relation in
/-- The loop has come to a position if the bytes before it are whole chunks. -/
theorem reached_iff (hraw : raw.length < 2 ^ 63) : ReflTransGen (Follows raw) 0 pos ↔
    ∃ (chunks : List Bytes) (rest : Bytes), (∀ c ∈ chunks, WholeChunk c) ∧
      raw = chunks.flatten ++ rest ∧ pos = chunks.flatten.length := by
  constructor
  · intro h
    induction h with
    | refl => exact ⟨[], raw, fun c hc => (List.not_mem_nil hc).elim, rfl, rfl⟩
    | tail _ hfollows ih =>
      obtain ⟨chunks, rest, hchunks, hsplit, rfl⟩ := ih
      have hpos : chunks.flatten.length ≤ raw.length := by
        rw [hsplit, List.length_append]
        omega
      obtain ⟨chunk, rest', hdrop, hchunk, rfl⟩ := (follows_iff hraw hpos).1 hfollows
      rw [hsplit, List.drop_left] at hdrop
      refine ⟨chunks ++ [chunk], rest', ?_, ?_, ?_⟩
      · rintro c hc
        rcases List.mem_append.1 hc with hc | hc
        · exact hchunks c hc
        · rwa [List.mem_singleton.1 hc]
      · rw [List.flatten_append, List.flatten_singleton, List.append_assoc, ← hdrop, hsplit]
      · rw [List.flatten_append, List.flatten_singleton, List.length_append]
  · rintro ⟨chunks, rest, hchunks, hsplit, rfl⟩
    induction chunks using List.reverseRecOn generalizing rest with
    | nil => exact .refl
    | append_singleton chunks chunk ih =>
      rw [List.flatten_append, List.flatten_singleton, List.append_assoc] at hsplit
      have hbefore := ih (chunk ++ rest) (fun c hc => hchunks c (List.mem_append_left _ hc)) hsplit
      have hpos : chunks.flatten.length ≤ raw.length := by
        rw [hsplit, List.length_append]
        omega
      refine hbefore.tail ((follows_iff hraw hpos).2 ⟨chunk, rest, ?_,
        hchunks chunk (List.mem_append_right _ List.mem_cons_self), ?_⟩)
      · rw [hsplit, List.drop_left]
      · rw [List.flatten_append, List.flatten_singleton, List.length_append]

/-- The decoder returns, in either build, exactly if whole chunks do not lead to the line of one
whose end 64 bits do not hold. -/
theorem decode_returns_iff (checks : Bool) (raw : Slice) :
    Returns (decodeChunkedBody checks raw) ↔ ¬ Overflowing raw.1 := by
  apply not_congr
  rw [decodeChunkedBody, decodeFrom_abort raw (Nat.zero_le _)]
  constructor
  · rintro ⟨pos, hreach, start, size, hheader, hover⟩
    obtain ⟨chunks, rest, hchunks, hsplit, rfl⟩ := (reached_iff raw.2).1 hreach
    obtain ⟨line, rest', hdrop, hline, hlt, rfl⟩ := header_iff.1 hheader
    rw [hsplit, List.drop_left] at hdrop
    refine ⟨chunks, size, line, rest', hchunks, ?_, hline, hlt, hover⟩
    rw [hsplit, hdrop, List.append_assoc, List.append_assoc, List.append_assoc]
  · rintro ⟨chunks, size, line, rest, hchunks, hsplit, hline, hlt, hover⟩
    rw [List.append_assoc, List.append_assoc] at hsplit
    refine ⟨_, (reached_iff raw.2).2 ⟨chunks, _, hchunks, hsplit, rfl⟩, _, size,
      header_iff.2 ⟨line, rest, ?_, hline, hlt, rfl⟩, hover⟩
    rw [hsplit, List.drop_left, List.append_assoc]

def greatest : Slice := ⟨List.replicate 16 102 ++ crlf, by decide⟩

/-- Either build aborts on it. -/
theorem decode_aborts : decodeChunkedBody true greatest = abort ∧
    decodeChunkedBody false greatest = abort := by
  have hheader : Header greatest.1 0 18 (2 ^ 64 - 1) := ⟨16, by decide, by decide +kernel, rfl⟩
  have haborts (checks : Bool) : decodeChunkedBody checks greatest = abort :=
    (decodeFrom_abort greatest (Nat.zero_le _) []).2
      ⟨0, .refl, 18, 2 ^ 64 - 1, hheader, by decide⟩
  exact ⟨haborts true, haborts false⟩

end UnidppTrust
