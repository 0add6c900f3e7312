import UnidppTrust.Outcome
import UnidppTrust.Text

namespace UnidppTrust
open Rust
set_option autoImplicit true

def hexEncode (b : Bytes) : String :=
  String.ofList (b.flatMap fun x => [Nat.digitChar (x.toNat / 16), Nat.digitChar (x.toNat % 16)])

def hexNibble (b : UInt8) : Outcome String UInt8 :=
  if 48 ≤ b ∧ b ≤ 57 then .ok (b - 48)
  else if 97 ≤ b ∧ b ≤ 102 then .ok (b - 97 + 10)
  else if 65 ≤ b ∧ b ≤ 70 then .ok (b - 65 + 10)
  else fail ("not a hex digit `" ++ String.singleton (Char.ofNat b.toNat) ++ "`")

/-- The loop of `hex_decode`; the second index of a pair aborts out of range. -/
def hexPairs : Bytes → Outcome String Bytes
  | [] => .ok []
  | [b] => do
    let _ ← hexNibble b
    abort
  | b :: c :: bs => do
    let hi ← hexNibble b
    let lo ← hexNibble c
    let out ← hexPairs bs
    .ok (((hi <<< 4) ||| lo) :: out)

def hexDecode (s : String) : Outcome String Bytes :=
  let trimmed := trim s
  let body := ((stripPrefix trimmed "0x").or (stripPrefix trimmed "0X")).getD trimmed
  let b := bytes body
  if b.length % 2 ≠ 0 then fail ("hex string of odd length `" ++ toString b.length ++ "`")
  else hexPairs b

theorem digitChar_lt (n : Fin 16) :
    isWhitespace n.val.digitChar = false ∧ n.val.digitChar ≠ 'x' ∧ n.val.digitChar ≠ 'X' ∧
      (hexNibble (UInt8.ofNat n.val.digitChar.toNat) = .ok (UInt8.ofNat n.val)) ∧
      String.utf8EncodeChar n.val.digitChar = [UInt8.ofNat n.val.digitChar.toNat] := by
  revert n; decide

theorem hexNibble_digitChar (h : n < 16) :
    hexNibble (UInt8.ofNat n.digitChar.toNat) = .ok (UInt8.ofNat n) :=
  (digitChar_lt ⟨n, h⟩).2.2.2.1

theorem utf8_digitChar (h : n < 16) :
    String.utf8EncodeChar n.digitChar = [UInt8.ofNat n.digitChar.toNat] :=
  (digitChar_lt ⟨n, h⟩).2.2.2.2

theorem nibbles (x : UInt8) :
    (UInt8.ofNat (x.toNat / 16) <<< 4) ||| UInt8.ofNat (x.toNat % 16) = x := by
  have hall : ∀ hi lo : Fin 16, (UInt8.ofNat hi.val <<< 4) ||| UInt8.ofNat lo.val =
      UInt8.ofNat (16 * hi.val + lo.val) := by decide
  have hx := x.toNat_lt
  have h := hall ⟨x.toNat / 16, by omega⟩ ⟨x.toNat % 16, by omega⟩
  rw [Nat.div_add_mod, UInt8.ofNat_toNat] at h
  exact h

theorem bytes_hexEncode (b : Bytes) : bytes (hexEncode b) = b.flatMap fun x =>
    [UInt8.ofNat (x.toNat / 16).digitChar.toNat, UInt8.ofNat (x.toNat % 16).digitChar.toNat] := by
  rw [bytes, hexEncode, String.toList_ofList]
  induction b with
  | nil => rfl
  | cons x b ih =>
    have hx := x.toNat_lt
    rw [List.flatMap_cons, utf8_append, ih, utf8_cons, utf8_cons,
      utf8_digitChar (by omega), utf8_digitChar (by omega)]
    rfl

theorem hexPairs_encoded (b : Bytes) : hexPairs (b.flatMap fun x =>
    [UInt8.ofNat (x.toNat / 16).digitChar.toNat, UInt8.ofNat (x.toNat % 16).digitChar.toNat]) =
      .ok b := by
  induction b with
  | nil => rfl
  | cons x b ih =>
    have hx := x.toNat_lt
    simp only [List.flatMap_cons, List.cons_append, List.nil_append, hexPairs, ih,
      hexNibble_digitChar (show x.toNat / 16 < 16 by omega),
      hexNibble_digitChar (show x.toNat % 16 < 16 by omega), ok_bind, nibbles]

theorem mem_hexEncode (h : c ∈ (hexEncode b).toList) :
    isWhitespace c = false ∧ c ≠ 'x' ∧ c ≠ 'X' := by
  rw [hexEncode, String.toList_ofList, List.mem_flatMap] at h
  obtain ⟨x, -, h⟩ := h
  have hx := x.toNat_lt
  simp only [List.mem_cons, List.not_mem_nil, or_false] at h
  rcases h with rfl | rfl
  · obtain ⟨hw, hl, hu, -⟩ := digitChar_lt ⟨x.toNat / 16, by omega⟩
    exact ⟨hw, hl, hu⟩
  · obtain ⟨hw, hl, hu, -⟩ := digitChar_lt ⟨x.toNat % 16, by omega⟩
    exact ⟨hw, hl, hu⟩

theorem stripPrefix_hexEncode (hx : x = 'x' ∨ x = 'X') (b : Bytes) :
    stripPrefix (hexEncode b) (String.ofList ['0', x]) = none := by
  rw [stripPrefix, if_neg]
  intro h
  rw [startsWith, List.isPrefixOf_iff_prefix, String.toList_ofList] at h
  have hm := mem_hexEncode (h.subset (List.mem_cons_of_mem _ List.mem_cons_self))
  rcases hx with rfl | rfl
  · exact hm.2.1 rfl
  · exact hm.2.2 rfl

theorem hexDecode_hexEncode (b : Bytes) : hexDecode (hexEncode b) = .ok b := by
  have htrim : trim (hexEncode b) = hexEncode b := trim_eq fun c hc => (mem_hexEncode hc).1
  have heven : ¬ (bytes (hexEncode b)).length % 2 ≠ 0 := by
    rw [not_not, bytes_hexEncode, List.length_flatMap]
    simp
  have hl : stripPrefix (hexEncode b) "0x" = none := stripPrefix_hexEncode (.inl rfl) b
  have hu : stripPrefix (hexEncode b) "0X" = none := stripPrefix_hexEncode (.inr rfl) b
  simp only [hexDecode, htrim, hl, hu, Option.or_none, Option.getD_none, if_neg heven]
  rw [bytes_hexEncode, hexPairs_encoded]

theorem returns_hexNibble (b : UInt8) : Returns (hexNibble b) := by
  unfold hexNibble
  split
  · exact returns_ok _
  split
  · exact returns_ok _
  split
  · exact returns_ok _
  · exact returns_fail _

theorem returns_hexPairs (h : b.length % 2 = 0) : Returns (hexPairs b) := by
  fun_induction hexPairs b with
  | case1 => exact returns_ok _
  | case2 b => cases h
  | case3 b c bs ih =>
    have hlen : bs.length % 2 = 0 := by
      simp only [List.length_cons] at h
      omega
    refine (returns_hexNibble b).bind fun _ _ => (returns_hexNibble c).bind fun _ _ => ?_
    exact (ih hlen).bind fun _ _ => returns_ok _

theorem returns_hexDecode (s : String) : Returns (hexDecode s) := by
  simp only [hexDecode]
  split
  · exact returns_fail _
  · rename_i h
    exact returns_hexPairs (by omega)

theorem length_hexEncode (b : Bytes) : (hexEncode b).length = 2 * b.length := by
  rw [hexEncode, String.length_ofList]
  induction b with
  | nil => rfl
  | cons x b ih =>
    rw [List.flatMap_cons, List.length_append, ih, List.length_cons]
    simp only [List.length_cons, List.length_nil]
    omega

def isHexDigit (c : Char) : Bool :=
  c.isDigit || ('a' ≤ c && c ≤ 'f') || ('A' ≤ c && c ≤ 'F')

theorem isHexDigit_ofNat : ∀ n : Fin 256, isHexDigit (Char.ofNat n.val) = true ↔
    (48 ≤ n.val ∧ n.val ≤ 57) ∨ (97 ≤ n.val ∧ n.val ≤ 102) ∨ (65 ≤ n.val ∧ n.val ≤ 70) := by
  decide +kernel

theorem isHexDigit_byte (b : UInt8) : isHexDigit (Char.ofNat b.toNat) = true ↔
    (48 ≤ b ∧ b ≤ 57) ∨ (97 ≤ b ∧ b ≤ 102) ∨ (65 ≤ b ∧ b ≤ 70) :=
  isHexDigit_ofNat ⟨b.toNat, b.toNat_lt⟩

theorem hexNibble_digit (h : isHexDigit (Char.ofNat b.toNat) = true) :
    ∃ v : Fin 16, hexNibble b = .ok (UInt8.ofNat v.val) ∧
      v.val.digitChar = (Char.ofNat b.toNat).toLower := by
  have hall : ∀ n : Fin 256, isHexDigit (Char.ofNat n.val) = true →
      ∃ v : Fin 16, hexNibble (UInt8.ofNat n.val) = .ok (UInt8.ofNat v.val) ∧
        v.val.digitChar = (Char.ofNat n.val).toLower := by
    decide +kernel
  have hb := hall ⟨b.toNat, b.toNat_lt⟩ h
  rwa [UInt8.ofNat_toNat] at hb

theorem hexNibble_ok (h : hexNibble b = .ok v) : isHexDigit (Char.ofNat b.toNat) = true := by
  rw [isHexDigit_byte]
  unfold hexNibble at h
  split at h
  · rename_i hd
    exact .inl hd
  split at h
  · rename_i hd
    exact .inr (.inl hd)
  split at h
  · rename_i hd
    exact .inr (.inr hd)
  · cases h

theorem joined_nibbles : ∀ hi lo : Fin 16,
    ((UInt8.ofNat hi.val <<< 4) ||| UInt8.ofNat lo.val).toNat = 16 * hi.val + lo.val := by
  decide

theorem hexPairs_digits (heven : b.length % 2 = 0)
    (h : ∀ x ∈ b, isHexDigit (Char.ofNat x.toNat) = true) :
    ∃ out, hexPairs b = .ok out ∧
      (hexEncode out).toList = b.map fun x => (Char.ofNat x.toNat).toLower := by
  fun_induction hexPairs b with
  | case1 => exact ⟨[], rfl, rfl⟩
  | case2 b => cases heven
  | case3 b c bs ih =>
    obtain ⟨hb, hc, hbs⟩ : isHexDigit (Char.ofNat b.toNat) = true ∧
        isHexDigit (Char.ofNat c.toNat) = true ∧
        ∀ x ∈ bs, isHexDigit (Char.ofNat x.toNat) = true := by
      simpa only [List.forall_mem_cons] using h
    obtain ⟨hi, hhi, hhi'⟩ := hexNibble_digit hb
    obtain ⟨lo, hlo, hlo'⟩ := hexNibble_digit hc
    obtain ⟨out, hout, hprint⟩ := ih (by simp only [List.length_cons] at heven; omega) hbs
    rw [hhi, hlo, hout]
    refine ⟨_, rfl, ?_⟩
    have hjoin := joined_nibbles hi lo
    have hquot : (16 * hi.val + lo.val) / 16 = hi.val := by omega
    have hrem : (16 * hi.val + lo.val) % 16 = lo.val := by omega
    rw [hexEncode, String.toList_ofList] at hprint ⊢
    rw [List.flatMap_cons, hprint, hjoin, hquot, hrem, hhi', hlo']
    rfl

theorem hexPairs_ok (h : hexPairs b = .ok out) :
    b.length % 2 = 0 ∧ ∀ x ∈ b, isHexDigit (Char.ofNat x.toNat) = true := by
  fun_induction hexPairs b generalizing out with
  | case1 =>
    refine ⟨rfl, fun x hx => ?_⟩
    cases hx
  | case2 b =>
    obtain ⟨v, -, h⟩ := bind_eq_ok h
    cases h
  | case3 b c bs ih =>
    obtain ⟨hi, hhi, h⟩ := bind_eq_ok h
    obtain ⟨lo, hlo, h⟩ := bind_eq_ok h
    obtain ⟨rest, hrest, -⟩ := bind_eq_ok h
    obtain ⟨heven, hbs⟩ := ih hrest
    rw [List.length_cons, List.length_cons, List.forall_mem_cons, List.forall_mem_cons]
    exact ⟨by omega, hexNibble_ok hhi, hexNibble_ok hlo, hbs⟩

def hexText (s : String) : List Char :=
  match (trim s).toList with
  | '0' :: 'x' :: cs => cs
  | '0' :: 'X' :: cs => cs
  | cs => cs

theorem hexText_eq (s : String) :
    ((stripPrefix (trim s) "0x").or (stripPrefix (trim s) "0X")).getD (trim s) =
      String.ofList (hexText s) := by
  unfold hexText
  split
  · rename_i cs hcs
    rw [stripPrefix, stripPrefix, startsWith, startsWith, hcs]
    rfl
  · rename_i cs hcs
    rw [stripPrefix, stripPrefix, startsWith, startsWith, hcs]
    rfl
  · rename_i hl hu
    have hnone (x : Char) (hx : ∀ cs, (trim s).toList = '0' :: x :: cs → False) :
        stripPrefix (trim s) (String.ofList ['0', x]) = none := by
      rw [stripPrefix, if_neg]
      intro h
      rw [startsWith, List.isPrefixOf_iff_prefix, String.toList_ofList] at h
      obtain ⟨cs, hcs⟩ := h
      exact hx cs hcs.symm
    have hlower : stripPrefix (trim s) "0x" = none := hnone 'x' hl
    have hupper : stripPrefix (trim s) "0X" = none := hnone 'X' hu
    rw [hlower, hupper, Option.or_none, Option.getD_none, String.ofList_toList]

theorem hexDecode_hexText (s : String) : hexDecode s =
    if (utf8 (hexText s)).length % 2 ≠ 0 then
      fail ("hex string of odd length `" ++ toString (utf8 (hexText s)).length ++ "`")
    else hexPairs (utf8 (hexText s)) := by
  simp only [hexDecode, hexText_eq, bytes, String.toList_ofList]

theorem ascii_hexDigit (h : isHexDigit c = true) : c.toNat < 128 := by
  have hv : c.val.toNat = c.toNat := rfl
  simp only [isHexDigit, Char.isDigit, Bool.or_eq_true, Bool.and_eq_true, decide_eq_true_eq,
    Char.le_def, UInt32.le_iff_toNat_le, hv] at h
  have h9 : '9'.val.toNat = 57 := rfl
  have hf : 'f'.val.toNat = 102 := rfl
  have hF : 'F'.val.toNat = 70 := rfl
  omega

theorem utf8_hexDigits (h : ∀ c ∈ cs, c.toNat < 128) :
    ((∀ b ∈ utf8 cs, isHexDigit (Char.ofNat b.toNat) = true) ↔ ∀ c ∈ cs, isHexDigit c = true) ∧
      (utf8 cs).map (fun b => (Char.ofNat b.toNat).toLower) = cs.map Char.toLower := by
  have hbyte : ∀ c ∈ cs, Char.ofNat (UInt8.ofNat c.toNat).toNat = c := by
    intro c hc
    have hlt := h c hc
    rw [UInt8.toNat_ofNat', Nat.mod_eq_of_lt (by omega), Char.ofNat_toNat]
  rw [utf8_ascii h, List.forall_mem_map, List.map_map]
  constructor
  · exact forall₂_congr fun c hc => by rw [hbyte c hc]
  · apply List.map_congr_left
    intro c hc
    rw [Function.comp_apply, hbyte c hc]

theorem hexDecode_digits (heven : (hexText s).length % 2 = 0)
    (h : ∀ c ∈ hexText s, isHexDigit c = true) :
    ∃ b, hexDecode s = .ok b ∧ (hexEncode b).toList = (hexText s).map Char.toLower := by
  have hascii : ∀ c ∈ hexText s, c.toNat < 128 := fun c hc => ascii_hexDigit (h c hc)
  have hlen : (utf8 (hexText s)).length % 2 = 0 := by
    rw [utf8_ascii hascii, List.length_map]
    exact heven
  obtain ⟨hbytes, hlower⟩ := utf8_hexDigits hascii
  obtain ⟨b, hb, hprint⟩ := hexPairs_digits hlen (hbytes.2 h)
  refine ⟨b, ?_, hprint.trans hlower⟩
  rw [hexDecode_hexText, if_neg (not_not.2 hlen), hb]

theorem hexDecode_ok (h : hexDecode s = .ok b) :
    (hexText s).length % 2 = 0 ∧ ∀ c ∈ hexText s, isHexDigit c = true := by
  rw [hexDecode_hexText] at h
  split at h
  · cases h
  · obtain ⟨heven, hdigits⟩ := hexPairs_ok h
    have hascii : ∀ c ∈ hexText s, c.toNat < 128 := by
      apply ascii_of_utf8
      intro x hx
      have hdigit := (isHexDigit_byte x).1 (hdigits x hx)
      simp only [UInt8.le_iff_toNat_le] at hdigit
      have h57 : (57 : UInt8).toNat = 57 := rfl
      have h102 : (102 : UInt8).toNat = 102 := rfl
      have h70 : (70 : UInt8).toNat = 70 := rfl
      omega
    rw [utf8_ascii hascii, List.length_map] at heven
    exact ⟨heven, (utf8_hexDigits hascii).1.1 hdigits⟩

/-- The codec is exact: decoding undoes encoding; what is decoded is an even number of digits, after
the white space around them and one prefix; they are what is encoded again, in lower case; and
nothing aborts. -/
theorem hex_exact : (∀ b, hexDecode (hexEncode b) = .ok b) ∧
    ∀ s, ((∃ b, hexDecode s = .ok b) ↔
        (hexText s).length % 2 = 0 ∧ ∀ c ∈ hexText s, isHexDigit c = true) ∧
      (∀ b, hexDecode s = .ok b → (hexEncode b).toList = (hexText s).map Char.toLower) ∧
      Returns (hexDecode s) := by
  refine ⟨hexDecode_hexEncode, fun s => ⟨⟨?_, ?_⟩, ?_, returns_hexDecode s⟩⟩
  · rintro ⟨b, hb⟩
    exact hexDecode_ok hb
  · rintro ⟨heven, hdigits⟩
    obtain ⟨b, hb, -⟩ := hexDecode_digits heven hdigits
    exact ⟨b, hb⟩
  · intro b hb
    obtain ⟨heven, hdigits⟩ := hexDecode_ok hb
    obtain ⟨b', hb', hlower⟩ := hexDecode_digits heven hdigits
    rw [hb] at hb'
    rw [Except.ok.inj hb', hlower]

end UnidppTrust
