import Mathlib.Data.List.DropRight

namespace Rust
set_option autoImplicit true

abbrev Bytes := List UInt8

/-- The `White_Space` property, which `str::trim` and `char::is_whitespace` use. -/
def isWhitespace (c : Char) : Bool :=
  let n := c.toNat
  (9 ≤ n && n ≤ 13) || n == 0x20 || n == 0x85 || n == 0xA0 || n == 0x1680 ||
    (0x2000 ≤ n && n ≤ 0x200A) || n == 0x2028 || n == 0x2029 || n == 0x202F ||
    n == 0x205F || n == 0x3000

def trimChars (cs : List Char) : List Char :=
  (cs.dropWhile isWhitespace).rdropWhile isWhitespace

def trim (s : String) : String := String.ofList (trimChars s.toList)

def toAsciiUppercase (s : String) : String := String.ofList (s.toList.map Char.toUpper)

def toAsciiLowercase (s : String) : String := String.ofList (s.toList.map Char.toLower)

def remove (c : Char) (s : String) : String := String.ofList (s.toList.filter (· ≠ c))

def startsWith (s p : String) : Bool := p.toList.isPrefixOf s.toList

def stripPrefix (s p : String) : Option String :=
  if startsWith s p then some (String.ofList (s.toList.drop p.toList.length)) else none

def splitOnceChars (sep : List Char) : List Char → Option (List Char × List Char)
  | [] => if sep.isEmpty then some ([], []) else none
  | c :: cs =>
    if sep.isPrefixOf (c :: cs) then some ([], (c :: cs).drop sep.length)
    else (splitOnceChars sep cs).map fun (a, b) => (c :: a, b)

def splitOnce (s sep : String) : Option (String × String) :=
  (splitOnceChars sep.toList s.toList).map fun (a, b) => (String.ofList a, String.ofList b)

def utf8 (cs : List Char) : Bytes := cs.flatMap String.utf8EncodeChar

def bytes (s : String) : Bytes := utf8 s.toList

/-- `String::from_utf8`, without its error value. -/
def fromUtf8 (b : Bytes) : Option String := String.fromUTF8? b.toByteArray

@[simp] theorem utf8_nil : utf8 [] = [] := rfl

@[simp] theorem utf8_append (cs ds : List Char) : utf8 (cs ++ ds) = utf8 cs ++ utf8 ds :=
  List.flatMap_append

theorem utf8_cons (c : Char) (cs : List Char) :
    utf8 (c :: cs) = String.utf8EncodeChar c ++ utf8 cs := List.flatMap_cons

@[simp] theorem utf8_eq_nil : utf8 cs = [] ↔ cs = [] := by
  cases cs with
  | nil => simp
  | cons c cs => simp [utf8_cons]

theorem toByteArray_utf8 (cs : List Char) : (utf8 cs).toByteArray = cs.utf8Encode := rfl

@[simp] theorem fromUtf8_bytes (s : String) : fromUtf8 (bytes s) = some s := by
  obtain ⟨cs, rfl⟩ : ∃ cs, s = String.ofList cs := ⟨s.toList, String.ofList_toList.symm⟩
  have hv : (utf8 cs).toByteArray.IsValidUTF8 := ByteArray.isValidUTF8_utf8Encode
  simp only [fromUtf8, bytes, String.toList_ofList, String.fromUTF8?, dif_pos hv]
  rfl

theorem bytes_of_fromUtf8 (h : fromUtf8 b = some s) : bytes s = b := by
  simp only [fromUtf8, String.fromUTF8?] at h
  split at h
  · rename_i hv
    obtain ⟨cs, hcs⟩ := hv
    have hb : b = utf8 cs := List.toByteArray_inj.1 hcs
    subst hb
    have hs := fromUtf8_bytes (String.ofList cs)
    simp only [bytes, String.toList_ofList, fromUtf8, String.fromUTF8?] at hs
    rw [dif_pos ⟨cs, hcs⟩] at hs
    rw [hs] at h
    cases h
    simp only [bytes, String.toList_ofList]
  · cases h

/-- No character's encoding is a proper prefix of another's. -/
theorem utf8_prefix {r : Bytes} (h : utf8 cs = utf8 ds ++ r) : ds <+: cs := by
  induction ds generalizing cs with
  | nil => exact List.nil_prefix
  | cons d ds ih =>
    cases cs with
    | nil => simp [utf8_cons] at h
    | cons c cs =>
      have hd := congrArg (fun b => b.toByteArray.utf8DecodeChar? 0) h
      have hl : ((utf8 (c :: cs)).toByteArray).utf8DecodeChar? 0 = some c := by
        rw [toByteArray_utf8, List.utf8DecodeChar?_utf8Encode_cons]
      have hr : ((utf8 (d :: ds) ++ r).toByteArray).utf8DecodeChar? 0 = some d := by
        rw [utf8_cons, List.append_assoc, List.toByteArray_append,
          ← List.utf8Encode_singleton, List.utf8DecodeChar?_utf8Encode_singleton_append]
      simp only [hl, hr, Option.some.injEq] at hd
      subst hd
      rw [utf8_cons, utf8_cons, List.append_assoc] at h
      exact List.cons_prefix_cons.2 ⟨rfl, ih (List.append_cancel_left h)⟩

/-- A valid prefix of a text's bytes is the encoding of a prefix of the text. -/
theorem fromUtf8_prefix {q r : Bytes} (h : bytes s = q ++ r) (hq : fromUtf8 q = some p) :
    p.toList <+: s.toList := by
  apply utf8_prefix (r := r)
  rw [← bytes_of_fromUtf8 hq] at h
  exact h

theorem mem_utf8EncodeChar_ascii {n : UInt8} (hn : n.toNat < 128) :
    n ∈ String.utf8EncodeChar c ↔ c.toNat = n.toNat := by
  have hv : c.val.toNat = c.toNat := rfl
  have hlt : c.val.toNat < 0x110000 := by
    have := c.valid
    rcases this with h | h <;> simp only [hv] at * <;> omega
  simp only [String.utf8EncodeChar]
  split
  · simp only [List.mem_singleton, ← UInt8.toNat_inj, UInt8.toNat_ofNat']
    omega
  · split
    · simp only [List.mem_cons, List.not_mem_nil, or_false, ← UInt8.toNat_inj,
        UInt8.toNat_ofNat']
      omega
    · split
      · simp only [List.mem_cons, List.not_mem_nil, or_false, ← UInt8.toNat_inj,
          UInt8.toNat_ofNat']
        omega
      · simp only [List.mem_cons, List.not_mem_nil, or_false, ← UInt8.toNat_inj,
          UInt8.toNat_ofNat']
        omega

theorem length_utf8EncodeChar_ascii {n : UInt8} (hn : n.toNat < 128) (h : c.toNat = n.toNat) :
    (String.utf8EncodeChar c).length = 1 := by
  have hv : c.val.toNat = c.toNat := rfl
  rw [String.utf8EncodeChar]
  split
  · rfl
  · omega

theorem utf8EncodeChar_ascii (h : c.toNat < 128) :
    String.utf8EncodeChar c = [UInt8.ofNat c.toNat] := by
  have hn : (UInt8.ofNat c.toNat).toNat = c.toNat := by
    rw [UInt8.toNat_ofNat']
    omega
  have hascii : (UInt8.ofNat c.toNat).toNat < 128 := by omega
  obtain ⟨d, hd⟩ := List.length_eq_one_iff.1 (length_utf8EncodeChar_ascii hascii hn.symm)
  have hmem := (mem_utf8EncodeChar_ascii hascii).2 hn.symm
  rw [hd, List.mem_singleton] at hmem
  rw [hd, hmem]

theorem utf8_ascii (h : ∀ c ∈ cs, c.toNat < 128) :
    utf8 cs = cs.map fun c => UInt8.ofNat c.toNat := by
  induction cs with
  | nil => rfl
  | cons c cs ih =>
    have hc := h c List.mem_cons_self
    rw [utf8_cons, utf8EncodeChar_ascii hc, ih fun x hx => h x (List.mem_cons_of_mem c hx),
      List.map_cons, List.singleton_append]

theorem ascii_of_utf8 (h : ∀ b ∈ utf8 cs, b.toNat < 128) : ∀ c ∈ cs, c.toNat < 128 := by
  intro c hc
  have hbytes : ∀ b ∈ String.utf8EncodeChar c, b.toNat < 128 :=
    fun b hb => h b (List.mem_flatMap.2 ⟨c, hc, hb⟩)
  have hv : c.val.toNat = c.toNat := rfl
  by_contra hge
  have hlt : c.val.toNat < 0x110000 := by
    rcases c.valid with h | h <;> omega
  rw [String.utf8EncodeChar] at hbytes
  split at hbytes
  · omega
  split at hbytes
  · have hfirst := hbytes _ List.mem_cons_self
    rw [UInt8.toNat_ofNat'] at hfirst
    omega
  split at hbytes
  · have hfirst := hbytes _ List.mem_cons_self
    rw [UInt8.toNat_ofNat'] at hfirst
    omega
  · have hfirst := hbytes _ List.mem_cons_self
    rw [UInt8.toNat_ofNat'] at hfirst
    omega

theorem mem_utf8_ascii {n : UInt8} (hn : n.toNat < 128) :
    n ∈ utf8 cs ↔ ∃ c ∈ cs, c.toNat = n.toNat := by
  simp only [utf8, List.mem_flatMap, mem_utf8EncodeChar_ascii hn]

/-- An ASCII byte of a text's encoding stands where its character does. -/
theorem utf8_split {b : UInt8} (hb : b.toNat < 128) (h : utf8 cs = p ++ b :: r) :
    ∃ cs₁ cs₂, cs = cs₁ ++ cs₂ ∧ p = utf8 cs₁ ∧ b :: r = utf8 cs₂ := by
  induction cs generalizing p with
  | nil =>
    have hl := congrArg List.length h
    simp only [utf8_nil, List.length_nil, List.length_append, List.length_cons] at hl
    omega
  | cons c cs ih =>
    rw [utf8_cons] at h
    rcases List.append_eq_append_iff.1 h with ⟨a, rfl, ha⟩ | ⟨a, hc, ha⟩
    · obtain ⟨cs₁, cs₂, rfl, rfl, hr⟩ := ih ha
      exact ⟨c :: cs₁, cs₂, rfl, (utf8_cons c cs₁).symm, hr⟩
    · cases a with
      | nil =>
        rw [List.append_nil] at hc
        exact ⟨[c], cs, rfl, by rw [utf8_cons, utf8_nil, List.append_nil, hc], ha⟩
      | cons b' a =>
        rw [List.cons_append, List.cons.injEq] at ha
        obtain ⟨rfl, rfl⟩ := ha
        have hmem : b ∈ String.utf8EncodeChar c := hc ▸ List.mem_append_right p List.mem_cons_self
        have hone := length_utf8EncodeChar_ascii hb ((mem_utf8EncodeChar_ascii hb).1 hmem)
        have hl := congrArg List.length hc
        simp only [hone, List.length_append, List.length_cons] at hl
        have hp : p = [] := List.eq_nil_of_length_eq_zero (by omega)
        subst hp
        exact ⟨[], c :: cs, rfl, rfl, by rw [utf8_cons, hc]; rfl⟩

theorem bytes_injective (h : bytes s = bytes t) : s = t := by
  have hs := fromUtf8_bytes s
  rw [h, fromUtf8_bytes, Option.some.injEq] at hs
  exact hs.symm

theorem fromUtf8_append {b : UInt8} (hb : b.toNat < 128) (ht : bytes t = b :: r)
    (h : fromUtf8 (p ++ bytes t) = some s) :
    ∃ u, fromUtf8 p = some u ∧ s.toList = u.toList ++ t.toList := by
  have hs := bytes_of_fromUtf8 h
  rw [ht] at hs
  obtain ⟨cs₁, cs₂, hcs, rfl, hr⟩ := utf8_split hb hs
  have ht₂ : t = String.ofList cs₂ := by
    apply bytes_injective
    rw [ht, hr, bytes, String.toList_ofList]
  refine ⟨String.ofList cs₁, ?_, ?_⟩
  · have hu := fromUtf8_bytes (String.ofList cs₁)
    rwa [bytes, String.toList_ofList] at hu
  · rw [hcs, ht₂, String.toList_ofList, String.toList_ofList]

theorem trimChars_split (cs : List Char) : ∃ before after, cs = before ++ trimChars cs ++ after ∧
    (∀ c ∈ before, isWhitespace c) ∧ ∀ c ∈ after, isWhitespace c := by
  refine ⟨cs.takeWhile isWhitespace, (cs.dropWhile isWhitespace).rtakeWhile isWhitespace, ?_,
    fun c hc => List.mem_takeWhile_imp hc, fun c hc => List.mem_rtakeWhile_imp hc⟩
  rw [trimChars, List.append_assoc, List.rdropWhile_append_rtakeWhile,
    List.takeWhile_append_dropWhile]

theorem trimChars_around (hbefore : ∀ c ∈ before, isWhitespace c)
    (hafter : ∀ c ∈ after, isWhitespace c) (hcs : ∀ c ∈ cs, isWhitespace c = false) :
    trimChars (before ++ cs ++ after) = cs := by
  have hkept : ∀ ds : List Char, (∀ c ∈ ds, isWhitespace c = false) →
      ds.dropWhile isWhitespace = ds := by
    intro ds hds
    cases ds with
    | nil => rfl
    | cons d ds =>
      rw [List.dropWhile_cons_of_neg (by rw [hds d List.mem_cons_self]; exact Bool.false_ne_true)]
  have hlast : (cs ++ after).rdropWhile isWhitespace = cs := by
    rw [List.rdropWhile, List.reverse_append, List.dropWhile_append_of_pos
      fun c hc => hafter c (List.mem_reverse.1 hc),
      hkept _ fun c hc => hcs c (List.mem_reverse.1 hc),
      List.reverse_reverse]
  rw [trimChars, List.append_assoc, List.dropWhile_append_of_pos hbefore]
  cases cs with
  | nil =>
    have hnone : after.dropWhile isWhitespace = [] := List.dropWhile_eq_nil_iff.2 hafter
    rw [List.nil_append, hnone]
    rfl
  | cons c cs =>
    have hc : ¬ isWhitespace c = true := by
      rw [hcs c List.mem_cons_self]
      exact Bool.false_ne_true
    rw [List.cons_append, List.dropWhile_cons_of_neg hc]
    exact hlast

theorem trim_eq (h : ∀ c ∈ s.toList, isWhitespace c = false) : trim s = s := by
  have hnone : ∀ c ∈ ([] : List Char), isWhitespace c := fun c hc => by cases hc
  have ht := trimChars_around hnone hnone h
  rw [List.nil_append, List.append_nil] at ht
  rw [trim, ht, String.ofList_toList]

theorem trim_trim (s : String) : trim (trim s) = trim s := by
  have hpart : trimChars s.toList <+: s.toList.dropWhile isWhitespace :=
    List.rdropWhile_prefix _ _
  have hhead : (trimChars s.toList).dropWhile isWhitespace = trimChars s.toList := by
    rw [List.dropWhile_eq_self_iff]
    intro hl
    rw [hpart.getElem hl]
    exact List.dropWhile_get_zero_not _ _ _
  rw [trim, trim, String.toList_ofList, trimChars, hhead, trimChars, List.rdropWhile_idempotent]

end Rust
