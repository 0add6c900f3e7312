import UnidppTrust.JsonText
import Mathlib.Data.List.TakeWhile

namespace Json
set_option autoImplicit true

def skipWs (cs : List Char) : List Char := cs.dropWhile isWs

def isNumChar (c : Char) : Bool :=
  c.isDigit || c == '-' || c == '+' || c == '.' || c == 'e' || c == 'E'

def readNumber (lit : List Char) (h : isNumber lit = true) : Number :=
  match hr : readU64 lit with
  | some n => .posInt n
  | none => .other lit (by simp [h, hr])

def parseNumber (cs : List Char) : Option (Value × List Char) :=
  if h : isNumber (cs.takeWhile isNumChar) = true then
    some (.num (readNumber _ h), cs.dropWhile isNumChar)
  else none

def hexVal (c : Char) : Option Nat :=
  if c.isDigit then some (c.toNat - 48)
  else if 'a' ≤ c ∧ c ≤ 'f' then some (c.toNat - 87)
  else if 'A' ≤ c ∧ c ≤ 'F' then some (c.toNat - 55)
  else none

/-- The character of a `\u` escape; surrogate pairs are not joined. -/
def unicodeEsc (a b c d : Char) : Option Char := do
  let n := (((← hexVal a) * 16 + (← hexVal b)) * 16 + (← hexVal c)) * 16 + (← hexVal d)
  if 0xD800 ≤ n ∧ n ≤ 0xDFFF then none else some (Char.ofNat n)

def simpleEsc (c : Char) : Option Char :=
  if c = '\"' ∨ c = '\\' ∨ c = '/' then some c
  else if c = 'b' then some '\x08'
  else if c = 't' then some '\t'
  else if c = 'n' then some '\n'
  else if c = 'f' then some '\x0c'
  else if c = 'r' then some '\r'
  else none

def parseStr : List Char → Option (List Char × List Char)
  | [] => none
  | '\"' :: cs => some ([], cs)
  | '\\' :: 'u' :: a :: b :: c :: d :: cs => do
    let x ← unicodeEsc a b c d
    let (xs, rest) ← parseStr cs
    some (x :: xs, rest)
  | '\\' :: c :: cs => do
    let x ← simpleEsc c
    let (xs, rest) ← parseStr cs
    some (x :: xs, rest)
  | c :: cs =>
    if c.toNat < 32 ∨ c = '\\' then none
    else do
      let (xs, rest) ← parseStr cs
      some (c :: xs, rest)

mutual
/-- A reference recogniser of JSON texts; each call consumes text, so the length of the text is
fuel enough. -/
def parseValue : Nat → List Char → Option (Value × List Char)
  | 0, _ => none
  | n + 1, cs =>
    match skipWs cs with
    | 'n' :: 'u' :: 'l' :: 'l' :: rest => some (.null, rest)
    | 't' :: 'r' :: 'u' :: 'e' :: rest => some (.bool true, rest)
    | 'f' :: 'a' :: 'l' :: 's' :: 'e' :: rest => some (.bool false, rest)
    | '\"' :: cs => do
      let (xs, rest) ← parseStr cs
      some (.str (String.ofList xs), rest)
    | '[' :: cs =>
      match skipWs cs with
      | ']' :: rest => some (.arr [], rest)
      | cs => do
        let (x, rest) ← parseValue n cs
        let (xs, rest) ← parseItems n rest
        some (.arr (x :: xs), rest)
    | '{' :: cs =>
      match skipWs cs with
      | '}' :: rest => some (.obj [], rest)
      | cs => do
        let (f, rest) ← parseField n cs
        let (fs, rest) ← parseFields n rest
        some (.object (f :: fs), rest)
    | cs => parseNumber cs

def parseItems : Nat → List Char → Option (List Value × List Char)
  | 0, _ => none
  | n + 1, cs =>
    match skipWs cs with
    | ']' :: rest => some ([], rest)
    | ',' :: cs => do
      let (x, rest) ← parseValue n cs
      let (xs, rest) ← parseItems n rest
      some (x :: xs, rest)
    | _ => none

def parseFields : Nat → List Char → Option (Fields × List Char)
  | 0, _ => none
  | n + 1, cs =>
    match skipWs cs with
    | '}' :: rest => some ([], rest)
    | ',' :: cs => do
      let (f, rest) ← parseField n cs
      let (fs, rest) ← parseFields n rest
      some (f :: fs, rest)
    | _ => none

def parseField : Nat → List Char → Option ((String × Value) × List Char)
  | 0, _ => none
  | n + 1, cs =>
    match skipWs cs with
    | '\"' :: cs => do
      let (k, rest) ← parseStr cs
      match skipWs rest with
      | ':' :: cs => do
        let (v, rest) ← parseValue n cs
        some ((String.ofList k, v), rest)
      | _ => none
    | _ => none
end

def parse (cs : List Char) : Option Value := do
  let (v, rest) ← parseValue (cs.length + 1) cs
  if skipWs rest = [] then some v else none

theorem unicodeEsc_hexDigit (h : c.toNat < 32) :
    unicodeEsc '0' '0' (hexDigit (c.toNat / 16)) (hexDigit (c.toNat % 16)) = some c := by
  have hall : ∀ n : Fin 32, unicodeEsc '0' '0' (hexDigit (n.val / 16)) (hexDigit (n.val % 16)) =
      some (Char.ofNat n.val) := by decide
  rw [hall ⟨c.toNat, h⟩, Char.ofNat_toNat]

theorem parseStr_escChar (c : Char) (cs : List Char) :
    parseStr (escChar c ++ cs) = (parseStr cs).bind fun (xs, rest) => some (c :: xs, rest) := by
  unfold escChar
  split
  · rename_i h; subst h; rfl
  split
  · rename_i h; subst h; rfl
  split
  · rename_i h; subst h; rfl
  split
  · rename_i h; subst h; rfl
  split
  · rename_i h; subst h; rfl
  split
  · rename_i h; subst h; rfl
  split
  · rename_i h; subst h; rfl
  split
  · rename_i h
    simp only [List.cons_append, List.nil_append, parseStr, unicodeEsc_hexDigit h]
    rfl
  · rename_i hq hb _ _ _ _ _ hc
    rw [List.singleton_append, parseStr]
    · rw [if_neg (by simp [hc, hb])]
      rfl
    · exact hq
    · intro _ _ _ _ _ h; exact (hb h).elim
    · intro _ _ h; exact (hb h).elim

theorem parseStr_flatMap (xs cs : List Char) :
    parseStr (xs.flatMap escChar ++ '\"' :: cs) = some (xs, cs) := by
  induction xs with
  | nil => rfl
  | cons x xs ih => rw [List.flatMap_cons, List.append_assoc, parseStr_escChar, ih]; rfl

theorem skipWs_cons (h : isWs c = false) : skipWs (c :: cs) = c :: cs := by
  rw [skipWs, List.dropWhile_cons_of_neg (by simp [h])]

theorem skipWs_sep (L : Layout) (d : Nat) (cs : List Char) :
    skipWs (L.sep d ++ cs) = skipWs cs := by
  cases L with
  | compact => rfl
  | pretty =>
    have hs (n : Nat) : (List.replicate n ' ' ++ cs).dropWhile isWs = cs.dropWhile isWs := by
      induction n with
      | zero => rfl
      | succ n ih => exact ih
    exact hs (2 * d)

def Stops (cs : List Char) : Prop := ∀ c ∈ cs.head?, isNumChar c = false

theorem span_number (h : ∀ c ∈ lit, isNumChar c = true) (hs : Stops cs) :
    (lit ++ cs).takeWhile isNumChar = lit ∧ (lit ++ cs).dropWhile isNumChar = cs := by
  have hcs : cs.takeWhile isNumChar = [] ∧ cs.dropWhile isNumChar = cs := by
    cases cs with
    | nil => exact ⟨rfl, rfl⟩
    | cons c cs =>
      have hc : isNumChar c = false := hs c rfl
      simp [hc]
  rw [List.takeWhile_append_of_pos h, List.dropWhile_append_of_pos h, hcs.1, hcs.2]
  exact ⟨List.append_nil lit, rfl⟩

theorem isNumChar_of_isDigit (h : c.isDigit = true) : isNumChar c = true := by
  simp [isNumChar, h]

def Consumes (cs rest : List Char) : Prop :=
  ∃ pre, cs = pre ++ rest ∧ ∀ c ∈ pre, isNumChar c = true

theorem Consumes.refl (cs : List Char) : Consumes cs cs := ⟨[], rfl, fun _ h => by cases h⟩

theorem Consumes.trans (h₁ : Consumes a b) (h₂ : Consumes b c) : Consumes a c := by
  obtain ⟨p, rfl, hp⟩ := h₁
  obtain ⟨q, rfl, hq⟩ := h₂
  refine ⟨p ++ q, (List.append_assoc p q c).symm, fun x hx => ?_⟩
  exact (List.mem_append.1 hx).elim (hp x) (hq x)

theorem Consumes.cons (hc : isNumChar c = true) (h : Consumes a b) : Consumes (c :: a) b := by
  obtain ⟨p, rfl, hp⟩ := h
  refine ⟨c :: p, rfl, fun x hx => ?_⟩
  rcases List.mem_cons.1 hx with rfl | hx
  · exact hc
  · exact hp x hx

theorem consumes_dropDigits1 (h : dropDigits1 cs = some rest) : Consumes cs rest := by
  cases cs with
  | nil => cases h
  | cons c cs =>
    simp only [dropDigits1] at h
    split at h
    · rename_i hc
      cases h
      refine Consumes.cons (isNumChar_of_isDigit hc) ⟨cs.takeWhile Char.isDigit, ?_, fun x hx => ?_⟩
      · exact List.takeWhile_append_dropWhile.symm
      · exact isNumChar_of_isDigit (List.mem_takeWhile_imp hx)
    · cases h

theorem consumes_dropInt (h : dropInt cs = some rest) : Consumes cs rest := by
  unfold dropInt at h
  split at h
  · cases h
    exact (Consumes.refl _).cons rfl
  · exact consumes_dropDigits1 h

theorem consumes_dropFrac (h : dropFrac cs = some rest) : Consumes cs rest := by
  unfold dropFrac at h
  split at h
  · exact (consumes_dropDigits1 h).cons rfl
  · cases h
    exact Consumes.refl _

theorem consumes_dropExp (h : dropExp cs = some rest) : Consumes cs rest := by
  cases cs with
  | nil => cases h; exact Consumes.refl _
  | cons c cs =>
    simp only [dropExp] at h
    split at h
    · rename_i hc
      have hc : isNumChar c = true := by
        rcases Bool.or_eq_true_iff.1 hc with h | h <;> rw [eq_of_beq h] <;> rfl
      apply Consumes.cons hc
      split at h
      · exact (consumes_dropDigits1 h).cons rfl
      · exact (consumes_dropDigits1 h).cons rfl
      · exact consumes_dropDigits1 h
    · cases h
      exact Consumes.refl _

theorem isNumber_split (h : isNumber lit = true) :
    ∃ ds, (lit = ds ∨ lit = '-' :: ds) ∧ ∃ r, dropInt ds = some r ∧ Consumes r [] := by
  unfold isNumber at h
  simp only [beq_iff_eq, Option.bind_eq_some_iff] at h
  obtain ⟨s, ⟨r, hr, hs⟩, he⟩ := h
  refine ⟨_, ?_, r, hr, (consumes_dropFrac hs).trans (consumes_dropExp he)⟩
  split
  · exact .inr rfl
  · exact .inl rfl

theorem isNumChar_of_isNumber (h : isNumber lit = true) : ∀ c ∈ lit, isNumChar c = true := by
  obtain ⟨ds, hlit, r, hr, hc⟩ := isNumber_split h
  obtain ⟨p, hp, hall⟩ := (consumes_dropInt hr).trans hc
  rw [List.append_nil] at hp
  subst hp
  rcases hlit with rfl | rfl
  · exact hall
  · intro c hc
    rcases List.mem_cons.1 hc with rfl | hc
    · rfl
    · exact hall c hc

theorem isNumber_head (h : isNumber lit = true) :
    ∃ c cs, lit = c :: cs ∧ (c.isDigit = true ∨ c = '-') := by
  obtain ⟨ds, hlit, r, hr, -⟩ := isNumber_split h
  rcases hlit with rfl | rfl
  · unfold dropInt at hr
    split at hr
    · exact ⟨_, _, rfl, .inl rfl⟩
    · cases lit with
      | nil => cases hr
      | cons c cs =>
        refine ⟨c, cs, rfl, .inl ?_⟩
        simp only [dropDigits1] at hr
        split at hr
        · assumption
        · cases hr
  · exact ⟨_, _, rfl, .inr rfl⟩

theorem head_toDigits (h : 0 < n) : (Nat.toDigits 10 n).head? ≠ some '0' := by
  induction n using Nat.strongRecOn with
  | _ n ih =>
    rcases Nat.lt_or_ge n 10 with hn | hn
    · rw [Nat.toDigits_of_lt_base hn, List.head?_cons, ne_eq, Option.some.injEq,
        Nat.digitChar_eq_zero]
      omega
    · rw [Nat.toDigits_of_base_le (by omega) hn, List.head?_append_of_ne_nil _ Nat.toDigits_ne_nil]
      exact ih (n / 10) (by omega) (by omega)

theorem isNumber_digits (h : ∀ c ∈ ds, c.isDigit = true) (h₀ : ds.head? ≠ some '0')
    (hne : ds ≠ []) : isNumber ds = true := by
  obtain ⟨d, ds, rfl⟩ := List.exists_cons_of_ne_nil hne
  have hd := h d List.mem_cons_self
  have hrest : ds.dropWhile Char.isDigit = [] :=
    List.dropWhile_eq_nil_iff.2 fun c hc => h c (List.mem_cons_of_mem d hc)
  have hint : dropInt (d :: ds) = some [] := by
    rw [dropInt, dropDigits1, if_pos hd, hrest]
    intro cs hcs
    cases hcs
    exact h₀ rfl
  unfold isNumber
  split
  · rename_i ds' heq
    cases heq
    cases hd
  · simp only [hint]
    rfl

theorem isNumber_toDigits (n : Nat) : isNumber (Nat.toDigits 10 n) = true := by
  rcases Nat.eq_zero_or_pos n with rfl | hn
  · rfl
  · exact isNumber_digits (fun c hc => Nat.isDigit_of_mem_toDigits (by omega) (by omega) hc)
      (head_toDigits hn) Nat.toDigits_ne_nil

theorem readU64_toDigits (n : UInt64) : readU64 (Nat.toDigits 10 n.toNat) = some n := by
  have hall : (Nat.toDigits 10 n.toNat).all Char.isDigit = true :=
    List.all_eq_true.2 fun c hc => Nat.isDigit_of_mem_toDigits (by omega) (by omega) hc
  have hn : n.toNat < 2 ^ 64 := n.toNat_lt
  simp only [readU64, hall, isNumber_toDigits, Bool.and_self, if_true,
    Nat.ofDigitChars_ten_toDigits, hn, UInt64.ofNat_toNat]

theorem isNumber_render (n : Number) : isNumber (renderNumber n) = true := by
  cases n with
  | posInt n => exact isNumber_toDigits n.toNat
  | other lit h => exact (Bool.and_eq_true_iff.1 h).1

theorem readNumber_render (n : Number) (h : isNumber (renderNumber n) = true) :
    readNumber (renderNumber n) h = n := by
  unfold readNumber
  cases n with
  | posInt n =>
    split
    · rename_i m hm
      rw [renderNumber, readU64_toDigits] at hm
      cases hm
      rfl
    · rename_i hm
      rw [renderNumber, readU64_toDigits] at hm
      cases hm
  | other lit hl =>
    have hnone := Option.isNone_iff_eq_none.1 (Bool.and_eq_true_iff.1 hl).2
    split
    · rename_i m hm
      rw [renderNumber, hnone] at hm
      cases hm
    · rfl

theorem parseNumber_render (n : Number) (hs : Stops cs) :
    parseNumber (renderNumber n ++ cs) = some (.num n, cs) := by
  obtain ⟨ht, hd⟩ := span_number (isNumChar_of_isNumber (isNumber_render n)) hs
  simp only [parseNumber, ht, hd, isNumber_render, dite_true, readNumber_render]

end Json
