import Mathlib.Data.String.Basic
import Mathlib.Data.List.Basic

namespace Json
set_option autoImplicit true

def dropDigits1 : List Char → Option (List Char)
  | c :: cs => if c.isDigit then some (cs.dropWhile Char.isDigit) else none
  | [] => none

def dropInt : List Char → Option (List Char)
  | '0' :: cs => some cs
  | cs => dropDigits1 cs

def dropFrac : List Char → Option (List Char)
  | '.' :: cs => dropDigits1 cs
  | cs => some cs

def dropExp : List Char → Option (List Char)
  | c :: cs =>
    if c == 'e' || c == 'E' then
      match cs with
      | '+' :: ds | '-' :: ds => dropDigits1 ds
      | ds => dropDigits1 ds
    else some (c :: cs)
  | [] => some []

def isNumber (cs : List Char) : Bool :=
  let unsigned := match cs with
    | '-' :: ds => ds
    | ds => ds
  ((dropInt unsigned).bind dropFrac |>.bind dropExp) == some []

def readU64 (cs : List Char) : Option UInt64 :=
  if cs.all Char.isDigit && isNumber cs then
    let n := Nat.ofDigitChars 10 cs 0
    if n < 2 ^ 64 then some (UInt64.ofNat n) else none
  else none

/-- A number is an unsigned 64-bit integer, or anything else that has a literal. -/
inductive Number where
  | posInt (n : UInt64)
  | other (lit : List Char) (h : (isNumber lit && (readU64 lit).isNone) = true)

/-- A JSON document; an object keeps its fields in the order of its map. -/
inductive Value where
  | null
  | bool (b : Bool)
  | num (n : Number)
  | str (s : String)
  | arr (xs : List Value)
  | obj (fs : List (String × Value))

abbrev Fields := List (String × Value)

def Value.asStr : Value → Option String
  | .str s => some s
  | _ => none

def Value.asU64 : Value → Option UInt64
  | .num (.posInt n) => some n
  | _ => none

def Value.asArray : Value → Option (List Value)
  | .arr xs => some xs
  | _ => none

def Value.asObject : Value → Option Fields
  | .obj fs => some fs
  | _ => none

def Value.get (v : Value) (k : String) : Option Value :=
  match v with
  | .obj fs => fs.lookup k
  | _ => none

def insertField (k : String) (v : Value) : Fields → Fields
  | [] => [(k, v)]
  | f :: fs =>
    if k < f.1 then (k, v) :: f :: fs
    else if k = f.1 then (k, v) :: fs
    else f :: insertField k v fs

def fieldsOf (l : Fields) : Fields := l.foldl (fun fs f => insertField f.1 f.2 fs) []

def Value.object (l : Fields) : Value := .obj (fieldsOf l)

def Value.u64 (n : UInt64) : Value := .num (.posInt n)

def Value.usize (n : Nat) : Value := .u64 (UInt64.ofNat n)

def Value.ofOption : Option Value → Value
  | some v => v
  | none => .null

@[simp] theorem asStr_str (s : String) : (Value.str s).asStr = some s := rfl

@[simp] theorem asU64_u64 (n : UInt64) : (Value.u64 n).asU64 = some n := rfl

@[simp] theorem asArray_arr (xs : List Value) : (Value.arr xs).asArray = some xs := rfl

@[simp] theorem asObject_object (l : Fields) :
    (Value.object l).asObject = some (fieldsOf l) := rfl

@[simp] theorem get_object (l : Fields) (k : String) :
    (Value.object l).get k = (fieldsOf l).lookup k := rfl

theorem lookup_cons_ite (k k' : String) (v : Value) (fs : Fields) :
    List.lookup k' ((k, v) :: fs) = if k' = k then some v else fs.lookup k' := by
  rw [List.lookup_cons]
  by_cases h : k' = k
  · simp [h]
  · rw [beq_eq_false_iff_ne.2 h, if_neg h]

theorem lookup_insertField (k k' : String) (v : Value) (fs : Fields) :
    (insertField k v fs).lookup k' = if k' = k then some v else fs.lookup k' := by
  induction fs with
  | nil => rw [insertField, lookup_cons_ite]
  | cons f fs ih =>
    obtain ⟨k₀, v₀⟩ := f
    simp only [insertField]
    split
    · rw [lookup_cons_ite]
    · split
      · rename_i hk
        subst hk
        rw [lookup_cons_ite, lookup_cons_ite]
        split <;> rfl
      · rename_i hk
        rw [lookup_cons_ite, lookup_cons_ite, ih]
        by_cases h₀ : k' = k₀
        · rw [if_pos h₀, if_pos h₀, if_neg (h₀ ▸ Ne.symm hk)]
        · rw [if_neg h₀, if_neg h₀]

theorem lookup_foldl (l : Fields) (fs : Fields) (k : String) :
    (l.foldl (fun fs f => insertField f.1 f.2 fs) fs).lookup k =
      (l.reverse.lookup k).or (fs.lookup k) := by
  induction l generalizing fs with
  | nil => simp
  | cons f l ih =>
    rw [List.foldl_cons, ih, lookup_insertField, List.reverse_cons, List.lookup_append,
      lookup_cons_ite, Option.or_assoc]
    split <;> simp

@[simp] theorem lookup_fieldsOf (l : Fields) (k : String) :
    (fieldsOf l).lookup k = l.reverse.lookup k := by
  rw [fieldsOf, lookup_foldl]
  simp

theorem mem_insertField (h : f ∈ insertField k v fs) : f = (k, v) ∨ f ∈ fs := by
  induction fs with
  | nil => simpa [insertField] using h
  | cons g fs ih =>
    simp only [insertField] at h
    split at h
    · simpa using h
    · split at h
      · rcases List.mem_cons.1 h with h | h
        · exact .inl h
        · exact .inr (List.mem_cons_of_mem _ h)
      · rcases List.mem_cons.1 h with h | h
        · exact .inr (h ▸ List.mem_cons_self)
        · exact (ih h).imp id (List.mem_cons_of_mem _)

theorem mem_foldl {l fs : Fields} (h : f ∈ l.foldl (fun fs f => insertField f.1 f.2 fs) fs) :
    f ∈ l ∨ f ∈ fs := by
  induction l generalizing fs with
  | nil => exact .inr h
  | cons g l ih =>
    rcases ih h with h | h
    · exact .inl (List.mem_cons_of_mem _ h)
    · rcases mem_insertField h with h | h
      · exact .inl (h ▸ List.mem_cons_self)
      · exact .inr h

theorem mem_fieldsOf (h : f ∈ fieldsOf l) : f ∈ l :=
  (mem_foldl h).resolve_right List.not_mem_nil

def KeysSorted (fs : Fields) : Prop := fs.Pairwise fun f g => f.1 < g.1

theorem KeysSorted.insertField (h : KeysSorted fs) : KeysSorted (insertField k v fs) := by
  induction fs with
  | nil => simp [KeysSorted, Json.insertField]
  | cons f fs ih =>
    obtain ⟨hf, hs⟩ := List.pairwise_cons.1 h
    simp only [Json.insertField]
    split
    · rename_i hk
      refine List.pairwise_cons.2 ⟨fun g hg => ?_, h⟩
      rcases List.mem_cons.1 hg with rfl | hg
      · exact hk
      · exact lt_trans hk (hf g hg)
    · split
      · rename_i hk
        exact List.pairwise_cons.2 ⟨fun g hg => hk ▸ hf g hg, hs⟩
      · rename_i hlt hne
        refine List.pairwise_cons.2 ⟨fun g hg => ?_, ih hs⟩
        rcases mem_insertField hg with rfl | hg
        · exact lt_of_le_of_ne (not_lt.1 hlt) (Ne.symm hne)
        · exact hf g hg

theorem keysSorted_fieldsOf (l : Fields) : KeysSorted (fieldsOf l) := by
  have go (l fs : Fields) (h : KeysSorted fs) :
      KeysSorted (l.foldl (fun fs f => insertField f.1 f.2 fs) fs) := by
    induction l generalizing fs with
    | nil => exact h
    | cons f l ih => exact ih _ h.insertField
  exact go l [] List.Pairwise.nil

theorem insertField_last (h : ∀ f ∈ fs, f.1 < k) : insertField k v fs = fs ++ [(k, v)] := by
  induction fs with
  | nil => rfl
  | cons f fs ih =>
    have hf := h f List.mem_cons_self
    rw [insertField, if_neg (lt_asymm hf), if_neg (ne_of_gt hf),
      ih fun g hg => h g (List.mem_cons_of_mem f hg)]
    rfl

theorem fieldsOf_sorted (h : KeysSorted fs) : fieldsOf fs = fs := by
  have go (l acc : Fields) (hs : KeysSorted (acc ++ l)) :
      l.foldl (fun fs f => insertField f.1 f.2 fs) acc = acc ++ l := by
    induction l generalizing acc with
    | nil => simp
    | cons f l ih =>
      have hlt := fun g hg => (List.pairwise_append.1 hs).2.2 g hg f List.mem_cons_self
      rw [List.foldl_cons, insertField_last hlt, ih _ (by simpa using hs)]
      simp
  exact go fs [] h

def Number.Printed (P : List Char → Prop) : Number → Prop
  | .posInt _ => True
  | .other lit _ => P lit

mutual
/-- A document as the map type keeps it, of a depth of containers at most: every object is ordered
by key, and a number that is no unsigned integer stands as a literal in `P`. -/
def Value.Canonical (P : List Char → Prop) (n : Nat) : Value → Prop
  | .null | .bool _ | .str _ => True
  | .num x => x.Printed P
  | .arr xs => 0 < n ∧ CanonicalAll P (n - 1) xs
  | .obj fs => 0 < n ∧ KeysSorted fs ∧ CanonicalFields P (n - 1) fs

def CanonicalAll (P : List Char → Prop) (n : Nat) : List Value → Prop
  | [] => True
  | x :: xs => x.Canonical P n ∧ CanonicalAll P n xs

def CanonicalFields (P : List Char → Prop) (n : Nat) : Fields → Prop
  | [] => True
  | f :: fs => CanonicalField P n f ∧ CanonicalFields P n fs

def CanonicalField (P : List Char → Prop) (n : Nat) : String × Value → Prop
  | (_, v) => v.Canonical P n
end

theorem canonicalAll_iff : CanonicalAll P n xs ↔ ∀ x ∈ xs, x.Canonical P n := by
  induction xs with
  | nil => simp [CanonicalAll]
  | cons x xs ih => simp [CanonicalAll, ih]

theorem canonicalFields_iff : CanonicalFields P n fs ↔ ∀ f ∈ fs, f.2.Canonical P n := by
  induction fs with
  | nil => simp [CanonicalFields]
  | cons f fs ih => cases f; simp [CanonicalFields, CanonicalField, ih]

@[simp] theorem canonical_str (s : String) : (Value.str s).Canonical P n := trivial

@[simp] theorem canonical_bool (b : Bool) : (Value.bool b).Canonical P n := trivial

@[simp] theorem canonical_null : Value.null.Canonical P n := trivial

@[simp] theorem canonical_u64 (x : UInt64) : (Value.u64 x).Canonical P n := trivial

@[simp] theorem canonical_usize (x : Nat) : (Value.usize x).Canonical P n := trivial

@[simp] theorem canonical_arr :
    (Value.arr xs).Canonical P (n + 1) ↔ ∀ x ∈ xs, x.Canonical P n :=
  (and_iff_right (Nat.succ_pos n)).trans canonicalAll_iff

@[simp] theorem canonical_ofOption :
    (Value.ofOption x).Canonical P n ↔ ∀ v ∈ x, v.Canonical P n := by
  cases x <;> simp [Value.ofOption]

theorem canonical_object (h : ∀ f ∈ l, f.2.Canonical P n) :
    (Value.object l).Canonical P (n + 1) :=
  ⟨Nat.succ_pos n, keysSorted_fieldsOf l, canonicalFields_iff.2 fun f hf => h f (mem_fieldsOf hf)⟩

mutual
theorem Value.Canonical.mono (v : Value) (h : v.Canonical P n) (hle : n ≤ m) : v.Canonical P m := by
  cases v with
  | arr xs =>
    exact ⟨Nat.lt_of_lt_of_le h.1 hle, canonicalAll_mono xs h.2 (Nat.sub_le_sub_right hle 1)⟩
  | obj fs =>
    exact ⟨Nat.lt_of_lt_of_le h.1 hle, h.2.1,
      canonicalFields_mono fs h.2.2 (Nat.sub_le_sub_right hle 1)⟩
  | _ => exact h

theorem canonicalAll_mono (xs : List Value) (h : CanonicalAll P n xs) (hle : n ≤ m) :
    CanonicalAll P m xs := by
  cases xs with
  | nil => trivial
  | cons x xs => exact ⟨h.1.mono x hle, canonicalAll_mono xs h.2 hle⟩

theorem canonicalFields_mono (fs : Fields) (h : CanonicalFields P n fs) (hle : n ≤ m) :
    CanonicalFields P m fs := by
  cases fs with
  | nil => trivial
  | cons f fs => exact ⟨canonicalField_mono f h.1 hle, canonicalFields_mono fs h.2 hle⟩

theorem canonicalField_mono (f : String × Value) (h : CanonicalField P n f) (hle : n ≤ m) :
    CanonicalField P m f := by
  obtain ⟨k, v⟩ := f
  exact Value.Canonical.mono v h hle
end

end Json
