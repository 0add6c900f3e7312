import UnidppTrust.Outcome
import UnidppTrust.Text
import Mathlib.Algebra.Ring.Nat
import Mathlib.Logic.Relation

namespace UnidppTrust
open Rust
set_option autoImplicit true

/-- A slice is shorter than `isize::MAX` bytes. -/
abbrev Slice := { b : Bytes // b.length < 2 ^ 63 }

/-- Addition of a `usize`, which aborts on overflow in a build with checks, and wraps in one
without. -/
def addUsize (checks : Bool) (a b : Nat) : Outcome ε Nat :=
  if a + b < 2 ^ 64 then .ok (a + b)
  else if checks then abort
  else .ok ((a + b) % 2 ^ 64)

def subslice (b : Bytes) (i j : Nat) : Outcome ε Bytes :=
  if i ≤ j ∧ j ≤ b.length then .ok ((b.take j).drop i) else abort

def findSubslice (needle : Bytes) : Bytes → Option Nat
  | [] => none
  | b :: bs => if needle.isPrefixOf (b :: bs) then some 0
    else (findSubslice needle bs).map (· + 1)

def crlf : Bytes := [13, 10]

def toDigit (c : Char) : Option Nat :=
  if '0' ≤ c ∧ c ≤ '9' then some (c.toNat - 48)
  else if 'a' ≤ c ∧ c ≤ 'f' then some (c.toNat - 87)
  else if 'A' ≤ c ∧ c ≤ 'F' then some (c.toNat - 55)
  else none

def hexValue (n : Nat) : List Char → Option Nat
  | [] => some n
  | c :: cs => (toDigit c).bind fun d => hexValue (16 * n + d) cs

def withoutPlus : List Char → List Char
  | '+' :: ds => ds
  | ds => ds

/-- `usize::from_str_radix` at 16: digits after at most one plus sign, within 64 bits. -/
def usizeFromHex (s : String) : Option Nat :=
  let digits := withoutPlus s.toList
  if digits.isEmpty then none else (hexValue 0 digits).filter fun n => n < 2 ^ 64

def beforeSemicolon (s : String) : String := String.ofList (s.toList.takeWhile fun c => c ≠ ';')

def declaredSize (header : Bytes) : Outcome String Nat := do
  let sizeStr ← okOr (fromUtf8 header) "bad chunk header"
  let sizeHex := trim (beforeSemicolon sizeStr)
  okOr (usizeFromHex sizeHex) ("bad chunk size `" ++ sizeHex ++ "`")

def chunkHeader (checks : Bool) (raw : Bytes) (pos : Nat) : Outcome String (Nat × Nat) := do
  let rest ← subslice raw pos raw.length
  let i ← okOr (findSubslice crlf rest) "incomplete chunk header"
  let lineEnd ← addUsize checks i pos
  let header ← subslice raw pos lineEnd
  let size ← declaredSize header
  let pos ← addUsize checks lineEnd 2
  .ok (pos, size)

/-- The data of a chunk, and where the next one starts; of the trailer only the length is
checked. -/
def chunkData (checks : Bool) (raw : Bytes) (pos size : Nat) : Outcome String (Bytes × Nat) := do
  let dataEnd ← addUsize checks pos size
  if dataEnd > raw.length then fail "incomplete chunk data"
  let data ← subslice raw pos dataEnd
  let next ← addUsize checks dataEnd 2
  if raw.length < next then fail "incomplete chunk trailer"
  .ok (data, next)

def nextChunk (checks : Bool) (raw : Bytes) (pos : Nat) :
    Outcome String (Option (Bytes × Nat)) := do
  let (start, size) ← chunkHeader checks raw pos
  if size = 0 then .ok none
  else
    let found ← chunkData checks raw start size
    .ok (some found)

variable {checks : Bool} {raw : Bytes}

theorem addUsize_eq (h : a + b < 2 ^ 64) : (addUsize checks a b : Outcome ε Nat) = .ok (a + b) :=
  if_pos h

theorem subslice_eq {b : Bytes} (h : i ≤ j ∧ j ≤ b.length) :
    (subslice b i j : Outcome ε Bytes) = .ok ((b.take j).drop i) := if_pos h

theorem findSubslice_some {b : Bytes} (h : findSubslice needle b = some i) :
    needle <+: b.drop i := by
  induction b generalizing i with
  | nil => cases h
  | cons x xs ih =>
    rw [findSubslice] at h
    split at h
    · rename_i hp
      cases h
      exact List.isPrefixOf_iff_prefix.1 hp
    · obtain ⟨j, hj, rfl⟩ := Option.map_eq_some_iff.1 h
      exact ih hj

theorem findSubslice_crlf {b : Bytes} (h : findSubslice crlf b = some i) : i + 2 ≤ b.length := by
  have hle := (findSubslice_some h).length_le
  rw [List.length_drop] at hle
  change 2 ≤ b.length - i at hle
  omega

/-- A header that is complete at `pos`: the start of its data, and the size it declares. -/
def Header (raw : Bytes) (pos start size : Nat) : Prop :=
  ∃ i, findSubslice crlf (raw.drop pos) = some i ∧
    declaredSize ((raw.drop pos).take i) = .ok size ∧ start = pos + i + 2

theorem chunkHeader_eq (hraw : raw.length < 2 ^ 63) (hpos : pos ≤ raw.length) :
    chunkHeader checks raw pos =
      okOr (findSubslice crlf (raw.drop pos)) "incomplete chunk header" >>= fun i =>
        declaredSize ((raw.drop pos).take i) >>= fun size => .ok (pos + i + 2, size) := by
  rw [chunkHeader, subslice_eq ⟨hpos, Nat.le_refl _⟩, ok_bind, List.take_length]
  cases hi : findSubslice crlf (raw.drop pos) with
  | none => rfl
  | some i =>
    have hfound := findSubslice_crlf hi
    rw [List.length_drop] at hfound
    have hline : (raw.take (i + pos)).drop pos = (raw.drop pos).take i := by
      rw [List.drop_take, Nat.add_sub_cancel]
    rw [okOr_some, ok_bind, ok_bind, addUsize_eq (by omega), ok_bind,
      subslice_eq ⟨by omega, by omega⟩, ok_bind, hline, addUsize_eq (by omega), Nat.add_comm i pos]
    rfl

/-- What becomes of the data of a chunk: it is whole, or it is awaited, or its end overflows; that
lies before its start then, if the addition does not abort at once. -/
theorem chunkData_cases (checks : Bool) (hraw : raw.length < 2 ^ 63) (hpos : pos ≤ raw.length)
    (hsize : size < 2 ^ 64) :
    (pos + size + 2 ≤ raw.length ∧
      chunkData checks raw pos size = .ok ((raw.drop pos).take size, pos + size + 2)) ∨
    (raw.length < pos + size + 2 ∧ pos + size < 2 ^ 64 ∧
      ∃ e, chunkData checks raw pos size = fail e) ∨
    (2 ^ 64 ≤ pos + size ∧ chunkData checks raw pos size = abort) := by
  rw [chunkData]
  dsimp only
  rcases Nat.lt_or_ge (pos + size) (2 ^ 64) with hfits | hover
  · have hslice : (raw.take (pos + size)).drop pos = (raw.drop pos).take size := by
      rw [List.drop_take, Nat.add_sub_cancel_left]
    rw [addUsize_eq hfits, ok_bind]
    rcases Nat.lt_or_ge raw.length (pos + size) with hdata | hdata
    · rw [if_pos hdata]
      exact .inr (.inl ⟨by omega, hfits, _, rfl⟩)
    rw [if_neg (Nat.not_lt.2 hdata), subslice_eq ⟨by omega, hdata⟩, ok_bind, hslice,
      addUsize_eq (by omega), ok_bind]
    rcases Nat.lt_or_ge raw.length (pos + size + 2) with htrailer | htrailer
    · rw [if_pos htrailer]
      exact .inr (.inl ⟨htrailer, hfits, _, rfl⟩)
    · rw [if_neg (Nat.not_lt.2 htrailer)]
      exact .inl ⟨htrailer, rfl⟩
  · refine .inr (.inr ⟨hover, ?_⟩)
    cases checks with
    | true =>
      rw [addUsize, if_neg (Nat.not_lt.2 hover), if_pos rfl]
      rfl
    | false =>
      have hwrapped : (pos + size) % 2 ^ 64 < pos := by omega
      have hnot : ¬ (pos + size) % 2 ^ 64 > raw.length := by omega
      rw [addUsize, if_neg (Nat.not_lt.2 hover), if_neg Bool.false_ne_true, ok_bind, if_neg hnot,
        subslice, if_neg (by omega)]
      rfl

theorem usizeFromHex_lt (h : usizeFromHex s = some n) : n < 2 ^ 64 := by
  unfold usizeFromHex at h
  dsimp only at h
  split at h
  · cases h
  · exact of_decide_eq_true (Option.filter_eq_some_iff.1 h).2

theorem declaredSize_lt (h : declaredSize header = .ok size) : size < 2 ^ 64 := by
  obtain ⟨text, -, h⟩ := bind_eq_ok h
  exact usizeFromHex_lt (okOr_eq_ok h)

theorem returns_declaredSize (header : Bytes) : Returns (declaredSize header) :=
  (returns_okOr _ _).bind fun _ _ => returns_okOr _ _

theorem subslice_ok {b s : Bytes} (h : (subslice b i j : Outcome ε Bytes) = .ok s) :
    i ≤ j ∧ j ≤ b.length := by
  unfold subslice at h
  split at h
  · assumption
  · cases h

theorem nextChunk_pos (h : nextChunk checks raw pos = .ok found) : pos ≤ raw.length := by
  obtain ⟨p, hheader, -⟩ := bind_eq_ok h
  obtain ⟨rest, hrest, -⟩ := bind_eq_ok hheader
  exact (subslice_ok hrest).1

/-- A chunk that is complete at `pos`, with the position after it. -/
def Follows (raw : Bytes) (pos next : Nat) : Prop :=
  ∃ start size, Header raw pos start size ∧ size ≠ 0 ∧ next = start + size + 2 ∧
    next ≤ raw.length

/-- A header that is complete at `pos`, of a chunk whose end 64 bits do not hold. -/
def Overflows (raw : Bytes) (pos : Nat) : Prop :=
  ∃ start size, Header raw pos start size ∧ 2 ^ 64 ≤ start + size

theorem Header.unique (h : Header raw pos start size) (h' : Header raw pos start' size') :
    start' = start ∧ size' = size := by
  obtain ⟨i, hi, hsize, rfl⟩ := h
  obtain ⟨i', hi', hsize', rfl⟩ := h'
  rw [hi, Option.some.injEq] at hi'
  subst hi'
  rw [hsize] at hsize'
  exact ⟨rfl, (Except.ok.inj hsize').symm⟩

theorem Header.bounds (h : Header raw pos start size) :
    pos + 2 ≤ start ∧ start ≤ raw.length ∧ size < 2 ^ 64 := by
  obtain ⟨i, hi, hsize, rfl⟩ := h
  have hfound := findSubslice_crlf hi
  rw [List.length_drop] at hfound
  exact ⟨by omega, by omega, declaredSize_lt hsize⟩

theorem nextChunk_header (checks : Bool) (hraw : raw.length < 2 ^ 63)
    (h : Header raw pos start size) : nextChunk checks raw pos = if size = 0 then .ok none
      else chunkData checks raw start size >>= fun found => .ok (some found) := by
  have hbounds := h.bounds
  obtain ⟨i, hi, hsize, rfl⟩ := h
  rw [nextChunk, chunkHeader_eq hraw (by omega), hi, okOr_some, ok_bind, hsize, ok_bind, ok_bind]

theorem nextChunk_no_header (checks : Bool) (hraw : raw.length < 2 ^ 63) (hpos : pos ≤ raw.length)
    (h : ∀ start size, ¬ Header raw pos start size) : ∃ e, nextChunk checks raw pos = fail e := by
  rw [nextChunk, chunkHeader_eq hraw hpos]
  cases hi : findSubslice crlf (raw.drop pos) with
  | none => exact ⟨_, rfl⟩
  | some i =>
    rw [okOr_some, ok_bind]
    cases hsize : declaredSize ((raw.drop pos).take i) with
    | ok size => exact (h _ size ⟨i, hi, hsize, rfl⟩).elim
    | error e =>
      cases e with
      | err e => exact ⟨e, rfl⟩
      | abort => exact (returns_declaredSize _ hsize).elim

/-- All a round of the loop can do: go on to the next chunk, or end, or fail, or abort on a chunk
that overflows. -/
theorem nextChunk_cases (checks : Bool) (hraw : raw.length < 2 ^ 63) (hpos : pos ≤ raw.length) :
    (∃ next data, nextChunk checks raw pos = .ok (some (data, next)) ∧ Follows raw pos next ∧
      ¬ Overflows raw pos) ∨
    ((nextChunk checks raw pos = .ok none ∨ ∃ e, nextChunk checks raw pos = fail e) ∧
      (∀ next, ¬ Follows raw pos next) ∧ ¬ Overflows raw pos) ∨
    (nextChunk checks raw pos = abort ∧ Overflows raw pos) := by
  rcases Classical.em (∃ start size, Header raw pos start size) with ⟨start, size, h⟩ | hno
  · obtain ⟨hstart, hlen, hsize⟩ := h.bounds
    have hround := nextChunk_header checks hraw h
    have hfollows (next : Nat) (hn : Follows raw pos next) :
        size ≠ 0 ∧ start + size + 2 ≤ raw.length := by
      obtain ⟨start', size', h', hne, rfl, hle⟩ := hn
      obtain ⟨rfl, rfl⟩ := h.unique h'
      exact ⟨hne, hle⟩
    have hover (ho : Overflows raw pos) : 2 ^ 64 ≤ start + size := by
      obtain ⟨start', size', h', hle⟩ := ho
      obtain ⟨rfl, rfl⟩ := h.unique h'
      exact hle
    rcases Decidable.em (size = 0) with rfl | hne
    · rw [if_pos rfl] at hround
      have hno : ¬ Overflows raw pos := fun ho => by have := hover ho; omega
      exact .inr (.inl ⟨.inl hround, fun next hn => (hfollows next hn).1 rfl, hno⟩)
    rw [if_neg hne] at hround
    rcases chunkData_cases checks hraw hlen hsize with
      ⟨hwhole, hdata⟩ | ⟨hshort, hfits, e, hdata⟩ | ⟨hlarge, hdata⟩
    · rw [hdata, ok_bind] at hround
      have hno : ¬ Overflows raw pos := fun ho => by have := hover ho; omega
      exact .inl ⟨_, _, hround, ⟨start, size, h, hne, rfl, hwhole⟩, hno⟩
    · rw [hdata] at hround
      exact .inr (.inl ⟨.inr ⟨e, hround⟩, fun next hn => Nat.not_le.2 hshort (hfollows next hn).2,
        fun ho => Nat.not_le.2 hfits (hover ho)⟩)
    · rw [hdata] at hround
      exact .inr (.inr ⟨hround, start, size, h, hlarge⟩)
  · have hno' (start size : Nat) : ¬ Header raw pos start size := fun h => hno ⟨start, size, h⟩
    refine .inr (.inl ⟨.inr (nextChunk_no_header checks hraw hpos hno'), ?_, ?_⟩)
    · rintro next ⟨start, size, h, -⟩
      exact hno' start size h
    · rintro ⟨start, size, h, -⟩
      exact hno' start size h

theorem Follows.bounds (h : Follows raw pos next) : pos < next ∧ next ≤ raw.length := by
  obtain ⟨start, size, hheader, -, rfl, hle⟩ := h
  have hbounds := hheader.bounds
  omega

theorem nextChunk_advances (hraw : raw.length < 2 ^ 63)
    (h : nextChunk checks raw pos = .ok (some (data, next))) : Follows raw pos next := by
  rcases nextChunk_cases checks hraw (nextChunk_pos h) with
    ⟨next', data', h', hfollows, -⟩ | ⟨h' | ⟨e, h'⟩, -⟩ | ⟨h', -⟩
  · rw [h'] at h
    cases h
    exact hfollows
  · rw [h'] at h
    cases h
  · rw [h'] at h
    cases h
  · rw [h'] at h
    cases h

def decodeFrom (checks : Bool) (raw : Slice) (pos : Nat) (out : Bytes) : Outcome String Bytes :=
  match _h : nextChunk checks raw.1 pos with
  | .error e => .error e
  | .ok none => .ok out
  | .ok (some (data, next)) => decodeFrom checks raw next (out ++ data)
termination_by raw.1.length - pos
decreasing_by
  have hnext := (nextChunk_advances raw.2 _h).bounds
  omega

theorem decodeFrom_eq (checks : Bool) (raw : Slice) (pos : Nat) (out : Bytes) :
    decodeFrom checks raw pos out =
      match nextChunk checks raw.1 pos with
      | .error e => .error e
      | .ok none => .ok out
      | .ok (some (data, next)) => decodeFrom checks raw next (out ++ data) := by
  rw [decodeFrom]
  split
  · rename_i h
    rw [h]
  · rename_i h
    rw [h]
  · rename_i h
    rw [h]

def decodeChunkedBody (checks : Bool) (raw : Slice) : Outcome String Bytes :=
  decodeFrom checks raw 0 []

theorem Follows.unique (h : Follows raw pos next) (h' : Follows raw pos next') : next' = next := by
  obtain ⟨start, size, hheader, -, rfl, -⟩ := h
  obtain ⟨start', size', hheader', -, rfl, -⟩ := h'
  obtain ⟨rfl, rfl⟩ := hheader.unique hheader'
  rfl

open Relation in
theorem overflowing_step (h : ¬ Overflows raw pos) :
    (∃ last, ReflTransGen (Follows raw) pos last ∧ Overflows raw last) ↔
      ∃ next, Follows raw pos next ∧
        ∃ last, ReflTransGen (Follows raw) next last ∧ Overflows raw last := by
  constructor
  · rintro ⟨last, hreach, hover⟩
    rcases hreach.cases_head with rfl | ⟨next, hfollows, hreach⟩
    · exact (h hover).elim
    · exact ⟨next, hfollows, last, hreach, hover⟩
  · rintro ⟨next, hfollows, last, hreach, hover⟩
    exact ⟨last, hreach.head hfollows, hover⟩

theorem decodeFrom_abort (raw : Slice) (hpos : pos ≤ raw.1.length) (out : Bytes) :
    decodeFrom checks raw pos out = abort ↔
      ∃ last, Relation.ReflTransGen (Follows raw.1) pos last ∧ Overflows raw.1 last := by
  induction hn : raw.1.length - pos using Nat.strongRecOn generalizing pos out with
  | _ n ih =>
    rcases nextChunk_cases checks raw.2 hpos with
      ⟨next, data, h, hfollows, hover⟩ | ⟨hend, hno, hover⟩ | ⟨h, hover⟩
    · have hbounds := hfollows.bounds
      rw [decodeFrom_eq, h, overflowing_step hover]
      dsimp only
      rw [ih _ (by omega) hbounds.2 (out ++ data) rfl]
      constructor
      · intro hlast
        exact ⟨next, hfollows, hlast⟩
      · rintro ⟨next', hfollows', hlast⟩
        rwa [hfollows.unique hfollows'] at hlast
    · rw [overflowing_step hover]
      constructor
      · intro ha
        rw [decodeFrom_eq] at ha
        rcases hend with h | ⟨e, h⟩
        · rw [h] at ha
          cases ha
        · rw [h] at ha
          cases ha
      · rintro ⟨next, hnext, -⟩
        exact (hno next hnext).elim
    · rw [decodeFrom_eq, h]
      exact ⟨fun _ => ⟨pos, .refl, hover⟩, fun _ => rfl⟩

end UnidppTrust
