import UnidppTrust.Outcome
import UnidppTrust.Text

namespace Rust
set_option autoImplicit true

/-- One carriage return before the newline belongs to the line end. -/
def chomp (b : Bytes) : Bytes := if b.getLast? = some 13 then b.dropLast else b

def linesFrom (cur : Bytes) : Bytes → List Bytes
  | [] => if cur = [] then [] else [cur]
  | b :: bs => if b = 10 then chomp cur :: linesFrom [] bs else linesFrom (cur ++ [b]) bs

/-- The bytes of each item of `BufRead::lines`; a last line may lack its newline. -/
def lines (b : Bytes) : List Bytes := linesFrom [] b

theorem linesFrom_append (h : 10 ∉ t) (cur rest : Bytes) :
    linesFrom cur (t ++ rest) = linesFrom (cur ++ t) rest := by
  induction t generalizing cur with
  | nil => rw [List.nil_append, List.append_nil]
  | cons b t ih =>
    simp only [List.mem_cons, not_or] at h
    rw [List.cons_append, linesFrom, if_neg (Ne.symm h.1), ih h.2, List.append_assoc,
      List.singleton_append]

theorem chomp_eq (h : 13 ∉ t) : chomp t = t := if_neg fun hl => h (List.mem_of_getLast? hl)

theorem lines_cons (hn : 10 ∉ t) (hr : 13 ∉ t) (rest : Bytes) :
    lines (t ++ 10 :: rest) = t :: lines rest := by
  rw [lines, linesFrom_append hn, List.nil_append, linesFrom, if_pos rfl, chomp_eq hr]
  rfl

theorem lines_last (hn : 10 ∉ t) (h : t ≠ []) : lines t = [t] := by
  rw [← List.append_nil t, lines, linesFrom_append hn, List.nil_append, linesFrom, if_neg h,
    List.append_nil]

end Rust

namespace LineLog
open Rust
set_option autoImplicit true

/-- A log kept as one line of text for each entry. Reading a line finds an entry, skips the line,
or fails. -/
structure Format (ι ε : Type) where
  text : ε → Bytes
  read : Bytes → Outcome ι (Option ε)

variable {ι ε : Type} (F : Format ι ε)

def Format.file (es : List ε) : Bytes := es.flatMap fun e => F.text e ++ [10]

def Format.collect : List Bytes → Outcome ι (List ε)
  | [] => .ok []
  | l :: ls => do
    let found ← F.read l
    let es ← Format.collect ls
    .ok (found.toList ++ es)

def Format.recover (b : Bytes) : Outcome ι (List ε) := F.collect (lines b)

/-- The text of an entry is one nonempty line. -/
structure Format.OneLine (e : ε) : Prop where
  no_newline : 10 ∉ F.text e
  no_return : 13 ∉ F.text e
  nonempty : F.text e ≠ []

def Format.Reads (e : ε) : Prop := F.read (F.text e) = .ok (some e)

/-- Reading does not stop at the entry's line, whatever it finds there. -/
def Format.Passes (e : ε) : Prop := ∃ found, F.read (F.text e) = .ok found

def Format.found (e : ε) : Option ε :=
  match F.read (F.text e) with
  | .ok found => found
  | .error _ => none

variable {F}

theorem found_eq (h : F.read (F.text e) = .ok x) : F.found e = x := by
  rw [Format.found, h]

theorem reads_iff_found : F.Reads e ↔ F.found e = some e := by
  constructor
  · exact found_eq
  · intro h
    rw [Format.found] at h
    split at h
    · rename_i found hfound
      rw [Format.Reads, hfound, h]
    · cases h

theorem Format.Reads.passes (h : F.Reads e) : F.Passes e := ⟨_, h⟩

/-- All entries are found again only where each line reads back. -/
theorem reads_of_sublist {es : List ε} (h : es.Sublist (es.filterMap F.found)) :
    ∀ e ∈ es, F.Reads e := by
  have heq := h.eq_of_length_le (List.length_filterMap_le F.found es)
  clear h
  induction es with
  | nil => intro e he; cases he
  | cons e es ih =>
    rw [List.filterMap_cons] at heq
    split at heq
    · have hle := List.length_filterMap_le F.found es
      rw [← heq, List.length_cons] at hle
      omega
    · rename_i x hx
      obtain ⟨rfl, hrest⟩ := List.cons.inj heq
      exact List.forall_mem_cons.2 ⟨reads_iff_found.2 hx, ih hrest⟩

theorem filterMap_found {es : List ε} (h : ∀ e ∈ es, F.Reads e) : es.filterMap F.found = es := by
  rw [List.filterMap_congr fun e he => reads_iff_found.1 (h e he), List.filterMap_some]

@[simp] theorem Format.file_nil : F.file [] = [] := rfl

theorem Format.file_append (es fs : List ε) : F.file (es ++ fs) = F.file es ++ F.file fs :=
  List.flatMap_append

theorem lines_file (h : ∀ e ∈ es, F.OneLine e) (tail : Bytes) :
    lines (F.file es ++ tail) = es.map F.text ++ lines tail := by
  induction es with
  | nil => rfl
  | cons e es ih =>
    have he := h e List.mem_cons_self
    have hsplit : F.file (e :: es) ++ tail = F.text e ++ 10 :: (F.file es ++ tail) := by
      simp only [Format.file, List.flatMap_cons, List.append_assoc, List.cons_append,
        List.nil_append]
    rw [hsplit, lines_cons he.no_newline he.no_return,
      ih fun x hx => h x (List.mem_cons_of_mem e hx)]
    rfl

theorem collect_text {es : List ε} (hp : ∀ e ∈ es, F.Passes e) (ls : List Bytes) :
    F.collect (es.map F.text ++ ls) =
      (F.collect ls >>= fun fs => .ok (es.filterMap F.found ++ fs)) := by
  induction es with
  | nil =>
    simp only [List.map_nil, List.nil_append, List.filterMap_nil]
    cases F.collect ls <;> rfl
  | cons e es ih =>
    obtain ⟨found, he⟩ := hp e List.mem_cons_self
    rw [List.map_cons, List.cons_append, Format.collect, he, ok_bind,
      ih fun x hx => hp x (List.mem_cons_of_mem e hx), List.filterMap_cons, found_eq he]
    cases F.collect ls <;> cases found <;> rfl

/-- Whatever follows the lines of a file, what they hold is found first. -/
theorem recover_append (h : ∀ e ∈ es, F.OneLine e) (hp : ∀ e ∈ es, F.Passes e) (tail : Bytes) :
    F.recover (F.file es ++ tail) =
      (F.recover tail >>= fun fs => .ok (es.filterMap F.found ++ fs)) := by
  rw [Format.recover, lines_file h, collect_text hp]
  rfl

theorem recover_file (h : ∀ e ∈ es, F.OneLine e) (hp : ∀ e ∈ es, F.Passes e) :
    F.recover (F.file es) = .ok (es.filterMap F.found) := by
  have hf := recover_append h hp []
  rw [List.append_nil] at hf
  rw [hf]
  simp only [Format.recover, lines, linesFrom, if_true, Format.collect, ok_bind, List.append_nil]

theorem recover_reads (h : ∀ e ∈ es, F.OneLine e) (hr : ∀ e ∈ es, F.Reads e) :
    F.recover (F.file es) = .ok es := by
  rw [recover_file h fun e he => (hr e he).passes, filterMap_found hr]

theorem recover_last (hn : 10 ∉ p) (hp : p ≠ []) :
    F.recover p = (F.read p >>= fun found => .ok found.toList) := by
  rw [Format.recover, lines_last hn hp, Format.collect]
  simp only [Format.collect, ok_bind, List.append_nil]

theorem recover_line (hn : 10 ∉ t) (hr : 13 ∉ t) (rest : Bytes) :
    F.recover (t ++ 10 :: rest) =
      (F.read t >>= fun found => F.recover rest >>= fun es => .ok (found.toList ++ es)) := by
  rw [Format.recover, lines_cons hn hr, Format.collect]
  rfl

/-- No prefix of the entry's text, the whole included, with the text of `f` behind it is read as
an entry. -/
def Format.GlueFree (F : Format ι ε) (e f : ε) : Prop :=
  ∀ p q, F.text e = p ++ q → p ≠ [] → ∀ x, F.read (p ++ F.text f) ≠ .ok (some x)

/-- What is left of the last line after a crash. -/
inductive Format.Tail (F : Format ι ε) (e : ε) : Bytes → List ε → Prop where
  | lost : Format.Tail F e [] []
  | torn (p q : Bytes) (h : F.text e = p ++ q) (hp : p ≠ []) (hq : q ≠ []) : Format.Tail F e p []
  | whole : Format.Tail F e (F.text e) [e]
  | line : Format.Tail F e (F.text e ++ [10]) [e]

/-- Every cut of the last line leaves one of these tails. -/
theorem tail_of_prefix (h : F.text e ++ [10] = p ++ q) : ∃ es, F.Tail e p es := by
  rcases List.eq_nil_or_concat q with rfl | ⟨q, b, rfl⟩
  · rw [List.append_nil] at h
    subst h
    exact ⟨[e], .line⟩
  · rw [List.concat_eq_append, ← List.append_assoc] at h
    obtain ⟨h, -⟩ := List.append_inj' h rfl
    by_cases hp : p = []
    · subst hp
      exact ⟨[], .lost⟩
    by_cases hq : q = []
    · subst hq
      rw [List.append_nil] at h
      subst h
      exact ⟨[e], .whole⟩
    · exact ⟨[], .torn p q h hp hq⟩

def Format.Tail.Clean (_ : F.Tail e p es) : Prop := p = [] ∨ p = F.text e ++ [10]

theorem Format.Tail.open_line (ht : F.Tail e p es) (he : F.OneLine e) (hc : ¬ ht.Clean) :
    p ≠ [] ∧ 10 ∉ p ∧ 13 ∉ p ∧ ∃ q, F.text e = p ++ q := by
  cases ht with
  | lost => exact (hc (.inl rfl)).elim
  | torn p q h hp hq =>
    refine ⟨hp, fun hm => he.no_newline ?_, fun hm => he.no_return ?_, q, h⟩
    · exact h ▸ List.mem_append_left q hm
    · exact h ▸ List.mem_append_left q hm
  | whole => exact ⟨he.nonempty, he.no_newline, he.no_return, [], (List.append_nil _).symm⟩
  | line => exact (hc (.inr rfl)).elim

theorem recover_clean (ht : F.Tail e p es) (he : F.OneLine e) (hx : F.Passes e) (hc : ht.Clean)
    (hfs : ∀ f ∈ fs, F.OneLine f) (hps : ∀ f ∈ fs, F.Passes f) :
    F.recover (p ++ F.file fs) = .ok (es.filterMap F.found ++ fs.filterMap F.found) := by
  have hfile := recover_file hfs hps
  cases ht with
  | lost => exact hfile
  | torn p q h hp hq =>
    rcases hc with hc | hc
    · exact (hp hc).elim
    · have hl := congrArg List.length h
      simp only [hc, List.length_append, List.length_cons, List.length_nil] at hl
      omega
  | whole =>
    rcases hc with hc | hc
    · exact (he.nonempty hc).elim
    · have hl := congrArg List.length hc
      simp only [List.length_append, List.length_cons, List.length_nil] at hl
      omega
  | line =>
    have hline : F.text e ++ [10] = F.file [e] := by
      rw [Format.file, List.flatMap_singleton]
    rw [hline, recover_append (List.forall_mem_singleton.2 he) (List.forall_mem_singleton.2 hx),
      hfile, ok_bind]

/-- What is appended behind an open line is lost up to the first newline. -/
theorem recover_glued (ht : F.Tail e p es) (he : F.OneLine e) (hc : ¬ ht.Clean)
    (hfs : ∀ x ∈ f :: fs, F.OneLine x) (hps : ∀ x ∈ fs, F.Passes x) (hg : F.GlueFree e f) :
    F.recover (p ++ F.file (f :: fs)) = .ok (fs.filterMap F.found) ∨
      ∃ x, F.recover (p ++ F.file (f :: fs)) = .error x := by
  obtain ⟨hp, hn, hcr, q, hq⟩ := ht.open_line he hc
  have hf := hfs f List.mem_cons_self
  have hfile := recover_file (fun x hx => hfs x (List.mem_cons_of_mem f hx)) hps
  have hsplit : p ++ F.file (f :: fs) = (p ++ F.text f) ++ 10 :: F.file fs := by
    simp only [Format.file, List.flatMap_cons, List.append_assoc, List.cons_append,
      List.nil_append]
  have hno : 10 ∉ p ++ F.text f ∧ 13 ∉ p ++ F.text f := by
    simp only [List.mem_append, hn, hcr, hf.no_newline, hf.no_return, or_self, not_false_eq_true,
      and_self]
  rw [hsplit, recover_line hno.1 hno.2]
  cases hread : F.read (p ++ F.text f) with
  | error x => exact .inr ⟨x, rfl⟩
  | ok found =>
    cases found with
    | none =>
      rw [ok_bind, hfile]
      exact .inl rfl
    | some x => exact (hg p q hq hp x hread).elim

end LineLog
