import UnidppTrust.JsonRoundTrip
import Mathlib.Data.List.DropRight

namespace Json
set_option autoImplicit true

/-- Where a reader stands inside brackets: between tokens, in a string, or in an escape with so
many hex digits to come. -/
inductive Mode where
  | text
  | str
  | esc
  | hex (n : Nat)

/-- A reader of a bracketed text, `d` brackets deeper than the outermost one. -/
inductive Scan where
  | inside (d : Nat) (m : Mode)
  | closed
  | bad

def isPlain (c : Char) : Bool :=
  isWs c || isNumChar c || c == ',' || c == ':' ||
    ['t', 'r', 'u', 'e', 'f', 'a', 'l', 's', 'n'].contains c

def close : Nat → Scan
  | 0 => .closed
  | d + 1 => .inside d .text

def scanStep : Scan → Char → Scan
  | .inside d .text, c =>
    if c = '\"' then .inside d .str
    else if c = '[' ∨ c = '{' then .inside (d + 1) .text
    else if c = ']' ∨ c = '}' then close d
    else if isPlain c then .inside d .text
    else .bad
  | .inside d .str, c =>
    if c = '\"' then .inside d .text
    else if c = '\\' then .inside d .esc
    else .inside d .str
  | .inside d .esc, c =>
    if c = 'u' then .inside d (.hex 3)
    else if (simpleEsc c).isSome then .inside d .str
    else .bad
  | .inside d (.hex n), c =>
    if (hexVal c).isSome then
      match n with
      | 0 => .inside d .str
      | n + 1 => .inside d (.hex n)
    else .bad
  | .closed, c => if isWs c then .closed else .bad
  | .bad, _ => .bad

def scan (s : Scan) (cs : List Char) : Scan := cs.foldl scanStep s

@[simp] theorem scan_nil (s : Scan) : scan s [] = s := rfl

@[simp] theorem scan_cons (s : Scan) (c : Char) (cs : List Char) :
    scan s (c :: cs) = scan (scanStep s c) cs := rfl

theorem scan_append (s : Scan) (cs ds : List Char) : scan s (cs ++ ds) = scan (scan s cs) ds :=
  List.foldl_append

@[simp] theorem scan_bad (cs : List Char) : scan .bad cs = .bad := by
  induction cs with
  | nil => rfl
  | cons c cs ih => exact ih

theorem scan_closed (h : scan .closed cs = .closed) : ∀ c ∈ cs, isWs c = true := by
  induction cs with
  | nil => intro c hc; cases hc
  | cons x cs ih =>
    rw [scan_cons, scanStep] at h
    split at h
    · rename_i hx
      intro c hc
      rcases List.mem_cons.1 hc with rfl | hc
      · exact hx
      · exact ih h c hc
    · rw [scan_bad] at h
      cases h

theorem scan_plain (h : ∀ c ∈ pre, isPlain c = true) (d : Nat) (cs : List Char) :
    scan (.inside d .text) (pre ++ cs) = scan (.inside d .text) cs := by
  induction pre with
  | nil => rfl
  | cons c pre ih =>
    have hc := h c List.mem_cons_self
    have hstep : scanStep (.inside d .text) c = .inside d .text := by
      rw [scanStep, if_neg, if_neg, if_neg, if_pos hc]
      · rintro (rfl | rfl) <;> cases hc
      · rintro (rfl | rfl) <;> cases hc
      · rintro rfl; cases hc
    rw [List.cons_append, scan_cons, hstep]
    exact ih fun x hx => h x (List.mem_cons_of_mem c hx)

theorem scan_skipWs (d : Nat) (cs : List Char) :
    scan (.inside d .text) (skipWs cs) = scan (.inside d .text) cs := by
  have hplain : ∀ c ∈ cs.takeWhile isWs, isPlain c = true := fun c hc => by
    simp [isPlain, List.mem_takeWhile_imp hc]
  rw [← scan_plain hplain d (skipWs cs), skipWs, List.takeWhile_append_dropWhile]

theorem scan_blank (h : skipWs cs = []) (d : Nat) : scan (close d) cs = close d := by
  have hws : ∀ c ∈ cs, isWs c = true := List.dropWhile_eq_nil_iff.1 h
  cases d with
  | zero =>
    induction cs with
    | nil => rfl
    | cons c cs ih =>
      have hc := hws c List.mem_cons_self
      have hcs : skipWs cs = [] := by rwa [skipWs, List.dropWhile_cons_of_pos hc] at h
      rw [close, scan_cons, scanStep, if_pos hc]
      exact ih hcs fun x hx => hws x (List.mem_cons_of_mem c hx)
  | succ d => rw [close, ← scan_skipWs, h, scan_nil]

theorem scanStep_hex_succ (h : hexVal c = some x) :
    scanStep (.inside d (.hex (n + 1))) c = .inside d (.hex n) := by
  simp only [scanStep, h, Option.isSome_some, if_true]

theorem scanStep_hex_zero (h : hexVal c = some x) :
    scanStep (.inside d (.hex 0)) c = .inside d .str := by
  simp only [scanStep, h, Option.isSome_some, if_true]

theorem scan_parseStr (h : parseStr cs = some (xs, rest)) (d : Nat) :
    scan (.inside d .str) cs = scan (.inside d .text) rest := by
  fun_induction parseStr cs generalizing xs with
  | case1 => cases h
  | case2 cs => cases h; rfl
  | case3 a b c e cs ih =>
    obtain ⟨x, hx, h⟩ := Option.bind_eq_some_iff.1 h
    obtain ⟨⟨ys, r⟩, hr, h⟩ := Option.bind_eq_some_iff.1 h
    cases h
    simp only [unicodeEsc, Option.bind_eq_bind, Option.bind_eq_some_iff] at hx
    obtain ⟨na, ha, nb, hb, nc, hc, nd, hd, -⟩ := hx
    have hu : scanStep (scanStep (.inside d .str) '\\') 'u' = .inside d (.hex 3) := rfl
    rw [scan_cons, scan_cons, hu, scan_cons, scanStep_hex_succ ha, scan_cons,
      scanStep_hex_succ hb, scan_cons, scanStep_hex_succ hc, scan_cons, scanStep_hex_zero hd]
    exact ih hr
  | case4 c cs hu ih =>
    obtain ⟨x, hx, h⟩ := Option.bind_eq_some_iff.1 h
    obtain ⟨⟨ys, r⟩, hr, h⟩ := Option.bind_eq_some_iff.1 h
    cases h
    have hcu : c ≠ 'u' := by rintro rfl; cases hx
    have he : scanStep (scanStep (.inside d .str) '\\') c = .inside d .str := by
      rw [show scanStep (.inside d .str) '\\' = .inside d .esc from rfl, scanStep, if_neg hcu, hx]
      rfl
    rw [scan_cons, scan_cons, he]
    exact ih hr
  | case5 c cs => cases h
  | case6 c cs hq _ _ hc ih =>
    obtain ⟨⟨ys, r⟩, hr, h⟩ := Option.bind_eq_some_iff.1 h
    cases h
    have hb : c ≠ '\\' := fun hb => hc (.inr hb)
    have hstep : scanStep (.inside d .str) c = .inside d .str := by
      rw [scanStep, if_neg hq, if_neg hb]
    rw [scan_cons, hstep]
    exact ih hr

theorem scan_parseNumber (h : parseNumber cs = some (v, rest)) (d : Nat) :
    scan (.inside d .text) cs = scan (.inside d .text) rest := by
  unfold parseNumber at h
  split at h
  · cases h
    have hplain : ∀ c ∈ cs.takeWhile isNumChar, isPlain c = true := fun c hc => by
      simp [isPlain, List.mem_takeWhile_imp hc]
    rw [← scan_plain hplain d (cs.dropWhile isNumChar), List.takeWhile_append_dropWhile]
  · cases h

theorem scan_word (w : List Char) (h : skipWs cs = w ++ rest) (hw : w.all isPlain = true)
    (d : Nat) : scan (.inside d .text) cs = scan (.inside d .text) rest := by
  rw [← scan_skipWs, h, scan_plain (List.all_eq_true.1 hw)]

theorem scan_token (h : skipWs cs = c :: rest) (d : Nat) :
    scan (.inside d .text) cs = scan (scanStep (.inside d .text) c) rest := by
  rw [← scan_skipWs, h, scan_cons]

/-- What a parser consumes, the reader reads back to where it stood. -/
structure Scanned (n : Nat) : Prop where
  value : ∀ {cs v rest}, parseValue n cs = some (v, rest) →
    ∀ d, scan (.inside d .text) cs = scan (.inside d .text) rest
  items : ∀ {cs xs rest}, parseItems n cs = some (xs, rest) →
    ∀ d, scan (.inside d .text) cs = scan (close d) rest
  fields : ∀ {cs fs rest}, parseFields n cs = some (fs, rest) →
    ∀ d, scan (.inside d .text) cs = scan (close d) rest
  field : ∀ {cs f rest}, parseField n cs = some (f, rest) →
    ∀ d, scan (.inside d .text) cs = scan (.inside d .text) rest

theorem Scanned.items_succ (ih : Scanned n) (h : parseItems (n + 1) cs = some (xs, rest))
    (d : Nat) : scan (.inside d .text) cs = scan (close d) rest := by
  simp only [parseItems] at h
  split at h
  · rename_i hcs
    cases h
    rw [scan_token hcs]
    rfl
  · rename_i hcs
    obtain ⟨⟨x, r⟩, hx, h⟩ := Option.bind_eq_some_iff.1 h
    obtain ⟨⟨ys, r'⟩, hys, h⟩ := Option.bind_eq_some_iff.1 h
    cases h
    rw [scan_token hcs]
    exact (ih.value hx d).trans (ih.items hys d)
  · cases h

theorem Scanned.fields_succ (ih : Scanned n) (h : parseFields (n + 1) cs = some (fs, rest))
    (d : Nat) : scan (.inside d .text) cs = scan (close d) rest := by
  simp only [parseFields] at h
  split at h
  · rename_i hcs
    cases h
    rw [scan_token hcs]
    rfl
  · rename_i hcs
    obtain ⟨⟨f, r⟩, hf, h⟩ := Option.bind_eq_some_iff.1 h
    obtain ⟨⟨gs, r'⟩, hgs, h⟩ := Option.bind_eq_some_iff.1 h
    cases h
    rw [scan_token hcs]
    exact (ih.field hf d).trans (ih.fields hgs d)
  · cases h

theorem Scanned.field_succ (ih : Scanned n) (h : parseField (n + 1) cs = some (f, rest))
    (d : Nat) : scan (.inside d .text) cs = scan (.inside d .text) rest := by
  simp only [parseField] at h
  split at h
  · rename_i hcs
    obtain ⟨⟨k, r⟩, hk, h⟩ := Option.bind_eq_some_iff.1 h
    split at h
    · rename_i hr
      obtain ⟨⟨v, r'⟩, hv, h⟩ := Option.bind_eq_some_iff.1 h
      cases h
      rw [scan_token hcs]
      apply (scan_parseStr hk d).trans
      rw [scan_token hr]
      exact ih.value hv d
    · cases h
  · cases h

theorem Scanned.brace (ih : Scanned n) (h : parseValue (n + 1) ('{' :: cs) = some (v, rest))
    (d : Nat) : scan (.inside d .text) cs = scan (close d) rest := by
  simp only [parseValue, skipWs_cons (show isWs '{' = false from rfl)] at h
  split at h
  · rename_i hcs
    cases h
    rw [scan_token hcs]
    rfl
  · obtain ⟨⟨f, r⟩, hf, h⟩ := Option.bind_eq_some_iff.1 h
    obtain ⟨⟨gs, r'⟩, hgs, h⟩ := Option.bind_eq_some_iff.1 h
    cases h
    rw [← scan_skipWs]
    exact (ih.field hf d).trans (ih.fields hgs d)

theorem Scanned.bracket (ih : Scanned n) (h : parseValue (n + 1) ('[' :: cs) = some (v, rest))
    (d : Nat) : scan (.inside d .text) cs = scan (close d) rest := by
  simp only [parseValue, skipWs_cons (show isWs '[' = false from rfl)] at h
  split at h
  · rename_i hcs
    cases h
    rw [scan_token hcs]
    rfl
  · obtain ⟨⟨x, r⟩, hx, h⟩ := Option.bind_eq_some_iff.1 h
    obtain ⟨⟨ys, r'⟩, hys, h⟩ := Option.bind_eq_some_iff.1 h
    cases h
    rw [← scan_skipWs]
    exact (ih.value hx d).trans (ih.items hys d)

theorem Scanned.value_succ (ih : Scanned n) (h : parseValue (n + 1) cs = some (v, rest))
    (d : Nat) : scan (.inside d .text) cs = scan (.inside d .text) rest := by
  have hself : parseValue (n + 1) cs = parseValue (n + 1) (skipWs cs) :=
    parseValue_congr (List.dropWhile_idempotent isWs cs).symm (n + 1)
  have h' := h
  simp only [parseValue] at h
  split at h
  · rename_i hcs
    cases h
    exact scan_word ['n', 'u', 'l', 'l'] hcs (by decide) d
  · rename_i hcs
    cases h
    exact scan_word ['t', 'r', 'u', 'e'] hcs (by decide) d
  · rename_i hcs
    cases h
    exact scan_word ['f', 'a', 'l', 's', 'e'] hcs (by decide) d
  · rename_i hcs
    obtain ⟨⟨xs, r⟩, hxs, h⟩ := Option.bind_eq_some_iff.1 h
    cases h
    rw [scan_token hcs]
    exact scan_parseStr hxs d
  · rename_i hcs
    rw [hself, hcs] at h'
    rw [scan_token hcs]
    exact ih.bracket h' (d + 1)
  · rename_i hcs
    rw [hself, hcs] at h'
    rw [scan_token hcs]
    exact ih.brace h' (d + 1)
  · rw [← scan_skipWs]
    exact scan_parseNumber h d

theorem scanned (n : Nat) : Scanned n := by
  induction n with
  | zero =>
    refine ⟨?_, ?_, ?_, ?_⟩
    all_goals intro cs v rest h; cases h
  | succ n ih => exact ⟨ih.value_succ, ih.items_succ, ih.fields_succ, ih.field_succ⟩

/-- A text that parses and starts with a brace is closed at its end, and read inside brackets it
leaves the reader one bracket further out. -/
theorem scan_of_parse (h : parse ('{' :: cs) = some v) (d : Nat) :
    scan (.inside d .text) cs = close d := by
  obtain ⟨⟨w, rest⟩, hw, h⟩ := Option.bind_eq_some_iff.1 h
  simp only [Option.ite_none_right_eq_some] at h
  rw [(scanned _).brace hw d, scan_blank h.1 d]

theorem scan_prefix (h : scan s (p ++ q) = .closed) (hq : ∃ c ∈ q, isWs c = false) :
    ∃ d m, scan s p = .inside d m := by
  rw [scan_append] at h
  cases hp : scan s p with
  | inside d m => exact ⟨d, m, rfl⟩
  | closed =>
    rw [hp] at h
    obtain ⟨c, hc, hws⟩ := hq
    rw [scan_closed h c hc] at hws
    cases hws
  | bad =>
    rw [hp, scan_bad] at h
    cases h

/-- A text inside which an object text follows, the first key starting with a letter that starts
no token, is not closed by it. -/
theorem scan_glue (hr : ∀ d, scan (.inside d .text) ('\"' :: k :: r) = close d)
    (hk : scanStep (.inside 0 .text) k = .bad) (d : Nat) (m : Mode) :
    scan (.inside d m) ('{' :: '\"' :: k :: r) ≠ .closed := by
  have hk : scanStep (.inside d .text) k = .bad := by
    simp only [scanStep] at hk ⊢
    split at hk <;> try cases hk
    split at hk <;> try cases hk
    split at hk <;> try cases hk
    split at hk
    · cases hk
    · simp_all
  cases m with
  | text =>
    rw [scan_cons, show scanStep (.inside d .text) '{' = .inside (d + 1) .text from rfl, hr]
    intro h
    cases h
  | str =>
    have hs : scanStep (scanStep (.inside d .str) '{') '\"' = .inside d .text := rfl
    rw [scan_cons, scan_cons, hs, scan_cons, hk, scan_bad]
    intro h
    cases h
  | esc =>
    rw [scan_cons, show scanStep (.inside d .esc) '{' = .bad from rfl, scan_bad]
    intro h
    cases h
  | hex n =>
    rw [scan_cons, show scanStep (.inside d (.hex n)) '{' = .bad from rfl, scan_bad]
    intro h
    cases h

end Json
