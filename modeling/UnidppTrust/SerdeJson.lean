import UnidppTrust.JsonScan
import UnidppTrust.JsonShape

namespace Json
set_option autoImplicit true

/-- The JSON reader of a build: `from_str`, with its error text, and the literals the printer
uses for numbers that are no unsigned integer. -/
structure Serde where
  fromStr : String → Except String Value
  printed : List Char → Prop

/-- What is relied on: printing is undone by reading, up to the depth that the reader takes, and an
accepted text that starts with a brace is closed at its end. -/
structure Serde.Lawful (J : Serde) : Prop where
  round_trip : ∀ v, v.Canonical J.printed 127 → J.fromStr v.toString = .ok v
  closed : ∀ s v cs, J.fromStr s = .ok v → s.toList = '{' :: cs →
    scan (.inside 0 .text) cs = .closed

def Serde.reference : Serde where
  fromStr s :=
    match parse s.toList with
    | some v => .ok v
    | none => .error "expected value"
  printed := fun _ => True

theorem Serde.reference_lawful : Serde.reference.Lawful where
  round_trip v hv := by
    simp only [Serde.reference, Value.toString, String.toList_ofList, parse_render .compact v hv]
  closed s v cs h hs := by
    simp only [Serde.reference, hs] at h
    split at h
    · rename_i w hw
      exact scan_of_parse hw 0
    · cases h

/-- An object whose first key begins with a letter that begins no token. -/
def Marked (v : Value) : Prop :=
  ∃ k w fs c cs, v = .obj ((k, w) :: fs) ∧ k.toList = c :: cs ∧ escChar c = [c] ∧
    scanStep (.inside 0 .text) c = .bad

variable {J : Serde}

theorem Marked.text (h : Marked v) (hv : v.Canonical P n) :
    ∃ c r r', v.toString.toList = '{' :: '\"' :: c :: r ∧ '\"' :: c :: r = r' ++ ['}'] ∧
      scanStep (.inside 0 .text) c = .bad ∧
      ∀ d, scan (.inside d .text) ('\"' :: c :: r) = close d := by
  obtain ⟨k, w, fs, c, cs, rfl, hk, he, hc⟩ := h
  obtain ⟨r, hr, r', rfl⟩ := render_obj_cons .compact 0 k w fs
  simp only [hk, List.flatMap_cons, he, Layout.sep, List.nil_append, List.cons_append] at hr
  have hparse := parse_render .compact _ hv
  rw [hr] at hparse
  refine ⟨c, _, '\"' :: c :: (cs.flatMap escChar ++ r'), ?_, ?_, hc, scan_of_parse hparse⟩
  · rw [Value.toString, String.toList_ofList, hr]
  · simp only [List.cons_append, List.append_assoc]

/-- No text short of its last character is accepted. -/
theorem Serde.Lawful.torn (hJ : J.Lawful) (h : Marked v) (hv : v.Canonical P n)
    (hp : v.toString.toList = p ++ q) (hp0 : p ≠ []) (hq0 : q ≠ []) :
    ∃ e, J.fromStr (String.ofList p) = .error e := by
  obtain ⟨c, r, r', htext, hlast, -, hscan⟩ := h.text hv
  obtain ⟨x, p, rfl⟩ := List.exists_cons_of_ne_nil hp0
  rw [htext, List.cons_append, List.cons.injEq] at hp
  obtain ⟨rfl, hp⟩ := hp
  have hq : ∃ c ∈ q, isWs c = false := by
    refine ⟨'}', ?_, rfl⟩
    have hl := congrArg List.getLast? (hlast.symm.trans hp)
    rw [List.getLast?_append_of_ne_nil _ hq0, List.getLast?_concat] at hl
    exact List.mem_of_getLast? hl.symm
  have hclosed : scan (.inside 0 .text) (p ++ q) = .closed := hp ▸ hscan 0
  obtain ⟨d, m, hin⟩ := scan_prefix hclosed hq
  cases hf : J.fromStr (String.ofList ('{' :: p)) with
  | error e => exact ⟨e, rfl⟩
  | ok w =>
    have hc := hJ.closed _ w p hf String.toList_ofList
    rw [hin] at hc
    cases hc

/-- Nor is a text, torn or whole, that an object's text follows. -/
theorem Serde.Lawful.glued (hJ : J.Lawful) (h : Marked v) (hv : v.Canonical P n) (hw : Marked w)
    (hwc : w.Canonical Q m) (hp : v.toString.toList = p ++ q) (hp0 : p ≠ []) :
    ∃ e, J.fromStr (String.ofList (p ++ w.toString.toList)) = .error e := by
  obtain ⟨c, r, r', htext, hlast, -, hscan⟩ := h.text hv
  obtain ⟨k, s, s', hwtext, -, hk, hwscan⟩ := hw.text hwc
  obtain ⟨x, p, rfl⟩ := List.exists_cons_of_ne_nil hp0
  rw [htext, List.cons_append, List.cons.injEq] at hp
  obtain ⟨rfl, hp⟩ := hp
  cases hf : J.fromStr (String.ofList (('{' :: p) ++ w.toString.toList)) with
  | error e => exact ⟨e, rfl⟩
  | ok u =>
    have hc := hJ.closed _ u (p ++ w.toString.toList) hf String.toList_ofList
    rw [scan_append, hwtext] at hc
    have hclosed : scan (scan (.inside 0 .text) p) q = .closed := by
      rw [← scan_append, ← hp]
      exact hscan 0
    cases hs : scan (.inside 0 .text) p with
    | inside d m =>
      rw [hs] at hc
      exact (scan_glue hwscan hk d m hc).elim
    | closed =>
      rw [hs, scan_cons, show scanStep .closed '{' = .bad from rfl, scan_bad] at hc
      cases hc
    | bad =>
      rw [hs, scan_bad] at hc
      cases hc

end Json
