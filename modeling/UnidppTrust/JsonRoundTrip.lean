import UnidppTrust.JsonParser

namespace Json
set_option autoImplicit true

def Opens (cs : List Char) : Prop :=
  ∃ c r, cs = c :: r ∧ isWs c = false ∧ c ≠ ']' ∧ c ≠ '}'

theorem opens_number (n : Number) : Opens (renderNumber n) := by
  obtain ⟨c, cs, hcs, hc⟩ := isNumber_head (isNumber_render n)
  refine ⟨c, cs, hcs, ?_⟩
  rcases hc with hc | rfl
  · refine ⟨?_, ?_, ?_⟩
    · by_contra hws
      simp only [isWs, Bool.not_eq_false, Bool.or_eq_true, beq_iff_eq] at hws
      rcases hws with ((rfl | rfl) | rfl) | rfl <;> cases hc
    · rintro rfl; cases hc
    · rintro rfl; cases hc
  · decide

theorem opens_render (L : Layout) (d : Nat) (v : Value) : Opens (render L d v) := by
  cases v with
  | null => exact ⟨_, _, rfl, by decide⟩
  | bool b => cases b <;> exact ⟨_, _, rfl, by decide⟩
  | num n => exact opens_number n
  | str s => exact ⟨_, _, rfl, by decide⟩
  | arr xs => cases xs <;> exact ⟨_, _, rfl, by decide⟩
  | obj fs => cases fs <;> exact ⟨_, _, rfl, by decide⟩

theorem opens_renderField (L : Layout) (d : Nat) (f : String × Value) :
    Opens (renderField L d f) := by
  cases f
  exact ⟨_, _, rfl, by decide⟩

theorem Opens.append (h : Opens cs) (ds : List Char) : Opens (cs ++ ds) := by
  obtain ⟨c, r, rfl, hc⟩ := h
  exact ⟨c, r ++ ds, rfl, hc⟩

theorem Opens.skipWs_sep (h : Opens cs) (L : Layout) (d : Nat) : skipWs (L.sep d ++ cs) = cs := by
  obtain ⟨c, r, rfl, hc, -⟩ := h
  rw [Json.skipWs_sep, skipWs_cons hc]

theorem Opens.skipWs (h : Opens cs) : Json.skipWs cs = cs := h.skipWs_sep .compact 0

theorem parseValue_congr (h : skipWs cs = skipWs ds) (n : Nat) :
    parseValue n cs = parseValue n ds := by
  cases n with
  | zero => rfl
  | succ n => simp only [parseValue, h]

theorem parseField_congr (h : skipWs cs = skipWs ds) (n : Nat) :
    parseField n cs = parseField n ds := by
  cases n with
  | zero => rfl
  | succ n => simp only [parseField, h]

theorem parseValue_sep (L : Layout) (d n : Nat) (cs : List Char) :
    parseValue n (L.sep d ++ cs) = parseValue n cs := parseValue_congr (skipWs_sep L d cs) n

theorem parseField_sep (L : Layout) (d n : Nat) (cs : List Char) :
    parseField n (L.sep d ++ cs) = parseField n cs := parseField_congr (skipWs_sep L d cs) n

theorem parseValue_number (n : Nat) (x : Number) (hs : Stops rest) :
    parseValue (n + 1) (renderNumber x ++ rest) = some (.num x, rest) := by
  obtain ⟨c, cs, hcs, hc⟩ := isNumber_head (isNumber_render x)
  have hnum := parseNumber_render x hs
  have hskip := ((opens_number x).append rest).skipWs
  rw [hcs, List.cons_append] at hnum hskip ⊢
  rw [← hnum]
  have hne (k : Char) (hk : k.isDigit = false) (hm : k ≠ '-') : c ≠ k := by
    rintro rfl
    rcases hc with hc | hc
    · rw [hk] at hc; cases hc
    · exact hm hc
  rw [parseValue, hskip]
  split
  · rename_i heq; exact (hne 'n' rfl (by decide) (List.cons.inj heq).1).elim
  · rename_i heq; exact (hne 't' rfl (by decide) (List.cons.inj heq).1).elim
  · rename_i heq; exact (hne 'f' rfl (by decide) (List.cons.inj heq).1).elim
  · rename_i heq; exact (hne '\"' rfl (by decide) (List.cons.inj heq).1).elim
  · rename_i heq; exact (hne '[' rfl (by decide) (List.cons.inj heq).1).elim
  · rename_i heq; exact (hne '{' rfl (by decide) (List.cons.inj heq).1).elim
  · rfl

theorem parseValue_arr_cons (n : Nat) (h : Opens cs) (L : Layout) (d : Nat) :
    parseValue (n + 1) ('[' :: (L.sep d ++ cs)) = (do
      let (x, rest) ← parseValue n cs
      let (xs, rest) ← parseItems n rest
      some (.arr (x :: xs), rest)) := by
  have hskip : skipWs ('[' :: (L.sep d ++ cs)) = '[' :: (L.sep d ++ cs) := skipWs_cons rfl
  obtain ⟨c, r, rfl, hws, hc, -⟩ := id h
  simp only [parseValue, hskip, h.skipWs_sep]
  split
  · rename_i heq; cases heq; exact (hc rfl).elim
  · rfl

theorem parseValue_obj_cons (n : Nat) (h : Opens cs) (L : Layout) (d : Nat) :
    parseValue (n + 1) ('{' :: (L.sep d ++ cs)) = (do
      let (f, rest) ← parseField n cs
      let (fs, rest) ← parseFields n rest
      some (.object (f :: fs), rest)) := by
  have hskip : skipWs ('{' :: (L.sep d ++ cs)) = '{' :: (L.sep d ++ cs) := skipWs_cons rfl
  obtain ⟨c, r, rfl, hws, -, hc⟩ := id h
  simp only [parseValue, hskip, h.skipWs_sep]
  split
  · rename_i heq; cases heq; exact (hc rfl).elim
  · rfl

theorem stops_sep (L : Layout) (d : Nat) (h : isNumChar c = false) :
    Stops (L.sep d ++ c :: cs) := by
  cases L with
  | compact => intro x hx; cases hx; exact h
  | pretty => intro x hx; cases hx; rfl

theorem stops_renderItems (L : Layout) (d : Nat) (xs : List Value) (rest : List Char) :
    Stops (renderItems L d xs ++ rest) := by
  cases xs with
  | nil =>
    rw [renderItems, List.append_assoc]
    exact stops_sep L d rfl
  | cons x xs => intro c hc; cases hc; rfl

theorem stops_renderFields (L : Layout) (d : Nat) (fs : Fields) (rest : List Char) :
    Stops (renderFields L d fs ++ rest) := by
  cases fs with
  | nil =>
    rw [renderFields, List.append_assoc]
    exact stops_sep L d rfl
  | cons f fs => intro c hc; cases hc; rfl

mutual
/-- Parsing undoes rendering, in either layout. -/
theorem parseValue_render (L : Layout) (d : Nat) (v : Value) (n : Nat) (rest : List Char)
    (hv : v.Canonical P m) (hs : Stops rest) (hn : (render L d v ++ rest).length < n) :
    parseValue n (render L d v ++ rest) = some (v, rest) := by
  obtain ⟨n, rfl⟩ : ∃ m, n = m + 1 := ⟨n - 1, by omega⟩
  cases v with
  | null => rfl
  | bool b => cases b <;> rfl
  | num x => exact parseValue_number n x hs
  | str s =>
    simp only [render, renderStr, List.cons_append, List.append_assoc, parseValue,
      skipWs_cons (show isWs '\"' = false from rfl), List.nil_append, parseStr_flatMap,
      Option.bind_eq_bind, Option.bind_some, String.ofList_toList]
  | arr xs =>
    cases xs with
    | nil => rfl
    | cons x xs =>
      obtain ⟨-, hx, hxs⟩ := hv
      simp only [render, List.cons_append, List.append_assoc, List.length_cons,
        List.length_append] at hn ⊢
      rw [parseValue_arr_cons n ((opens_render L (d + 1) x).append _),
        parseValue_render L (d + 1) x n _ hx (stops_renderItems L d xs rest)
          (by simp only [List.length_append]; omega)]
      simp only [Option.bind_eq_bind, Option.bind_some,
        parseItems_render L d xs n rest hxs (by simp only [List.length_append]; omega)]
  | obj fs =>
    cases fs with
    | nil => rfl
    | cons f fs =>
      obtain ⟨-, hk, hf, hfs⟩ := hv
      simp only [render, List.cons_append, List.append_assoc, List.length_cons,
        List.length_append] at hn ⊢
      rw [parseValue_obj_cons n ((opens_renderField L (d + 1) f).append _),
        parseField_render L (d + 1) f n _ hf (stops_renderFields L d fs rest)
          (by simp only [List.length_append]; omega)]
      simp only [Option.bind_eq_bind, Option.bind_some,
        parseFields_render L d fs n rest hfs (by simp only [List.length_append]; omega),
        Value.object, fieldsOf_sorted hk]

theorem parseItems_render (L : Layout) (d : Nat) (xs : List Value) (n : Nat)
    (rest : List Char) (hxs : CanonicalAll P m xs) (hn : (renderItems L d xs ++ rest).length < n) :
    parseItems n (renderItems L d xs ++ rest) = some (xs, rest) := by
  obtain ⟨n, rfl⟩ : ∃ m, n = m + 1 := ⟨n - 1, by omega⟩
  cases xs with
  | nil => simp only [renderItems, List.append_assoc, parseItems, skipWs_sep]; rfl
  | cons x xs =>
    obtain ⟨hx, hxs⟩ := hxs
    simp only [renderItems, List.cons_append, List.append_assoc, List.length_cons,
      List.length_append] at hn ⊢
    simp only [parseItems, skipWs_cons (show isWs ',' = false from rfl), parseValue_sep,
      Option.bind_eq_bind]
    rw [parseValue_render L (d + 1) x n _ hx (stops_renderItems L d xs rest)
      (by simp only [List.length_append]; omega)]
    simp only [Option.bind_some,
      parseItems_render L d xs n rest hxs (by simp only [List.length_append]; omega)]

theorem parseFields_render (L : Layout) (d : Nat) (fs : Fields) (n : Nat)
    (rest : List Char) (hfs : CanonicalFields P m fs)
    (hn : (renderFields L d fs ++ rest).length < n) :
    parseFields n (renderFields L d fs ++ rest) = some (fs, rest) := by
  obtain ⟨n, rfl⟩ : ∃ m, n = m + 1 := ⟨n - 1, by omega⟩
  cases fs with
  | nil => simp only [renderFields, List.append_assoc, parseFields, skipWs_sep]; rfl
  | cons f fs =>
    obtain ⟨hf, hfs⟩ := hfs
    simp only [renderFields, List.cons_append, List.append_assoc, List.length_cons,
      List.length_append] at hn ⊢
    simp only [parseFields, skipWs_cons (show isWs ',' = false from rfl), parseField_sep,
      Option.bind_eq_bind]
    rw [parseField_render L (d + 1) f n _ hf (stops_renderFields L d fs rest)
      (by simp only [List.length_append]; omega)]
    simp only [Option.bind_some,
      parseFields_render L d fs n rest hfs (by simp only [List.length_append]; omega)]

theorem parseField_render (L : Layout) (d : Nat) (f : String × Value) (n : Nat)
    (rest : List Char) (hf : CanonicalField P m f) (hs : Stops rest)
    (hn : (renderField L d f ++ rest).length < n) :
    parseField n (renderField L d f ++ rest) = some (f, rest) := by
  obtain ⟨n, rfl⟩ : ∃ m, n = m + 1 := ⟨n - 1, by omega⟩
  obtain ⟨k, v⟩ := f
  have hcolon : skipWs (L.colon ++ (render L d v ++ rest)) = L.colon ++ (render L d v ++ rest) := by
    cases L <;> exact skipWs_cons rfl
  have hparse (hm : (render L d v ++ rest).length < n) :
      (match L.colon ++ (render L d v ++ rest) with
        | ':' :: cs => (parseValue n cs).bind fun (v, rest) => some ((k, v), rest)
        | _ => none) = some ((k, v), rest) := by
    have hvalue := parseValue_render L d v n rest hf hs hm
    have hblank : parseValue n (' ' :: (render L d v ++ rest)) =
        parseValue n (render L d v ++ rest) := parseValue_congr (by rfl) n
    cases L with
    | compact =>
      simp only [Layout.colon, List.cons_append, List.nil_append, hvalue, Option.bind_some]
    | pretty =>
      simp only [Layout.colon, List.cons_append, List.nil_append]
      rw [hblank.trans hvalue]
      rfl
  simp only [renderField, renderStr, List.cons_append, List.append_assoc, List.length_cons,
    List.length_append] at hn ⊢
  simp only [parseField, skipWs_cons (show isWs '\"' = false from rfl), List.nil_append,
    parseStr_flatMap, Option.bind_eq_bind, Option.bind_some, hcolon, String.ofList_toList]
  exact hparse (by simp only [List.length_append]; omega)
end

theorem parse_render (L : Layout) (v : Value) (hv : v.Canonical P m) :
    parse (render L 0 v) = some v := by
  have hs : Stops [] := fun c hc => by cases hc
  have hp := parseValue_render L 0 v ((render L 0 v).length + 1) [] hv hs (by simp)
  rw [List.append_nil] at hp
  simp only [parse, hp, Option.bind_eq_bind, Option.bind_some]
  rfl

theorem render_injective (L : Layout) (hv : v.Canonical P m) (hw : w.Canonical Q k)
    (h : render L 0 v = render L 0 w) : v = w := by
  have hp := parse_render L v hv
  rw [h, parse_render L w hw] at hp
  cases hp
  rfl

end Json
