import UnidppTrust.JsonRoundTrip

namespace Json
set_option autoImplicit true

theorem le_all {cs : List Char} (h : (cs.all fun x => 32 ≤ x.toNat) = true) :
    ∀ x ∈ cs, 32 ≤ x.toNat := by
  simpa only [List.all_eq_true, decide_eq_true_eq] using h

theorem le_escChar (h : x ∈ escChar c) : 32 ≤ x.toNat := by
  have hhex : ∀ n : Fin 32,
      32 ≤ (hexDigit (n.val / 16)).toNat ∧ 32 ≤ (hexDigit (n.val % 16)).toNat := by
    decide
  unfold escChar at h
  split at h
  · exact le_all (by decide) x h
  split at h
  · exact le_all (by decide) x h
  split at h
  · exact le_all (by decide) x h
  split at h
  · exact le_all (by decide) x h
  split at h
  · exact le_all (by decide) x h
  split at h
  · exact le_all (by decide) x h
  split at h
  · exact le_all (by decide) x h
  split at h
  · rename_i hc
    obtain ⟨h₁, h₂⟩ := hhex ⟨c.toNat, hc⟩
    simp only [List.mem_cons, List.not_mem_nil, or_false] at h
    rcases h with rfl | rfl | rfl | rfl | rfl | rfl
    · decide
    · decide
    · decide
    · decide
    · exact h₁
    · exact h₂
  · rename_i hc
    rw [List.mem_singleton.1 h]
    omega

theorem le_renderStr (h : x ∈ renderStr s) : 32 ≤ x.toNat := by
  simp only [renderStr, List.mem_cons, List.mem_append, List.mem_flatMap, List.not_mem_nil,
    or_false] at h
  rcases h with rfl | ⟨c, -, hx⟩ | rfl
  · decide
  · exact le_escChar hx
  · decide

theorem le_number (h : isNumChar c = true) : 32 ≤ c.toNat := by
  simp only [isNumChar, Bool.or_eq_true, beq_iff_eq] at h
  rcases h with ((((h | rfl) | rfl) | rfl) | rfl) | rfl
  · exact Nat.le_trans (by decide) (Char.isDigit_iff_toNat.1 h).1
  all_goals decide

mutual
theorem le_render (d : Nat) (v : Value) : ∀ x ∈ render .compact d v, 32 ≤ x.toNat := by
  cases v with
  | null => rw [render]; exact le_all (by decide)
  | bool b => cases b <;> rw [render] <;> exact le_all (by decide)
  | num n =>
    intro x hx
    exact le_number (isNumChar_of_isNumber (isNumber_render n) x hx)
  | str s => intro x hx; exact le_renderStr hx
  | arr xs =>
    cases xs with
    | nil => rw [render]; exact le_all (by decide)
    | cons x xs =>
      intro y hy
      simp only [render, Layout.sep, List.nil_append, List.mem_cons, List.mem_append] at hy
      rcases hy with rfl | hy | hy
      · decide
      · exact le_render (d + 1) x y hy
      · exact le_renderItems d xs y hy
  | obj fs =>
    cases fs with
    | nil => rw [render]; exact le_all (by decide)
    | cons f fs =>
      intro y hy
      simp only [render, Layout.sep, List.nil_append, List.mem_cons, List.mem_append] at hy
      rcases hy with rfl | hy | hy
      · decide
      · exact le_renderField (d + 1) f y hy
      · exact le_renderFields d fs y hy

theorem le_renderItems (d : Nat) (xs : List Value) :
    ∀ x ∈ renderItems .compact d xs, 32 ≤ x.toNat := by
  cases xs with
  | nil => rw [renderItems]; simp only [Layout.sep]; exact le_all (by decide)
  | cons x xs =>
    intro y hy
    simp only [renderItems, Layout.sep, List.nil_append, List.mem_cons, List.mem_append] at hy
    rcases hy with rfl | hy | hy
    · decide
    · exact le_render (d + 1) x y hy
    · exact le_renderItems d xs y hy

theorem le_renderFields (d : Nat) (fs : Fields) :
    ∀ x ∈ renderFields .compact d fs, 32 ≤ x.toNat := by
  cases fs with
  | nil => rw [renderFields]; simp only [Layout.sep]; exact le_all (by decide)
  | cons f fs =>
    intro y hy
    simp only [renderFields, Layout.sep, List.nil_append, List.mem_cons, List.mem_append] at hy
    rcases hy with rfl | hy | hy
    · decide
    · exact le_renderField (d + 1) f y hy
    · exact le_renderFields d fs y hy

theorem le_renderField (d : Nat) (f : String × Value) :
    ∀ x ∈ renderField .compact d f, 32 ≤ x.toNat := by
  obtain ⟨k, v⟩ := f
  intro y hy
  simp only [renderField, Layout.colon, List.mem_append, List.mem_singleton] at hy
  rcases hy with (hy | rfl) | hy
  · exact le_renderStr hy
  · decide
  · exact le_render d v y hy
end

theorem renderFields_last (L : Layout) (d : Nat) (fs : Fields) :
    ∃ r, renderFields L d fs = r ++ ['}'] := by
  induction fs with
  | nil => exact ⟨L.sep d, rfl⟩
  | cons f fs ih =>
    obtain ⟨r, hr⟩ := ih
    refine ⟨',' :: (L.sep (d + 1) ++ renderField L (d + 1) f ++ r), ?_⟩
    rw [renderFields, hr, List.cons_append, ← List.append_assoc]

theorem render_obj_cons (L : Layout) (d : Nat) (k : String) (v : Value) (fs : Fields) :
    ∃ r, render L d (.obj ((k, v) :: fs)) =
        '{' :: (L.sep (d + 1) ++ '\"' :: (k.toList.flatMap escChar ++ r)) ∧
      ∃ r', r = r' ++ ['}'] := by
  obtain ⟨r, hr⟩ := renderFields_last L d fs
  refine ⟨_, ?_, '\"' :: (L.colon ++ render L (d + 1) v ++ r), rfl⟩
  simp only [render, renderField, renderStr, hr, List.cons_append, List.append_assoc,
    List.nil_append]

end Json
