import Mathlib.Data.List.Basic
import Mathlib.Logic.Function.Basic
import Mathlib.Tactic.TypeStar
import Std.Data.ExtTreeMap

namespace Refill
set_option autoImplicit true

variable {σ ε κ : Type*}

section Maps
variable {cmp : κ → κ → Ordering} [Std.TransCmp cmp] [Std.LawfulEqCmp cmp]
  {m : Std.ExtTreeMap κ ε cmp} {key : ε → κ}

theorem keys_values (hm : ∀ k e, m[k]? = some e → key e = k) :
    (m.toList.map (·.2)).map key = m.keys := by
  rw [← Std.ExtTreeMap.map_fst_toList_eq_keys, List.map_map]
  apply List.map_congr_left
  intro p hp
  exact hm p.1 p.2 (Std.ExtTreeMap.mem_toList_iff_getElem?_eq_some.1 hp)

theorem mem_values : e ∈ m.toList.map (·.2) ↔ ∃ k : κ, m[k]? = some e := by
  simp only [List.mem_map, Prod.exists, Std.ExtTreeMap.mem_toList_iff_getElem?_eq_some,
    exists_eq_right]

theorem find_values [DecidableEq κ] (hm : ∀ k e, m[k]? = some e → key e = k) (k : κ) :
    (m.toList.map (·.2)).find? (key · = k) = m[k]? := by
  cases hk : m[k]? with
  | none =>
    refine List.find?_eq_none.2 fun e he hkey => ?_
    obtain ⟨k', he⟩ := mem_values.1 he
    rw [← of_decide_eq_true hkey, hm k' e he, he] at hk
    cases hk
  | some e =>
    cases hfound : (m.toList.map (·.2)).find? (key · = k) with
    | none =>
      have hne := List.find?_eq_none.1 hfound e (mem_values.2 ⟨k, hk⟩)
      exact (hne (decide_eq_true (hm k e hk))).elim
    | some e' =>
      obtain ⟨k', he'⟩ := mem_values.1 (List.mem_of_find?_eq_some hfound)
      have hsome := List.find?_some hfound
      have hkey : key e' = k := of_decide_eq_true hsome
      rw [← hk, ← hkey, hm k' e' he', he']

end Maps

variable [DecidableEq κ]

/-- A step puts an item whose key is free under its key. -/
def Fills (get : σ → κ → Option ε) (key : ε → κ) (step : σ → ε → σ) : Prop :=
  ∀ s e, get s (key e) = none → get (step s e) = Function.update (get s) (key e) (some e)

variable {get : σ → κ → Option ε} {key : ε → κ} {step : σ → ε → σ}

theorem Fills.foldl (h : Fills get key step) {es : List ε} {s : σ} (hes : (es.map key).Nodup)
    (hfree : ∀ e ∈ es, get s (key e) = none) :
    (∀ e ∈ es, get (es.foldl step s) (key e) = some e) ∧
      ∀ k, k ∉ es.map key → get (es.foldl step s) k = get s k := by
  induction es generalizing s with
  | nil => exact ⟨List.forall_mem_nil _, fun _ _ => rfl⟩
  | cons e es ih =>
    obtain ⟨hnew, hes⟩ := List.nodup_cons.1 hes
    have hstep := h s e (hfree e List.mem_cons_self)
    have hstill : ∀ x ∈ es, get (step s e) (key x) = none := by
      intro x hx
      rw [hstep, Function.update_of_ne, hfree x (List.mem_cons_of_mem e hx)]
      intro he
      exact hnew (he ▸ List.mem_map_of_mem hx)
    obtain ⟨hin, hout⟩ := ih hes hstill
    refine ⟨List.forall_mem_cons.2 ⟨?_, hin⟩, fun k hk => ?_⟩
    · rw [List.foldl_cons, hout _ hnew, hstep, Function.update_self]
    · obtain ⟨hne, hk⟩ := not_or.1 fun hmem => hk (List.mem_cons.2 hmem)
      rw [List.foldl_cons, hout k hk, hstep, Function.update_of_ne hne]

/-- What the values of a keyed map fill is the map. -/
theorem Fills.values {cmp : κ → κ → Ordering} [Std.TransCmp cmp] [Std.LawfulEqCmp cmp]
    {m : Std.ExtTreeMap κ ε cmp} (h : Fills get key step)
    (hm : ∀ k e, m[k]? = some e → key e = k) {s : σ} (hs : ∀ k, get s k = none) (k : κ) :
    get ((m.toList.map (·.2)).foldl step s) k = m[k]? := by
  have hnodup : ((m.toList.map (·.2)).map key).Nodup := by
    rw [keys_values hm]
    exact Std.ExtTreeMap.nodup_keys
  obtain ⟨hin, hout⟩ := h.foldl hnodup fun e _ => hs (key e)
  cases hk : m[k]? with
  | some e =>
    rw [← hm k e hk]
    exact hin e (mem_values.2 ⟨k, hk⟩)
  | none =>
    rw [hout, hs]
    rw [keys_values hm, Std.ExtTreeMap.mem_keys, ← Std.ExtTreeMap.isSome_getElem?_iff_mem, hk]
    exact Bool.false_ne_true

end Refill
