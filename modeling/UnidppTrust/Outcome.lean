import Mathlib.Data.List.Basic

namespace Rust
set_option autoImplicit true

/-- How a call fails: it returns an error value, or it aborts (an index out of range, an
`unwrap` of an `Err`). -/
inductive Fault (ε : Type) where
  | err (e : ε)
  | abort
  deriving DecidableEq, Repr

/-- The outcome of a function whose declared type is `Result<α, ε>`. -/
abbrev Outcome (ε α : Type) := Except (Fault ε) α

def fail (e : ε) : Outcome ε α := .error (.err e)

def abort : Outcome ε α := .error .abort

def okOr : Option α → ε → Outcome ε α
  | some a, _ => .ok a
  | none, e => fail e

def lift : Except ε α → Outcome ε α
  | .ok a => .ok a
  | .error e => fail e

def mapErr (f : ε → δ) : Outcome ε α → Outcome δ α
  | .ok a => .ok a
  | .error (.err e) => fail (f e)
  | .error .abort => abort

def index (b : List α) (i : Nat) : Outcome ε α :=
  match b[i]? with
  | some a => .ok a
  | none => abort

/-- The call returns, with a value or with an error. -/
def Returns (x : Outcome ε α) : Prop := x ≠ abort

@[simp] theorem ok_bind (a : α) (f : α → Except δ β) : (Except.ok a >>= f) = f a := rfl

@[simp] theorem error_bind (e : δ) (f : α → Except δ β) :
    ((Except.error e : Except δ α) >>= f) = .error e := rfl

@[simp] theorem pure_eq_ok (a : α) : (pure a : Except δ α) = .ok a := rfl

@[simp] theorem okOr_some (a : α) (e : ε) : okOr (some a) e = .ok a := rfl

@[simp] theorem okOr_none (e : ε) : okOr (none : Option α) e = fail e := rfl

@[simp] theorem lift_ok (a : α) : lift (.ok a : Except ε α) = .ok a := rfl

@[simp] theorem mapErr_ok (f : ε → δ) (a : α) : mapErr f (.ok a) = .ok a := rfl

theorem okOr_eq_ok (h : okOr x e = .ok a) : x = some a := by
  cases x with
  | none => cases h
  | some b => cases h; rfl

theorem index_eq_ok (h : (index b i : Outcome ε α) = .ok a) : b[i]? = some a := by
  unfold index at h
  split at h
  · rename_i heq
    cases h
    exact heq
  · cases h

theorem lift_eq_ok (h : lift x = .ok a) : x = .ok a := by
  cases x with
  | error e => cases h
  | ok b => cases h; rfl

theorem mapErr_eq_ok (h : mapErr f x = .ok a) : x = .ok a := by
  cases x with
  | ok b => cases h; rfl
  | error e => cases e <;> cases h

theorem bind_eq_ok {x : Except δ α} {f : α → Except δ β} (h : (x >>= f) = .ok b) :
    ∃ a, x = .ok a ∧ f a = .ok b := by
  cases x with
  | error e => cases h
  | ok a => exact ⟨a, rfl, h⟩

theorem check_eq_ok [Decidable p] {k : α → Outcome ε β} {y : Outcome ε β}
    (h : (if p then (fail e >>= k) else y) = .ok b) : ¬ p ∧ y = .ok b := by
  split at h
  · cases h
  · rename_i hp
    exact ⟨hp, h⟩

@[simp] theorem returns_ok (a : α) : Returns (.ok a : Outcome ε α) := fun h => by cases h

@[simp] theorem returns_fail (e : ε) : Returns (fail e : Outcome ε α) := fun h => by cases h

@[simp] theorem returns_okOr (x : Option α) (e : ε) : Returns (okOr x e) := by
  cases x <;> simp

@[simp] theorem returns_lift (x : Except ε α) : Returns (lift x) := by
  cases x with
  | ok a => exact returns_ok a
  | error e => exact returns_fail e

theorem Returns.mapErr {x : Outcome ε α} (h : Returns x) (f : ε → δ) :
    Returns (mapErr f x) := by
  cases x with
  | ok a => exact returns_ok a
  | error e =>
    cases e with
    | err e => exact returns_fail (f e)
    | abort => exact (h rfl).elim

theorem Returns.bind {x : Outcome ε α} {f : α → Outcome ε β} (h : Returns x)
    (hf : ∀ a, x = .ok a → Returns (f a)) : Returns (x >>= f) := by
  cases x with
  | ok a => exact hf a rfl
  | error e =>
    cases e with
    | err e => exact returns_fail e
    | abort => exact (h rfl).elim

theorem Returns.bind_abort {x : Outcome ε α} {f : α → Outcome ε β} (hx : Returns x)
    (h : (x >>= f) = abort) : ∃ a, x = .ok a ∧ f a = abort := by
  cases x with
  | ok a => exact ⟨a, rfl, h⟩
  | error e =>
    cases e with
    | err e => cases h
    | abort => exact (hx rfl).elim

theorem bind_ok_abort {x : Outcome ε α} {f : α → β}
    (h : (x >>= fun a => (.ok (f a) : Outcome ε β)) = abort) : x = abort := by
  by_contra hret
  obtain ⟨a, -, ha⟩ := Returns.bind_abort hret h
  cases ha

theorem returns_index {b : List α} (h : i < b.length) : Returns (index b i : Outcome ε α) := by
  rw [index, List.getElem?_eq_getElem h]
  exact returns_ok _

section Cursor
variable {b rest : List α}

theorem drop_after {seen : List α} (h : b.drop i = seen ++ rest) (hw : seen.length = w) :
    b.drop (i + w) = rest := by
  rw [← List.drop_drop, h, List.drop_left' hw]

theorem drop_succ (h : b.drop i = a :: rest) : b.drop (i + 1) = rest := by
  rw [← List.drop_drop, h, List.drop_one, List.tail_cons]

theorem lt_of_drop (h : b.drop i = a :: rest) : i < b.length := by
  have hne : b.drop i ≠ [] := by
    rw [h]
    exact List.cons_ne_nil a rest
  exact List.length_lt_of_drop_ne_nil hne

theorem getElem_iff : b[i]? = some a ↔ ∃ rest, b.drop i = a :: rest := by
  rw [← List.head?_drop]
  cases hd : b.drop i with
  | nil => simp
  | cons x xs => simp

theorem getElem_none (h : b[i]? = none) : b.drop i = [] :=
  List.drop_eq_nil_iff.2 (List.getElem?_eq_none_iff.1 h)

theorem index_of_drop (h : b.drop i = a :: rest) : (index b i : Outcome ε α) = .ok a := by
  rw [index, getElem_iff.2 ⟨rest, h⟩]

theorem index_beyond (h : b.drop i = []) : (index b i : Outcome ε α) = abort := by
  rw [index, List.getElem?_eq_none_iff.2 (List.drop_eq_nil_iff.1 h)]

end Cursor

theorem Returns.check [Decidable p] {k : α → Outcome ε β} {y : Outcome ε β}
    (h : ¬ p → Returns y) : Returns (if p then (fail e >>= k) else y) := by
  split
  · exact returns_fail e
  · rename_i hp
    exact h hp

theorem mapM_map_ok {f : β → Except δ α} {g : α → β} (xs : List α)
    (h : ∀ x ∈ xs, f (g x) = .ok x) : (xs.map g).mapM f = .ok xs := by
  induction xs with
  | nil => rfl
  | cons x xs ih =>
    rw [List.map_cons, List.mapM_cons, h x List.mem_cons_self, ok_bind,
      ih fun y hy => h y (List.mem_cons_of_mem x hy)]
    rfl

theorem mapM_ok_forall {f : α → Except δ β} {p : β → Prop} {xs : List α} {ys : List β}
    (hp : ∀ x y, f x = .ok y → p y) (h : xs.mapM f = .ok ys) : ∀ y ∈ ys, p y := by
  induction xs generalizing ys with
  | nil => cases h; intro y hy; cases hy
  | cons x xs ih =>
    rw [List.mapM_cons] at h
    obtain ⟨z, hz, h⟩ := bind_eq_ok h
    obtain ⟨zs, hzs, h⟩ := bind_eq_ok h
    cases h
    intro y hy
    rcases List.mem_cons.1 hy with rfl | hy
    · exact hp x _ hz
    · exact ih hzs y hy

theorem returns_mapM {f : α → Outcome ε β} (xs : List α) (h : ∀ x ∈ xs, Returns (f x)) :
    Returns (xs.mapM f) := by
  induction xs with
  | nil => exact returns_ok _
  | cons x xs ih =>
    rw [List.mapM_cons]
    apply (h x List.mem_cons_self).bind
    intro y _
    exact (ih fun z hz => h z (List.mem_cons_of_mem x hz)).bind fun ys _ => returns_ok _

theorem mapM_eq_abort {f : α → Outcome ε β} {xs : List α} :
    xs.mapM f = abort ↔ ∃ before x after, xs = before ++ x :: after ∧
      (∀ y ∈ before, ∃ b, f y = .ok b) ∧ f x = abort := by
  induction xs with
  | nil =>
    constructor
    · intro h
      cases h
    · rintro ⟨before, x, after, h, -⟩
      exact (List.append_ne_nil_of_right_ne_nil before (List.cons_ne_nil x after) h.symm).elim
  | cons x xs ih =>
    rw [List.mapM_cons]
    constructor
    · intro h
      cases hx : f x with
      | ok b =>
        rw [hx, ok_bind] at h
        obtain ⟨before, y, after, rfl, hbefore, hy⟩ := ih.1 (bind_ok_abort h)
        refine ⟨x :: before, y, after, rfl, ?_, hy⟩
        intro z hz
        rcases List.mem_cons.1 hz with rfl | hz
        · exact ⟨b, hx⟩
        · exact hbefore z hz
      | error e =>
        rw [hx, error_bind] at h
        cases h
        exact ⟨[], x, xs, rfl, (fun y hy => by cases hy), hx⟩
    · rintro ⟨before, y, after, heq, hbefore, hy⟩
      cases before with
      | nil =>
        cases heq
        rw [hy]
        rfl
      | cons z before =>
        obtain ⟨rfl, hrest⟩ := List.cons.inj heq
        obtain ⟨b, hb⟩ := hbefore x List.mem_cons_self
        have hxs : xs.mapM f = abort :=
          ih.2 ⟨before, y, after, hrest, fun w hw => hbefore w (List.mem_cons_of_mem x hw), hy⟩
        rw [hb, ok_bind, hxs]
        rfl

end Rust
