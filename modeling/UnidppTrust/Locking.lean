import Mathlib.Algebra.Order.Ring.Nat
import Mathlib.Data.List.Basic
import Mathlib.Logic.Relation
import Mathlib.Tactic.TypeStar

namespace Locking
set_option autoImplicit true

/-- What a request comes to: an answer that needs no state, or one run under the lock, which gives
no answer where it panics. -/
inductive Plan (σ ρ : Type*) where
  | free (r : ρ)
  | locked (f : σ → Option ρ × σ)

def Plan.run : Plan σ ρ → σ → Option ρ × σ
  | .free r, s => (some r, s)
  | .locked f, s => f s

def Plan.map (g : ρ → τ) : Plan σ ρ → Plan σ τ
  | .free r => .free (g r)
  | .locked f => .locked fun s => ((f s).1.map g, (f s).2)

theorem Plan.run_map (g : ρ → τ) (p : Plan σ ρ) (s : σ) :
    (p.map g).run s = ((p.run s).1.map g, (p.run s).2) := by
  cases p <;> rfl

/-- How far a request has come; what is decided under the lock is answered after it. -/
inductive Phase (ρ : Type*) where
  | waiting
  | inside
  | decided (r : ρ)
  | answered (r : ρ)
  | panicked

def Phase.result : Phase ρ → Option ρ
  | .decided r | .answered r => some r
  | .waiting | .inside | .panicked => none

/-- A lock is poisoned by a holder that panics. -/
inductive Lock where
  | «open»
  | held (i : Nat)
  | poisoned

/-- The state, its lock, and the requests in the order they arrived. -/
structure Config (α σ ρ : Type*) where
  state : σ
  lock : Lock
  requests : List (α × Phase ρ)

def Config.start (s : σ) : Config α σ ρ := ⟨s, .open, []⟩

section Steps
variable (plan : α → Plan σ ρ)

/-- Any request may go on next. -/
inductive Step : Config α σ ρ → Config α σ ρ → Prop
  | arrive {c : Config α σ ρ} (x : α) :
      Step c { c with requests := c.requests ++ [(x, .waiting)] }
  | free {c : Config α σ ρ} (hi : c.requests[i]? = some (x, .waiting)) (hp : plan x = .free r) :
      Step c { c with requests := c.requests.set i (x, .answered r) }
  | enter {c : Config α σ ρ} (hi : c.requests[i]? = some (x, .waiting))
      (hp : plan x = .locked f) (hl : c.lock = .open) :
      Step c { c with lock := .held i, requests := c.requests.set i (x, .inside) }
  | refuse {c : Config α σ ρ} (hi : c.requests[i]? = some (x, .waiting))
      (hp : plan x = .locked f) (hl : c.lock = .poisoned) :
      Step c { c with requests := c.requests.set i (x, .panicked) }
  | leave {c : Config α σ ρ} (hi : c.requests[i]? = some (x, .inside))
      (hf : (plan x).run c.state = (some r, s)) :
      Step c ⟨s, .open, c.requests.set i (x, .decided r)⟩
  | panic {c : Config α σ ρ} (hi : c.requests[i]? = some (x, .inside))
      (hf : (plan x).run c.state = (none, s)) :
      Step c ⟨s, .poisoned, c.requests.set i (x, .panicked)⟩
  | answer {c : Config α σ ρ} (hi : c.requests[i]? = some (x, .decided r)) :
      Step c { c with requests := c.requests.set i (x, .answered r) }

abbrev Run : Config α σ ρ → Config α σ ρ → Prop := Relation.ReflTransGen (Step plan)

end Steps

def serial (exec : α → σ → ρ × σ) (s : σ) : List α → List ρ × σ
  | [] => ([], s)
  | x :: xs =>
    let rest := serial exec (exec x s).2 xs
    ((exec x s).1 :: rest.1, rest.2)

theorem serial_concat (exec : α → σ → ρ × σ) (s : σ) (xs : List α) (x : α) :
    serial exec s (xs ++ [x]) =
      ((serial exec s xs).1 ++ [(exec x (serial exec s xs).2).1],
        (exec x (serial exec s xs).2).2) := by
  induction xs generalizing s with
  | nil => rfl
  | cons y xs ih =>
    rw [List.cons_append, serial, ih]
    rfl

theorem serial_result {done : List (ι × α × ρ)} {exec : α → σ → ρ × σ} {s s' : σ}
    (h : serial exec s (done.map (·.2.1)) = (done.map (·.2.2), s')) (hd : (i, x, r) ∈ done) :
    ∃ t after, r = (exec x t).1 ∧ s' = (serial exec (exec x t).2 after).2 := by
  induction done generalizing s with
  | nil => cases hd
  | cons d done ih =>
    obtain ⟨hresults, hstate⟩ := Prod.mk.inj h
    obtain ⟨hresult, hresults⟩ := List.cons.inj hresults
    rcases List.mem_cons.1 hd with rfl | hd
    · exact ⟨s, done.map (·.2.1), hresult.symm, hstate.symm⟩
    · exact ih (Prod.ext hresults hstate) hd

/-- The decided requests, in an order in which they could have come one by one; nobody has
panicked, and who is inside holds the lock. -/
structure Linearized (exec : α → σ → ρ × σ) (s₀ : σ) (c : Config α σ ρ)
    (done : List (Nat × α × ρ)) : Prop where
  once : (done.map (·.1)).Nodup
  decided : ∀ (i : Nat) (x : α) (r : ρ), (i, x, r) ∈ done ↔
    ∃ p, c.requests[i]? = some (x, p) ∧ p.result = some r
  serial : serial exec s₀ (done.map (·.2.1)) = (done.map (·.2.2), c.state)
  holder : ∀ i, c.lock = .held i ↔ ∃ x, c.requests[i]? = some (x, .inside)
  unpoisoned : c.lock ≠ .poisoned
  unpanicked : ∀ (i : Nat) (x : α), c.requests[i]? ≠ some (x, .panicked)

section Moves
variable {rs : List (α × Phase ρ)} {p p' : Phase ρ} {done : List (Nat × α × ρ)}

theorem getElem?_moved (hi : rs[i]? = some y) (z : α × Phase ρ) (j : Nat) :
    (rs.set i z)[j]? = if i = j then some z else rs[j]? := by
  have hlt : i < rs.length := (List.getElem?_eq_some_iff.1 hi).1
  rw [List.getElem?_set]
  by_cases h : i = j
  · rw [if_pos h, if_pos h, if_pos hlt]
  · rw [if_neg h, if_neg h]

theorem decided_same (hi : rs[i]? = some (x, p)) (hp : p'.result = p.result)
    (h : ∀ j y r, (j, y, r) ∈ done ↔ ∃ q, rs[j]? = some (y, q) ∧ q.result = some r) :
    ∀ j y r, (j, y, r) ∈ done ↔
      ∃ q, (rs.set i (x, p'))[j]? = some (y, q) ∧ q.result = some r := by
  intro j y r
  rw [h, getElem?_moved hi]
  by_cases hj : i = j
  · subst hj
    rw [if_pos rfl, hi]
    constructor
    · rintro ⟨q, hq, hr⟩
      cases hq
      exact ⟨p', rfl, hp.trans hr⟩
    · rintro ⟨q, hq, hr⟩
      cases hq
      exact ⟨p, rfl, hp.symm.trans hr⟩
  · rw [if_neg hj]

theorem decided_more (hi : rs[i]? = some (x, p)) (hp : p.result = none)
    (hp' : p'.result = some r)
    (h : ∀ j y r, (j, y, r) ∈ done ↔ ∃ q, rs[j]? = some (y, q) ∧ q.result = some r) :
    (∀ y r, (i, y, r) ∉ done) ∧ ∀ j y r', (j, y, r') ∈ done ++ [(i, x, r)] ↔
      ∃ q, (rs.set i (x, p'))[j]? = some (y, q) ∧ q.result = some r' := by
  have hfresh : ∀ y r, (i, y, r) ∉ done := by
    intro y r hmem
    obtain ⟨q, hq, hr⟩ := (h i y r).1 hmem
    rw [hi] at hq
    cases hq
    rw [hp] at hr
    cases hr
  refine ⟨hfresh, fun j y r' => ?_⟩
  rw [List.mem_append, List.mem_singleton, getElem?_moved hi]
  by_cases hj : i = j
  · subst hj
    rw [if_pos rfl, or_iff_right (hfresh y r')]
    constructor
    · intro he
      cases he
      exact ⟨p', rfl, hp'⟩
    · rintro ⟨q, hq, hr⟩
      cases hq
      rw [hp'] at hr
      cases hr
      rfl
  · rw [if_neg hj, h, or_iff_left]
    intro he
    cases he
    exact hj rfl

theorem phase_moved (hi : rs[i]? = some (x, p)) (q : Phase ρ) (j : Nat) :
    (∃ y, (rs.set i (x, p'))[j]? = some (y, q)) ↔
      (i = j ∧ p' = q) ∨ (i ≠ j ∧ ∃ y, rs[j]? = some (y, q)) := by
  rw [getElem?_moved hi]
  by_cases hj : i = j
  · subst hj
    rw [if_pos rfl]
    constructor
    · rintro ⟨y, hy⟩
      cases hy
      exact .inl ⟨rfl, rfl⟩
    · rintro (⟨-, rfl⟩ | ⟨hne, -⟩)
      · exact ⟨x, rfl⟩
      · exact (hne rfl).elim
  · rw [if_neg hj]
    exact ⟨fun h => .inr ⟨hj, h⟩, fun h => (h.resolve_left fun h => hj h.1).2⟩

theorem getElem?_arrived (x : α) {z : α × Phase ρ} (hz : z.2 ≠ .waiting) (j : Nat) :
    (rs ++ [(x, .waiting)])[j]? = some z ↔ rs[j]? = some z := by
  rw [List.getElem?_append]
  by_cases hj : j < rs.length
  · rw [if_pos hj]
  · rw [if_neg hj, List.getElem?_eq_none (Nat.le_of_not_lt hj), List.getElem?_singleton]
    constructor
    · intro h
      split at h
      · cases h
        exact (hz rfl).elim
      · cases h
    · intro h
      cases h

end Moves

section Linear
variable {plan : α → Plan σ ρ} {exec : α → σ → ρ × σ} {s₀ : σ} {c c' : Config α σ ρ}
  {done : List (Nat × α × ρ)}

theorem linearized_start (exec : α → σ → ρ × σ) (s₀ : σ) :
    Linearized exec s₀ (.start s₀) [] where
  once := List.nodup_nil
  decided i x r := by
    constructor
    · intro h
      cases h
    · rintro ⟨p, hp, -⟩
      cases hp
  serial := rfl
  holder i := by
    constructor
    · intro h
      cases h
    · rintro ⟨x, hx⟩
      cases hx
  unpoisoned h := by cases h
  unpanicked i x h := by cases h

section Moved
variable {l : Lock} {p p' : Phase ρ} (h : Linearized exec s₀ c done)
  (hi : c.requests[i]? = some (x, p))
  (hl : ∀ j, l = .held j ↔
    (i = j ∧ p' = .inside) ∨ (i ≠ j ∧ ∃ y, c.requests[j]? = some (y, .inside)))
  (hopen : l ≠ .poisoned) (hp' : p' ≠ .panicked)
include h hi hl hopen hp'

theorem Linearized.moved (hp : p'.result = p.result) :
    Linearized exec s₀ ⟨c.state, l, c.requests.set i (x, p')⟩ done where
  once := h.once
  decided := decided_same hi hp h.decided
  serial := h.serial
  holder j := (hl j).trans (phase_moved hi _ j).symm
  unpoisoned := hopen
  unpanicked j y hy := by
    rcases (phase_moved hi .panicked j).1 ⟨y, hy⟩ with ⟨-, hpanicked⟩ | ⟨-, z, hz⟩
    · exact hp' hpanicked
    · exact h.unpanicked j z hz

theorem Linearized.decides (hp : p.result = none) (hr : p'.result = some r)
    (hexec : exec x c.state = (r, s)) :
    Linearized exec s₀ ⟨s, l, c.requests.set i (x, p')⟩ (done ++ [(i, x, r)]) where
  once := by
    obtain ⟨hfresh, -⟩ := decided_more hi hp hr h.decided
    rw [List.map_append, List.nodup_append]
    refine ⟨h.once, List.nodup_cons.2 ⟨List.not_mem_nil, List.nodup_nil⟩, ?_⟩
    rintro j hj k hk rfl
    obtain ⟨⟨m, y, r'⟩, hmem, he⟩ := List.mem_map.1 hj
    obtain rfl := he.trans (List.mem_singleton.1 hk)
    exact hfresh y r' hmem
  decided := (decided_more hi hp hr h.decided).2
  serial := by
    rw [List.map_append, List.map_append, List.map_singleton, List.map_singleton, serial_concat,
      h.serial, hexec]
  holder j := (hl j).trans (phase_moved hi _ j).symm
  unpoisoned := hopen
  unpanicked j y hy := by
    rcases (phase_moved hi .panicked j).1 ⟨y, hy⟩ with ⟨-, hpanicked⟩ | ⟨-, z, hz⟩
    · exact hp' hpanicked
    · exact h.unpanicked j z hz

end Moved

theorem Linearized.outside {p p' : Phase ρ} (h : Linearized exec s₀ c done)
    (hi : c.requests[i]? = some (x, p)) (hp : p ≠ .inside) (hp' : p' ≠ .inside) (j : Nat) :
    c.lock = .held j ↔
      (i = j ∧ p' = .inside) ∨ (i ≠ j ∧ ∃ y, c.requests[j]? = some (y, .inside)) := by
  rw [h.holder, or_iff_right fun hj => hp' hj.2, iff_and_self]
  rintro ⟨y, hy⟩ rfl
  rw [hi] at hy
  cases hy
  exact hp rfl

theorem Linearized.arrived (h : Linearized exec s₀ c done) (x : α) :
    Linearized exec s₀ { c with requests := c.requests ++ [(x, .waiting)] } done where
  once := h.once
  decided i y r := by
    rw [h.decided]
    refine exists_congr fun p => and_congr_left fun hr => (getElem?_arrived x ?_ i).symm
    rintro rfl
    cases hr
  serial := h.serial
  holder i := (h.holder i).trans (exists_congr fun y => (getElem?_arrived x (by simp) i).symm)
  unpoisoned := h.unpoisoned
  unpanicked i y hy := h.unpanicked i y ((getElem?_arrived x (by simp) i).1 hy)

/-- What is decided of a request is what it comes to in some state, after which only others come. -/
theorem Linearized.result {i : Nat} {p : Phase ρ} (h : Linearized exec s₀ c done)
    (hi : c.requests[i]? = some (x, p)) (hr : p.result = some r) :
    ∃ s after, r = (exec x s).1 ∧ c.state = (Locking.serial exec (exec x s).2 after).2 :=
  serial_result h.serial ((h.decided i x r).2 ⟨p, hi, hr⟩)

theorem exec_of_run (hexec : ∀ x s, (plan x).run s = (some (exec x s).1, (exec x s).2))
    (h : (plan x).run s = (some r, s')) : exec x s = (r, s') := by
  rw [hexec] at h
  obtain ⟨hr, hs⟩ := Prod.mk.inj h
  exact Prod.ext (Option.some.inj hr) hs

theorem Linearized.step (hexec : ∀ x s, (plan x).run s = (some (exec x s).1, (exec x s).2))
    (h : Linearized exec s₀ c done) (hstep : Step plan c c') :
    ∃ more, Linearized exec s₀ c' (done ++ more) := by
  cases hstep with
  | arrive x => exact ⟨[], by rw [List.append_nil]; exact h.arrived x⟩
  | @free i x r _ hi hp =>
    have hrun : exec x c.state = (r, c.state) := exec_of_run hexec (by rw [hp]; rfl)
    exact ⟨_, h.decides hi (h.outside hi (by simp) (by simp)) h.unpoisoned (by simp) rfl rfl
      hrun⟩
  | @enter i x f _ hi hp hl =>
    refine ⟨[], ?_⟩
    rw [List.append_nil]
    refine h.moved hi (fun j => ?_) Lock.noConfusion (by simp) rfl
    -- nobody is inside an open lock
    rw [Lock.held.injEq, and_iff_left rfl, or_iff_left]
    intro hj
    have hheld := (h.holder j).2 hj.2
    rw [hl] at hheld
    cases hheld
  | refuse hi hp hl => exact (h.unpoisoned hl).elim
  | @leave i x r s _ hi hf =>
    have hheld := (h.holder i).2 ⟨x, hi⟩
    refine ⟨_, h.decides hi (fun j => ?_) Lock.noConfusion (by simp) rfl rfl
      (exec_of_run hexec hf)⟩
    -- nobody else was inside
    refine iff_of_false Lock.noConfusion ?_
    rintro (⟨-, hj⟩ | ⟨hne, hj⟩)
    · cases hj
    · rw [← h.holder j, hheld, Lock.held.injEq] at hj
      exact hne hj
  | panic hi hf =>
    rw [hexec] at hf
    exact (Option.some_ne_none _ (Prod.mk.inj hf).1).elim
  | answer hi =>
    refine ⟨[], ?_⟩
    rw [List.append_nil]
    exact h.moved hi (h.outside hi (by simp) (by simp)) h.unpoisoned (by simp) rfl

/-- However requests interleave, those decided are answered as if they had come one by one, in an
order that only grows. -/
theorem Linearized.run (hexec : ∀ x s, (plan x).run s = (some (exec x s).1, (exec x s).2))
    (h : Linearized exec s₀ c done) (hrun : Run plan c c') :
    ∃ more, Linearized exec s₀ c' (done ++ more) := by
  induction hrun with
  | refl => exact ⟨[], by rwa [List.append_nil]⟩
  | tail _ hstep ih =>
    obtain ⟨more, hmore⟩ := ih
    obtain ⟨more', hmore'⟩ := hmore.step hexec hstep
    exact ⟨more ++ more', by rwa [← List.append_assoc]⟩

def Phase.ahead : Phase ρ → Nat
  | .waiting => 3
  | .inside => 2
  | .decided _ => 1
  | .answered _ | .panicked => 0

def Config.ahead (c : Config α σ ρ) : Nat := (c.requests.map (·.2.ahead)).sum

theorem sum_moved {rs : List (α × Phase ρ)} {p p' : Phase ρ} (hi : rs[i]? = some (x, p))
    (hp : p'.ahead < p.ahead) :
    ((rs.set i (x, p')).map (·.2.ahead)).sum < (rs.map (·.2.ahead)).sum := by
  induction rs generalizing i with
  | nil => cases hi
  | cons r rs ih =>
    cases i with
    | zero =>
      cases hi
      exact Nat.add_lt_add_right hp _
    | succ i =>
      exact Nat.add_lt_add_left (ih hi) _

theorem arrivals_moved {rs : List (α × Phase ρ)} {p : Phase ρ} (hi : rs[i]? = some (x, p))
    (p' : Phase ρ) :
    (rs.set i (x, p')).map (·.1) = rs.map (·.1) := by
  induction rs generalizing i with
  | nil => cases hi
  | cons r rs ih =>
    cases i with
    | zero =>
      cases hi
      rfl
    | succ i => exact congrArg (_ :: ·) (ih hi)

/-- Where not all are answered, some request can go on. -/
theorem Linearized.progress {i : Nat} {x : α} {p : Phase ρ}
    (hexec : ∀ x s, (plan x).run s = (some (exec x s).1, (exec x s).2))
    (h : Linearized exec s₀ c done) (hi : c.requests[i]? = some (x, p)) (hp : p.ahead ≠ 0) :
    ∃ c', Step plan c c' ∧ c'.ahead < c.ahead ∧ c'.requests.map (·.1) = c.requests.map (·.1) := by
  cases hl : c.lock with
  | poisoned => exact (h.unpoisoned hl).elim
  | held j =>
    -- the holder can leave
    obtain ⟨y, hy⟩ := (h.holder j).1 hl
    exact ⟨_, .leave hy (hexec y c.state), sum_moved hy Nat.one_lt_two, arrivals_moved hy _⟩
  | «open» =>
    cases p with
    | waiting =>
      cases hplan : plan x with
      | free r => exact ⟨_, .free hi hplan, sum_moved hi (Nat.zero_lt_succ 2), arrivals_moved hi _⟩
      | locked f =>
        exact ⟨_, .enter hi hplan hl, sum_moved hi (Nat.lt_succ_self 2), arrivals_moved hi _⟩
    | inside =>
      have hheld := (h.holder i).2 ⟨x, hi⟩
      rw [hl] at hheld
      cases hheld
    | decided r => exact ⟨_, .answer hi, sum_moved hi Nat.zero_lt_one, arrivals_moved hi _⟩
    | answered r => exact (hp rfl).elim
    | panicked => exact (hp rfl).elim

/-- Nobody waits forever: the requests that have come can all be answered. -/
theorem Linearized.completes (hexec : ∀ x s, (plan x).run s = (some (exec x s).1, (exec x s).2))
    (h : Linearized exec s₀ c done) :
    ∃ c', Run plan c c' ∧ c'.requests.map (·.1) = c.requests.map (·.1) ∧
      ∀ q ∈ c'.requests, ∃ r, q.2 = .answered r := by
  induction hn : c.ahead using Nat.strongRecOn generalizing c done with
  | ind n ih =>
    by_cases hall : ∀ q ∈ c.requests, q.2.ahead = 0
    · refine ⟨c, .refl, rfl, fun q hq => ?_⟩
      obtain ⟨i, hi⟩ := List.mem_iff_getElem?.1 hq
      obtain ⟨x, p⟩ := q
      have hp := hall _ hq
      cases p with
      | answered r => exact ⟨r, rfl⟩
      | panicked => exact (h.unpanicked i x hi).elim
      | waiting => cases hp
      | inside => cases hp
      | decided r => cases hp
    · obtain ⟨⟨x, p⟩, hq⟩ := Classical.not_forall.1 hall
      obtain ⟨hq, hp⟩ := Classical.not_imp.1 hq
      obtain ⟨i, hi⟩ := List.mem_iff_getElem?.1 hq
      obtain ⟨c', hstep, hless, harrivals⟩ := h.progress hexec hi hp
      obtain ⟨more, hmore⟩ := h.step hexec hstep
      obtain ⟨c'', hrun, hkept, hanswered⟩ := ih c'.ahead (hn ▸ hless) hmore rfl
      exact ⟨c'', hrun.head hstep, hkept.trans harrivals, hanswered⟩

end Linear

end Locking
