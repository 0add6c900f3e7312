import UnidppTrust.Mutation
import UnidppTrust.Journal
import UnidppTrust.RecordRoundTrip

namespace UnidppTrust
open Rust Json
set_option autoImplicit true

variable {V : Vocabulary} (S : Signatif V)

def Store.acceptedOp (s : Store V) (c : Op V × Tick) : List (Op V) :=
  match (s.mutate S c.2 c.1).1 with
  | .ok _ => [c.1]
  | .error _ => []

def Store.accepted (s : Store V) : List (Op V × Tick) → List (Op V)
  | [] => []
  | c :: cs => s.acceptedOp S c ++ (s.mutate S c.2 c.1).2.accepted cs

def State.applyAll (s : State V) (ops : List (Op V)) : State V :=
  ops.foldl (fun s op => (applyOp S s op).2) s

/-- Each of the operations applies where its turn comes. -/
def State.Applies (s : State V) : List (Op V) → Prop
  | [] => True
  | op :: ops => (applyOp S s op).1 = .ok () ∧ (applyOp S s op).2.Applies ops

variable {S}

theorem mutate_accepted (s : Store V) (c : Op V × Tick) :
    (s.acceptedOp S c = [] ∧ (s.mutate S c.2 c.1).2.toState = s.toState) ∨
    (s.acceptedOp S c = [c.1] ∧ (applyOp S s.toState c.1).1 = .ok () ∧
      (s.mutate S c.2 c.1).2.toState = (applyOp S s.toState c.1).2) := by
  rcases mutate_cases S s c.2 c.1 with ⟨e, hm⟩ | ⟨hap, a, hm⟩
  · left
    rw [Store.acceptedOp, hm]
    exact ⟨rfl, rfl⟩
  · right
    rw [Store.acceptedOp, hm]
    exact ⟨rfl, hap, rfl⟩

theorem mutateAll_accepted (s : Store V) (calls : List (Op V × Tick)) :
    s.toState.Applies S (s.accepted S calls) ∧
      (s.mutateAll S calls).toState = s.toState.applyAll S (s.accepted S calls) := by
  induction calls generalizing s with
  | nil => exact ⟨trivial, rfl⟩
  | cons c cs ih =>
    obtain ⟨happlies, hstate⟩ := ih (s.mutate S c.2 c.1).2
    rcases mutate_accepted (S := S) s c with ⟨hop, hs⟩ | ⟨hop, hok, hs⟩
    · rw [hs] at happlies hstate
      rw [Store.accepted, hop]
      exact ⟨happlies, hstate⟩
    · rw [hs] at happlies hstate
      rw [Store.accepted, hop]
      exact ⟨⟨hok, happlies⟩, hstate⟩

section Held

variable {C : Crates V} {seed : Bool}

/-- A store the service can hold: opened on some journal, and called with decoded arguments. -/
def Store.Held (C : Crates V) (s : Store V) : Prop :=
  ∃ journal seed ticks s₀ calls, Store.open_ C journal seed ticks = .ok s₀ ∧
    (∀ c ∈ calls, Op.Decodable C.signatif c.1) ∧ s = s₀.mutateAll C.signatif calls

theorem replayLines_keeps {p : State V → Prop}
    (hstep : ∀ s op, p s → p (applyOp C.signatif s op).2) {s s' : Store V} {ls : List Bytes}
    (hs : p s.toState) (h : s.replayLines C ls = .ok s') : p s'.toState := by
  induction ls generalizing s with
  | nil =>
    cases h
    exact hs
  | cons line ls ih =>
    obtain ⟨found, -, h⟩ := bind_eq_ok h
    cases found with
    | none => exact ih hs h
    | some r => exact ih (s := s.replayRecord C r) (hstep _ r.op hs) h

theorem recordAll_keeps {p : State V → Prop}
    (hstep : ∀ s op, p s → p (applyOp C.signatif s op).2) {s : Store V} (ticks : Nat → Tick)
    (ops : List (Op V)) (hs : p s.toState) : p (s.recordAll C ticks ops).toState := by
  induction ops generalizing s ticks with
  | nil => exact hs
  | cons op ops ih => exact ih _ (hstep _ op hs)

theorem open_keeps {p : State V → Prop} (hinit : p (State.initial C))
    (hstep : ∀ s op, p s → p (applyOp C.signatif s op).2)
    (h : Store.open_ C journal seed ticks = .ok s) : p s.toState := by
  have hstart (s₀ : Store V) (hs₀ : p s₀.toState)
      (h : (if seed && s₀.log.isEmpty then s₀.seedFixtures C ticks else .ok s₀) = .ok s) :
      p s.toState := by
    split at h
    · obtain ⟨ops, -, h⟩ := bind_eq_ok h
      cases h
      exact recordAll_keeps hstep ticks ops hs₀
    · cases h
      exact hs₀
  cases journal with
  | none => exact hstart (Store.empty C) hinit h
  | some file =>
    rw [Store.open_] at h
    obtain ⟨s₁, hreplay, h⟩ := bind_eq_ok h
    have hs₁ : p s₁.toState := replayLines_keeps hstep (s := Store.empty C) hinit hreplay
    exact hstart { s₁ with journal := some file } hs₁ h

theorem mutateAll_keeps {p : State V → Prop} (hstep : ∀ s op, p s → p (applyOp S s op).2)
    {s : Store V} (calls : List (Op V × Tick)) (hs : p s.toState) :
    p (s.mutateAll S calls).toState := by
  induction calls generalizing s with
  | nil => exact hs
  | cons c cs ih =>
    apply ih
    rcases mutate_accepted (S := S) s c with ⟨-, hstate⟩ | ⟨-, -, hstate⟩
    · rw [hstate]
      exact hs
    · rw [hstate]
      exact hstep _ c.1 hs

/-- What every operation keeps holds of every store the service can hold. -/
theorem held_keeps {p : State V → Prop} (hinit : p (State.initial C))
    (hstep : ∀ s op, p s → p (applyOp C.signatif s op).2) {s : Store V} (h : s.Held C) :
    p s.toState := by
  obtain ⟨journal, seed, ticks, s₀, calls, hopen, -, rfl⟩ := h
  exact mutateAll_keeps hstep calls (open_keeps hinit hstep hopen)

end Held

end UnidppTrust
