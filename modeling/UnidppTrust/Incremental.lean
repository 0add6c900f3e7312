import Mathlib.Data.List.Basic

namespace Incremental
set_option autoImplicit true

/-- How a stream ends: it gives nothing more, it is closed, or a read fails. -/
inductive Ending (E : Type) where
  | idle
  | closed
  | failed (e : E)

/-- What the reads of a stream give before it ends; a read of nothing is the end. -/
def received : List (Except E (List α)) → List α
  | [] => []
  | .error _ :: _ => []
  | .ok buf :: reads => if buf = [] then [] else buf ++ received reads

def ending : List (Except E (List α)) → Ending E
  | [] => .idle
  | .error e :: _ => .failed e
  | .ok buf :: reads => if buf = [] then .closed else ending reads

/-- What a loop over reads comes to: what it has gathered settles, with reads left, or the stream
ends before it does. -/
inductive Gathered (α β E : Type) where
  | settled (b : β) (got : List α) (rest : List (Except E (List α)))
  | ended (e : Ending E) (got : List α)

def gather (settle : List α → Option β) (got : List α) :
    List (Except E (List α)) → Gathered α β E
  | [] =>
    match settle got with
    | some b => .settled b got []
    | none => .ended .idle got
  | read :: reads =>
    match settle got with
    | some b => .settled b got (read :: reads)
    | none =>
      match read with
      | .error e => .ended (.failed e) got
      | .ok buf => if buf = [] then .ended .closed got else gather settle (got ++ buf) reads

variable {settle : List α → Option β} {got : List α} {reads : List (Except E (List α))}

theorem received_cons {buf : List α} (h : buf ≠ []) :
    received (.ok buf :: reads : List (Except E (List α))) = buf ++ received reads := if_neg h

theorem ending_cons {buf : List α} (h : buf ≠ []) :
    ending (.ok buf :: reads : List (Except E (List α))) = ending reads := if_neg h

theorem gather_settled (h : settle got = some b) (reads : List (Except E (List α))) :
    gather settle got reads = .settled b got reads := by
  cases reads with
  | nil => rw [gather, h]
  | cons read reads => rw [gather.eq_def, h]

theorem gather_cons (h : settle got = none) {buf : List α} (hbuf : buf ≠ []) :
    gather settle got (.ok buf :: reads : List (Except E (List α))) =
      gather settle (got ++ buf) reads := by
  rw [gather.eq_def, h]
  exact if_neg hbuf

/-- What settles early settles the same when more has come. -/
def Settles (settle : List α → Option β) (whole : List α) : Prop :=
  ∀ p b, p <+: whole → settle p = some b → settle whole = some b

theorem reads_cases (reads : List (Except E (List α))) :
    (received reads = [] ∧ ∀ settle : List α → Option β, ∀ got, settle got = none →
      gather settle got reads = .ended (ending reads) got) ∨
    ∃ buf rest, reads = .ok buf :: rest ∧ buf ≠ [] := by
  cases reads with
  | nil => exact .inl ⟨rfl, fun settle got h => by rw [gather, h, ending]⟩
  | cons read reads =>
    cases read with
    | error e => exact .inl ⟨rfl, fun settle got h => by rw [gather.eq_def, h, ending]⟩
    | ok buf =>
      by_cases hbuf : buf = []
      · subst hbuf
        exact .inl ⟨rfl, fun settle got h => by rw [gather.eq_def, h]; rfl⟩
      · exact .inr ⟨buf, reads, rfl, hbuf⟩

/-- Wherever the reads fall, the loop settles as the whole stream does. -/
theorem gather_some (hs : Settles settle (got ++ received reads))
    (h : settle (got ++ received reads) = some b) :
    ∃ got' rest, gather settle got reads = .settled b got' rest ∧ settle got' = some b ∧
      got' ++ received rest = got ++ received reads ∧ ending rest = ending reads := by
  induction reads generalizing got with
  | nil =>
    rw [received, List.append_nil] at h
    exact ⟨got, [], gather_settled h [], h, rfl, rfl⟩
  | cons read reads ih =>
    cases hgot : settle got with
    | some c =>
      have hc := hs got c (List.prefix_append _ _) hgot
      rw [h, Option.some.injEq] at hc
      subst hc
      exact ⟨got, read :: reads, gather_settled hgot _, hgot, rfl, rfl⟩
    | none =>
      rcases reads_cases (β := β) (read :: reads) with ⟨hnil, -⟩ | ⟨buf, rest, hcons, hbuf⟩
      · rw [hnil, List.append_nil, hgot] at h
        cases h
      · obtain ⟨rfl, rfl⟩ := List.cons.inj hcons
        rw [received_cons hbuf, ← List.append_assoc] at h hs ⊢
        rw [gather_cons hgot hbuf, ending_cons hbuf]
        exact ih hs h

/-- And where the whole stream does not settle, the loop comes to its end. -/
theorem gather_none (hs : Settles settle (got ++ received reads))
    (h : settle (got ++ received reads) = none) :
    gather settle got reads = .ended (ending reads) (got ++ received reads) := by
  have hunsettled {p : List α} (hp : p <+: got ++ received reads) : settle p = none := by
    cases hsettle : settle p with
    | none => rfl
    | some c =>
      rw [hs p c hp hsettle] at h
      cases h
  have hgot := hunsettled (List.prefix_append _ _)
  induction reads generalizing got with
  | nil => rw [gather, hgot, received, List.append_nil, ending]
  | cons read reads ih =>
    rcases reads_cases (β := β) (read :: reads) with ⟨hnil, hend⟩ | ⟨buf, rest, hcons, hbuf⟩
    · rw [hend settle got hgot, hnil, List.append_nil]
    · obtain ⟨rfl, rfl⟩ := List.cons.inj hcons
      rw [received_cons hbuf, ← List.append_assoc] at h hs hunsettled ⊢
      rw [gather_cons hgot hbuf, ending_cons hbuf]
      exact ih hs h (fun hp => hunsettled hp) (hunsettled (List.prefix_append _ _))

end Incremental
