import UnidppTrust.Api
import UnidppTrust.Run
import UnidppTrust.Reference
import Mathlib.Order.Interval.Set.Basic
import Mathlib.Order.Lattice

namespace Span
set_option autoImplicit true

variable [LinearOrder T]

def span (a : T) (b : Option T) : Set T := {t | a ≤ t ∧ ∀ u ∈ b, t ≤ u}

/-- Two spans meet. -/
def Overlap (a : T) (b : Option T) (c : T) (d : Option T) : Prop :=
  (span a b ∩ span c d).Nonempty

theorem overlap_iff {a c : T} :
    Overlap a b c d ↔ (∀ u ∈ b, a ≤ u ∧ c ≤ u) ∧ ∀ u ∈ d, a ≤ u ∧ c ≤ u := by
  constructor
  · rintro ⟨t, ⟨ha, hb⟩, hc, hd⟩
    exact ⟨fun u hu => ⟨ha.trans (hb u hu), hc.trans (hb u hu)⟩,
      fun u hu => ⟨ha.trans (hd u hu), hc.trans (hd u hu)⟩⟩
  · rintro ⟨hb, hd⟩
    exact ⟨max a c, ⟨le_max_left a c, fun u hu => max_le (hb u hu).1 (hb u hu).2⟩,
      le_max_right a c, fun u hu => max_le (hd u hu).1 (hd u hu).2⟩

end Span

namespace UnidppTrust
open Rust Json Api Span
set_option autoImplicit true

variable {V : Vocabulary} {S : Signatif V}

def Meets (S : Signatif V) (i : Interval V) (start : Timestamp) (stop : Option Timestamp) : Prop :=
  Overlap i.from_ i.to_ (start.toModel S) (stop.map (Timestamp.toModel S))

/-- The window lies inside the query without its ends, or is an open one that begins inside the
query. -/
def Missed (i : Interval V) (start : V.Time) : Option V.Time → Prop
  | some stop =>
    match i.to_ with
    | some end_ => start < i.from_ ∧ i.from_ ≤ end_ ∧ end_ < stop
    | none => start ≠ i.from_ ∧ i.from_ < stop
  | none =>
    match i.to_ with
    | some end_ => start < i.from_ ∧ i.from_ ≤ end_
    | none => False

/-- The filter returns the windows that meet the query, but for the missed ones. -/
theorem meetsWindow_iff (hS : S.Lawful P) (i : Interval V) {start : Timestamp}
    {stop : Option Timestamp} (h : ∀ t ∈ stop, start.secs ≤ t.secs) :
    meetsWindow S i start stop = true ↔
      Meets S i start stop ∧ ¬ Missed i (start.toModel S) (stop.map (Timestamp.toModel S)) := by
  obtain ⟨from_, to_⟩ := i
  rw [Meets, overlap_iff]
  cases stop with
  | none =>
    cases to_ with
    | none => simp [meetsWindow, Missed]
    | some end_ =>
      simp only [meetsWindow, Missed, Option.getD_some, Option.isNone_some, Bool.or_false,
        Bool.and_eq_true, decide_eq_true_eq, Option.map_none, Option.mem_def, Option.some.injEq,
        forall_eq', reduceCtorEq, false_implies, implies_true, and_true]
      constructor
      · rintro ⟨hf, he⟩
        exact ⟨⟨hf.trans he, he⟩, fun hm => absurd hf (not_le_of_gt hm.1)⟩
      · rintro ⟨⟨hf, he⟩, hm⟩
        exact ⟨le_of_not_gt fun hlt => hm ⟨hlt, hf⟩, he⟩
  | some t =>
    have hle : start.toModel S ≤ t.toModel S := hS.timeMono _ _ (h t rfl)
    generalize hs : start.toModel S = s at hle ⊢
    generalize ht : t.toModel S = e at hle ⊢
    cases to_ with
    | none =>
      simp only [meetsWindow, Missed, hs, ht, Option.getD_none, Bool.or_eq_true, Bool.and_eq_true,
        decide_eq_true_eq, Option.map_some, Option.mem_def, Option.some.injEq, forall_eq',
        reduceCtorEq, false_implies, implies_true, true_and]
      constructor
      · rintro (⟨hf, he⟩ | ⟨hf, he⟩)
        · obtain rfl := le_antisymm hf he
          exact ⟨⟨hle, hle⟩, fun hm => hm.1 rfl⟩
        · obtain rfl := le_antisymm hf he
          exact ⟨⟨le_rfl, hle⟩, fun hm => lt_irrefl _ hm.2⟩
      · rintro ⟨⟨hf, -⟩, hm⟩
        by_cases hsf : s = from_
        · exact .inl ⟨hsf.ge, hsf.le⟩
        · have hef : e ≤ from_ := le_of_not_gt fun hlt => hm ⟨hsf, hlt⟩
          exact .inr ⟨hf, hef⟩
    | some end_ =>
      simp only [meetsWindow, Missed, hs, ht, Option.getD_some, Bool.or_eq_true, Bool.and_eq_true,
        decide_eq_true_eq, Option.map_some, Option.mem_def, Option.some.injEq, forall_eq']
      constructor
      · rintro (⟨hf, he⟩ | ⟨hf, he⟩)
        · exact ⟨⟨⟨hf.trans he, he⟩, hf.trans hle, hle⟩,
            fun hm => absurd hf (not_le_of_gt hm.1)⟩
        · exact ⟨⟨⟨hf.trans he, hle.trans he⟩, hf, hle⟩,
            fun hm => absurd he (not_le_of_gt hm.2.2)⟩
      · rintro ⟨⟨⟨hfe, hse⟩, hf, -⟩, hm⟩
        by_cases hsf : from_ ≤ s
        · exact .inl ⟨hsf, hse⟩
        · have hee : e ≤ end_ := le_of_not_gt fun hlt => hm ⟨lt_of_not_ge hsf, hfe, hlt⟩
          exact .inr ⟨hf, hee⟩

/-- What is missed does meet the query. -/
theorem missed_meets (hS : S.Lawful P) {i : Interval V} {start : Timestamp}
    {stop : Option Timestamp} (h : ∀ t ∈ stop, start.secs ≤ t.secs)
    (hm : Missed i (start.toModel S) (stop.map (Timestamp.toModel S))) : Meets S i start stop := by
  obtain ⟨from_, to_⟩ := i
  rw [Meets, overlap_iff]
  cases stop with
  | none =>
    cases to_ with
    | none => cases hm
    | some end_ =>
      refine ⟨fun u hu => ?_, fun u hu => (by cases hu)⟩
      cases hu
      exact ⟨hm.2, hm.1.le.trans hm.2⟩
  | some t =>
    have hle : start.toModel S ≤ t.toModel S := hS.timeMono _ _ (h t rfl)
    cases to_ with
    | none =>
      refine ⟨fun u hu => (by cases hu), fun u hu => ?_⟩
      cases hu
      exact ⟨hm.2.le, hle⟩
    | some end_ =>
      obtain ⟨hs, hf, he⟩ := hm
      refine ⟨fun u hu => ?_, fun u hu => ?_⟩
      · cases hu
        exact ⟨hf, hs.le.trans hf⟩
      · cases hu
        exact ⟨hf.trans he.le, hle⟩

theorem admits_window {q : RevocationQuery} (hw : q.window = some (start, stop))
    (hsubject : q.subject = none) (hretroactive : q.retroactive = none) (r : Revocation V) :
    q.admits S r = meetsWindow S r.window start stop := by
  rw [RevocationQuery.admits, hw, hsubject, hretroactive]
  rfl

theorem revocationsDoc_views (at_ : Option Timestamp) (q : RevocationQuery) (s : State V)
    (asOf : Timestamp) : (revocationsDoc S at_ q s asOf).get "revocations" =
      some (.arr (revocationViews S q s asOf)) := by
  simp [revocationsDoc]

theorem revocationView_seq (graph : V.TrustGraph) (knownBy : Option Timestamp) (asOf : Timestamp)
    (seq : Nat) (r : Revocation V) :
    (revocationView S graph knownBy asOf seq r).get "seq" = some (.usize seq) := by
  simp [revocationView, lookup_cons_ite]

/-- The declarations are listed in ledger order, each with its position in the ledger, and they are
those whose window meets the query exactly if none of the ledger is missed. -/
theorem window_overlap_iff (A : App V) (hS : A.crates.signatif.Lawful P)
    (query : StringMap String) (s : State V) (at_ : Option Timestamp) (asOf : Timestamp)
    {doc : Value} {q : RevocationQuery} {start : Timestamp} {stop : Option Timestamp}
    (hq : revocationQuery query = .ok q) (hw : q.window = some (start, stop))
    (hsubject : q.subject = none) (hretroactive : q.retroactive = none)
    (hle : ∀ t ∈ stop, start.secs ≤ t.secs)
    (h : Api.revocations A query s at_ asOf = .ok doc) :
    let S := A.crates.signatif
    let ledger := S.ledgerRevocations s.ledger
    let view := fun x : Revocation V × Nat => revocationView S s.graph q.knownBy asOf x.2 x.1
    ∃ listed : List (Revocation V × Nat), listed.Sublist (ledger.zipIdx 1) ∧
      doc.get "revocations" = some (.arr (listed.map view)) ∧
      (∀ x ∈ listed, (view x).get "seq" = some (.usize x.2)) ∧
      ((∀ x ∈ ledger.zipIdx 1, x ∈ listed ↔ Meets S x.1.window start stop) ↔
        ∀ r ∈ ledger, ¬ Missed r.window (start.toModel S) (stop.map (Timestamp.toModel S))) := by
  intro S ledger view
  have hdoc : revocationsDoc S at_ q s asOf = doc := by
    rw [Api.revocations, hq] at h
    exact Except.ok.inj h
  refine ⟨(ledger.zipIdx 1).filter fun x => q.admits S x.1, List.filter_sublist, ?_,
    fun x _ => revocationView_seq s.graph q.knownBy asOf x.2 x.1, ?_⟩
  · rw [← hdoc, revocationsDoc_views]
    rfl
  · have hlisted (x : Revocation V × Nat) (hx : x ∈ ledger.zipIdx 1) :
        x ∈ (ledger.zipIdx 1).filter (fun x => q.admits S x.1) ↔
          Meets S x.1.window start stop ∧
            ¬ Missed x.1.window (start.toModel S) (stop.map (Timestamp.toModel S)) := by
      rw [List.mem_filter, admits_window hw hsubject hretroactive, meetsWindow_iff hS _ hle]
      exact and_iff_right hx
    constructor
    · intro hall r hr hm
      obtain ⟨i, hi, hget⟩ := List.getElem_of_mem hr
      have hx : (r, i + 1) ∈ ledger.zipIdx 1 := by
        rw [List.mk_mem_zipIdx_iff_le_and_getElem?_sub]
        refine ⟨by omega, ?_⟩
        rw [Nat.add_sub_cancel, List.getElem?_eq_getElem hi, hget]
      have hin := (hall _ hx).2 (missed_meets hS hle hm)
      exact ((hlisted _ hx).1 hin).2 hm
    · intro hnone x hx
      rw [hlisted x hx]
      exact and_iff_left (hnone x.1 (List.fst_mem_of_mem_zipIdx hx))

open Reference

def secondDay : Revocation vocabulary :=
  ⟨.node "eu-root", .cessation, 43200, "eu-super-quorum", ⟨86400, some 172800⟩, none⟩

def distrusting : Store vocabulary :=
  (storeOf crates [] []).mutateAll signatif [(.declareRevocation secondDay, noon 0)]

def windowed (window : String) : StringMap String :=
  Std.ExtTreeMap.ofList [("window", window)] compare

def within : RevocationQuery := ⟨none, none, none, some (⟨86400⟩, some ⟨172800⟩)⟩

def around : RevocationQuery := ⟨none, none, none, some (⟨0⟩, some ⟨777600⟩)⟩

theorem window_overlap_within :
    ∃ listed : List (Revocation vocabulary × Nat), listed.Sublist ([secondDay].zipIdx 1) ∧
      (revocationsDoc signatif none within distrusting.toState ⟨0⟩).get "revocations" =
        some (.arr (listed.map fun x =>
          revocationView signatif distrusting.graph none ⟨0⟩ x.2 x.1)) ∧
      (∀ x ∈ listed, (revocationView signatif distrusting.graph none ⟨0⟩ x.2 x.1).get "seq" =
        some (.usize x.2)) ∧
      ((∀ x ∈ [secondDay].zipIdx 1,
          x ∈ listed ↔ Meets signatif x.1.window ⟨86400⟩ (some ⟨172800⟩)) ↔
        ∀ r ∈ [secondDay], ¬ Missed r.window (86400 : Int) (some (172800 : Int))) :=
  window_overlap_iff app signatif_lawful (windowed "1970-01-02..1970-01-03")
    distrusting.toState none ⟨0⟩ (q := within) rfl rfl rfl rfl
    (fun t ht => by cases ht; decide) rfl

/-- The second day is not returned for the ten days around it. -/
theorem window_around_missed :
    Api.revocations app (windowed "1970-01-01..1970-01-10") distrusting.toState none ⟨0⟩ =
        .ok (revocationsDoc signatif none around distrusting.toState ⟨0⟩) ∧
      signatif.ledgerRevocations distrusting.ledger = [secondDay] ∧
      Meets signatif secondDay.window ⟨0⟩ (some ⟨777600⟩) ∧
      (revocationsDoc signatif none around distrusting.toState ⟨0⟩).get "revocations" =
        some (.arr []) := by
  have hledger : signatif.ledgerRevocations distrusting.ledger = [secondDay] := rfl
  refine ⟨rfl, hledger, ?_, ?_⟩
  · exact ⟨(86400 : Int), ⟨le_rfl, fun u hu => by cases hu; decide⟩,
      show (0 : Int) ≤ 86400 by decide, fun u hu => by cases hu; decide⟩
  · rw [revocationsDoc_views, revocationViews, hledger]
    rfl

end UnidppTrust
