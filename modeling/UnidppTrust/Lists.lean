import UnidppTrust.Accepted
import UnidppTrust.LastWrite
import UnidppTrust.Keyed
import UnidppTrust.Reference

namespace UnidppTrust
open Rust Json LastWrite
set_option autoImplicit true

variable {V : Vocabulary} {S : Signatif V}

def State.trustList (s : State V) (jurisdiction : String) : Option (TrustList V) :=
  s.trustLists[toAsciiUppercase jurisdiction]?

abbrev Tenure (V : Vocabulary) := V.Time × Option V.Time

def TrustListEntry.tenure (e : TrustListEntry V) : Tenure V := (e.notBefore, e.supersededAt)

/-- The tables that the trust lists and the frameworks are: a row for each list, labelled with its
jurisdiction as given and its framework, and a cell for each node. -/
def State.table (s : State V) : Table String V.NodeId (String × Option String) (Tenure V) :=
  fun key => s.trustLists[key]?.map fun l =>
    ((l.jurisdiction, s.frameworkOf key), fun n => l.entries[n]?.map (·.tenure))

def Op.listWrite : Op V → Option (Write String V.NodeId (String × Option String) (Tenure V))
  | .registerTrustList j framework => some (.create (toAsciiUppercase j) (j, framework))
  | .upsertTrustEntry j node notBefore supersededAt =>
    some (.put (toAsciiUppercase j) node (notBefore, supersededAt))
  | _ => none

theorem applyEntry_tenure (l : TrustList V) (e : TrustListEntryRecord V) :
    (fun n => (applyEntry l e).entries[n]?.map (·.tenure)) =
      Function.update (fun n => l.entries[n]?.map (·.tenure)) e.node
        (some (e.notBefore, e.supersededAt)) := by
  funext n
  simp only [applyEntry, Std.ExtTreeMap.getElem?_insert, Std.compare_eq_iff_eq]
  by_cases hn : e.node = n
  · subst hn
    rw [if_pos rfl, Function.update_self]
    cases l.entries[e.node]? <;> rfl
  · rw [if_neg hn, Function.update_of_ne (Ne.symm hn)]

theorem table_sameBut {s s' : State V}
    (h : s'.trustLists = s.trustLists ∧ s'.frameworks = s.frameworks) : s'.table = s.table := by
  funext key
  simp only [State.table, State.frameworkOf, h.1, h.2]

theorem table_insert {s s' : State V} (hlists : s'.trustLists = s.trustLists.insert key l)
    (hframeworks : ∀ k, k ≠ key → s'.frameworkOf k = s.frameworkOf k) :
    s'.table = Function.update s.table key
      (some ((l.jurisdiction, s'.frameworkOf key), fun n => l.entries[n]?.map (·.tenure))) := by
  funext k
  simp only [State.table, hlists, Std.ExtTreeMap.getElem?_insert, Std.compare_eq_iff_eq]
  by_cases hk : key = k
  · subst hk
    rw [if_pos rfl, Function.update_self, Option.map_some]
  · rw [if_neg hk, Function.update_of_ne (Ne.symm hk), hframeworks k (Ne.symm hk)]
    rfl

/-- An operation that applies is a write that the table allows, or leaves the table. -/
theorem applyOp_table (hS : S.Lists) {s : State V} {op : Op V}
    (h : (applyOp S s op).1 = .ok ()) :
    match op.listWrite with
    | some w => s.table.Allows w ∧ (applyOp S s op).2.table = s.table.write w
    | none => (applyOp S s op).2.table = s.table := by
  cases op with
  | registerTrustList j framework =>
    simp only [applyOp] at h
    split at h
    · cases h
    · rename_i hfree
      have hnone : s.trustLists[toAsciiUppercase j]? = none := by
        rwa [Std.ExtTreeMap.contains_eq_isSome_getElem?, Option.not_isSome_iff_eq_none] at hfree
      simp only [Op.listWrite, applyOp, if_neg hfree]
      constructor
      · rw [Table.Allows, State.table, hnone]
        rfl
      · rw [table_insert rfl, hS.jurisdiction, hS.entries, Table.write]
        · simp only [State.frameworkOf, Std.ExtTreeMap.getElem?_insert_self, Option.join_some,
            Std.ExtTreeMap.getElem?_empty, Option.map_none]
        · intro k hk
          simp only [State.frameworkOf, Std.ExtTreeMap.getElem?_insert, Std.compare_eq_iff_eq,
            if_neg (Ne.symm hk)]
  | upsertTrustEntry j node notBefore supersededAt =>
    simp only [applyOp] at h
    split at h
    · cases h
    · rename_i l hl
      simp only [Op.listWrite, applyOp, hl]
      constructor
      · rw [Table.Allows, State.table, hl]
        exact Option.some_ne_none _
      · refine Eq.trans (table_insert (s := s) rfl fun _ _ => rfl) ?_
        rw [applyEntry_tenure, Table.write, State.table, hl]
        rfl
  | _ => exact table_sameBut ((applyOp_sameBut S s _).lists fun h => by cases h)

theorem applyAll_table (hS : S.Lists) (s : State V) (ops : List (Op V)) (h : s.Applies S ops) :
    s.table.AllowsAll (ops.filterMap Op.listWrite) ∧
      (s.applyAll S ops).table = s.table.writeAll (ops.filterMap Op.listWrite) := by
  induction ops generalizing s with
  | nil => exact ⟨trivial, rfl⟩
  | cons op ops ih =>
    obtain ⟨hop, hops⟩ := h
    obtain ⟨hallows, htable⟩ := ih _ hops
    have hstep := applyOp_table hS hop
    rw [List.filterMap_cons]
    cases hw : op.listWrite with
    | none =>
      rw [hw] at hstep
      dsimp only at hstep
      rw [hstep] at hallows htable
      exact ⟨hallows, htable⟩
    | some w =>
      rw [hw] at hstep
      obtain ⟨hallow, hwrite⟩ := hstep
      rw [hwrite] at hallows htable
      exact ⟨⟨hallow, hallows⟩, htable⟩

def listRegistrations (j : String) (ops : List (Op V)) : List (String × Option String) :=
  ops.filterMap fun
    | .registerTrustList j' framework =>
      if toAsciiUppercase j' = toAsciiUppercase j then some (j', framework) else none
    | _ => none

/-- What is upserted for a node on the list of a jurisdiction in any case, in turn. -/
def tenures (j : String) (n : V.NodeId) (ops : List (Op V)) : List (Tenure V) :=
  ops.filterMap fun
    | .upsertTrustEntry j' node notBefore supersededAt =>
      if toAsciiUppercase j' = toAsciiUppercase j ∧ node = n then some (notBefore, supersededAt)
      else none
    | _ => none

theorem labels_listWrite (j : String) (ops : List (Op V)) :
    labels (toAsciiUppercase j) (ops.filterMap Op.listWrite) = listRegistrations j ops := by
  rw [labels, List.filterMap_filterMap]
  apply List.filterMap_congr
  intro op _
  cases op <;> rfl

theorem cells_listWrite (j : String) (n : V.NodeId) (ops : List (Op V)) :
    cells (toAsciiUppercase j) n (ops.filterMap Op.listWrite) = tenures j n ops := by
  rw [cells, List.filterMap_filterMap]
  apply List.filterMap_congr
  intro op _
  cases op <;> rfl

def State.Paired (s : State V) : Prop :=
  ∀ key : String, s.trustLists.contains key = s.frameworks.contains key

theorem paired_sameBut {s s' : State V} (hs : s.Paired)
    (h : s'.trustLists = s.trustLists ∧ s'.frameworks = s.frameworks) : s'.Paired := by
  intro key
  rw [h.1, h.2]
  exact hs key

theorem applyOp_paired {s : State V} (h : s.Paired) (op : Op V) : (applyOp S s op).2.Paired := by
  cases op with
  | registerTrustList j framework =>
    simp only [applyOp]
    split
    · exact h
    · intro key
      simp only [Std.ExtTreeMap.contains_insert, h key]
  | upsertTrustEntry j node notBefore supersededAt =>
    simp only [applyOp]
    split
    · exact h
    · rename_i l hl
      intro key
      simp only [Std.ExtTreeMap.contains_insert, h key]
      by_cases hk : toAsciiUppercase j = key
      · subst hk
        have hin := h (toAsciiUppercase j)
        rw [Std.ExtTreeMap.contains_eq_isSome_getElem?, hl] at hin
        rw [← hin]
        exact Bool.or_true _
      · have hne : (compare (toAsciiUppercase j) key == .eq) = false := by
          rw [beq_eq_false_iff_ne, Ne, Std.compare_eq_iff_eq]
          exact hk
        rw [hne, Bool.false_or]
  | _ => exact paired_sameBut h ((applyOp_sameBut S s _).lists fun h => by cases h)

theorem applyAll_keyed (hS : S.Lists) {s : State V} (hk : s.Keyed) (hp : s.Paired)
    (ops : List (Op V)) : (s.applyAll S ops).Keyed ∧ (s.applyAll S ops).Paired := by
  induction ops generalizing s with
  | nil => exact ⟨hk, hp⟩
  | cons op ops ih => exact ih (applyOp_keyed hS hk op) (applyOp_paired hp op)

theorem upsert_untouched {s : State V} {j : String} {node : V.NodeId} {notBefore : V.Time}
    {supersededAt : Option V.Time}
    (h : (applyOp S s (.upsertTrustEntry j node notBefore supersededAt)).1 = .ok ()) :
    let s' := (applyOp S s (.upsertTrustEntry j node notBefore supersededAt)).2
    s'.frameworks = s.frameworks ∧
    (∀ j', toAsciiUppercase j' ≠ toAsciiUppercase j → s'.trustList j' = s.trustList j') ∧
    ∃ l l', s.trustList j = some l ∧ s'.trustList j = some l' ∧ l'.jurisdiction = l.jurisdiction ∧
      ∀ n, n ≠ node → l'.entries[n]? = l.entries[n]? := by
  simp only [applyOp] at h ⊢
  split at h
  · cases h
  · rename_i l hl
    have hself : (s.trustLists.insert (toAsciiUppercase j)
        (applyEntry l ⟨node, notBefore, supersededAt⟩))[toAsciiUppercase j]? =
          some (applyEntry l ⟨node, notBefore, supersededAt⟩) := Std.ExtTreeMap.getElem?_insert_self
    refine ⟨rfl, fun j' hj => ?_, l, _, hl, hself, rfl, fun n hn => ?_⟩
    · simp only [State.trustList, Std.ExtTreeMap.getElem?_insert, Std.compare_eq_iff_eq]
      exact if_neg (Ne.symm hj)
    simp only [applyEntry, Std.ExtTreeMap.getElem?_insert, Std.compare_eq_iff_eq]
    exact if_neg (Ne.symm hn)

/-- What a run from the empty store leaves in the two maps. -/
theorem lists_mutateAll {C : Crates V} (hS : C.signatif.Lists) (calls : List (Op V × Tick)) :
    let s := (Store.empty C).mutateAll C.signatif calls
    let ops := (Store.empty C).accepted C.signatif calls
    s.Keyed ∧ s.Paired ∧ (Store.empty C).table.AllowsAll (ops.filterMap Op.listWrite) ∧
      s.table = (Store.empty C).table.writeAll (ops.filterMap Op.listWrite) := by
  intro s ops
  obtain ⟨happlies, hstate⟩ := mutateAll_accepted (S := C.signatif) (Store.empty C) calls
  obtain ⟨hallows, htable⟩ := applyAll_table hS _ _ happlies
  rw [← hstate] at htable
  have hempty : (State.initial C).Paired := by
    intro key
    simp only [State.initial, Std.ExtTreeMap.contains_empty]
  obtain ⟨hkeyed, hpaired⟩ := applyAll_keyed hS keyed_initial hempty ops
  change s.toState = (State.initial C).applyAll C.signatif ops at hstate
  rw [← hstate] at hkeyed hpaired
  exact ⟨hkeyed, hpaired, hallows, htable⟩

theorem trustList_cases {C : Crates V} (hS : C.signatif.Lists) (calls : List (Op V × Tick))
    (j : String) :
    let s := (Store.empty C).mutateAll C.signatif calls
    let ops := (Store.empty C).accepted C.signatif calls
    (s.trustList j = none ∧ listRegistrations j ops = [] ∧ ∀ n, tenures j n ops = []) ∨
    ∃ l framework, s.trustList j = some l ∧
      listRegistrations j ops = [(l.jurisdiction, framework)] ∧
      s.frameworks[toAsciiUppercase j]? = some framework ∧
      ∀ n, l.entries[n]?.map (·.tenure) = (tenures j n ops).getLast? := by
  intro s ops
  obtain ⟨-, hpaired, hallows, htable⟩ := lists_mutateAll hS calls
  have hempty : (Store.empty C).table (toAsciiUppercase j) = none := by
    simp only [State.table, Store.empty, State.initial, Std.ExtTreeMap.getElem?_empty,
      Option.map_none]
  have hrow := writeAll_absent hempty hallows
  rw [← htable, labels_listWrite] at hrow
  simp only [cells_listWrite] at hrow
  rcases hrow with ⟨hnone, hcells, habsent⟩ | ⟨label, hone, hpresent⟩
  · left
    exact ⟨Option.map_eq_none_iff.1 habsent, hnone, hcells⟩
  · right
    obtain ⟨l, hl, hcell⟩ := Option.map_eq_some_iff.1 hpresent
    obtain ⟨hlabel, hcells⟩ := Prod.mk.inj hcell
    have hin := hpaired (toAsciiUppercase j)
    rw [Std.ExtTreeMap.contains_eq_isSome_getElem?, hl, Std.ExtTreeMap.contains_eq_isSome_getElem?,
      eq_comm, Option.isSome_some, Option.isSome_iff_exists] at hin
    obtain ⟨framework, hframework⟩ := hin
    rw [State.frameworkOf, hframework, Option.join_some] at hlabel
    refine ⟨l, framework, hl, ?_, hframework, fun n => congrFun hcells n⟩
    rw [hone, ← hlabel]

/-- After any run from the empty store the trust lists are the ones registered, each once, with the
last tenure upserted for each node, however their jurisdictions were spelled. -/
theorem trust_lists_last_write (C : Crates V) (hS : C.signatif.Lists)
    (calls : List (Op V × Tick)) :
    let s := (Store.empty C).mutateAll C.signatif calls
    let ops := (Store.empty C).accepted C.signatif calls
    (∀ j, ((s.trustList j).isSome ↔ listRegistrations j ops ≠ []) ∧
      (s.trustList j = none → ∀ n, tenures j n ops = []) ∧
      ∀ l, s.trustList j = some l → ∃ framework,
        listRegistrations j ops = [(l.jurisdiction, framework)] ∧
        s.frameworks[toAsciiUppercase j]? = some framework ∧
        ∀ n, l.entries[n]?.map (·.tenure) = (tenures j n ops).getLast?) ∧
    (∀ key, s.trustLists.contains key = s.frameworks.contains key) ∧
    (∀ (key : String) (l : TrustList V), s.trustLists[key]? = some l →
      toAsciiUppercase l.jurisdiction = key ∧
        ∀ (n : V.NodeId) (e : TrustListEntry V), l.entries[n]? = some e → e.node = n) ∧
    ∀ j node notBefore supersededAt t,
      (∃ a, (s.mutate C.signatif t (.upsertTrustEntry j node notBefore supersededAt)).1 = .ok a) →
      let s' := (s.mutate C.signatif t (.upsertTrustEntry j node notBefore supersededAt)).2
      s'.frameworks = s.frameworks ∧
      (∀ j', toAsciiUppercase j' ≠ toAsciiUppercase j → s'.trustList j' = s.trustList j') ∧
      ∃ l l', s.trustList j = some l ∧ s'.trustList j = some l' ∧
        l'.jurisdiction = l.jurisdiction ∧ ∀ n, n ≠ node → l'.entries[n]? = l.entries[n]? := by
  intro s ops
  obtain ⟨hkeyed, hpaired, -⟩ := lists_mutateAll hS calls
  refine ⟨?_, hpaired, ?_, ?_⟩
  · intro j
    rcases trustList_cases hS calls j with
      ⟨hlist, hnone, hcells⟩ | ⟨l, framework, hlist, hone, hframework, hcells⟩
    · rw [hlist]
      refine ⟨?_, fun _ => hcells, fun l hl => by cases hl⟩
      exact iff_of_false Bool.false_ne_true fun hne => hne hnone
    · rw [hlist]
      refine ⟨iff_of_true rfl ?_, fun h => (by cases h), ?_⟩
      · rw [hone]
        exact List.cons_ne_nil _ _
      · intro l' hl'
        cases hl'
        exact ⟨framework, hone, hframework, hcells⟩
  · intro key l hl
    exact ⟨(hkeyed.list key l hl).jurisdiction, (hkeyed.list key l hl).entry⟩
  · intro j node notBefore supersededAt t hok
    obtain ⟨a, ha⟩ := hok
    rcases mutate_cases C.signatif s t (.upsertTrustEntry j node notBefore supersededAt) with
      ⟨e, hm⟩ | ⟨hap, b, hm⟩
    · rw [hm] at ha
      cases ha
    · rw [hm]
      exact upsert_untouched hap

open Reference

/-- Two spellings of one jurisdiction: the second registration is refused, and the second upsert
replaces the first. -/
def spelled : List (Op vocabulary × Tick) :=
  [(.registerTrustList "eu" (some "eidas"), noon 0), (.registerTrustList "EU" none, noon 1),
    (.upsertTrustEntry "Eu" "node-a" 0 none, noon 2),
    (.upsertTrustEntry "eU" "node-a" 86400 (some 172800), noon 3)]

theorem trust_lists_last_write_spelled :
    ∃ l, ((Store.empty crates).mutateAll signatif spelled).trustList "EU" = some l ∧
      l.jurisdiction = "eu" ∧
      l.entries["node-a"]?.map (·.tenure) = some ((86400 : Int), some (172800 : Int)) := by
  obtain ⟨hlists, -⟩ := trust_lists_last_write crates reference_lists spelled
  obtain ⟨hsome, -, hlist⟩ := hlists "EU"
  have hregistered : listRegistrations "EU" ((Store.empty crates).accepted signatif spelled) =
      [("eu", some "eidas")] := rfl
  have hupserted : tenures "EU" "node-a" ((Store.empty crates).accepted signatif spelled) =
      [((0 : Int), none), ((86400 : Int), some (172800 : Int))] := rfl
  obtain ⟨l, hl⟩ := Option.isSome_iff_exists.1
    (hsome.2 (by rw [crates_signatif, hregistered]; exact List.cons_ne_nil _ _))
  obtain ⟨framework, hreg, -, hcell⟩ := hlist l hl
  have hspelling := hregistered.symm.trans hreg
  refine ⟨l, hl, ?_, ?_⟩
  · simp only [List.cons.injEq, Prod.mk.injEq] at hspelling
    exact hspelling.1.1.symm
  · exact (hcell "node-a").trans (congrArg List.getLast? hupserted)

end UnidppTrust
