import UnidppTrust.Decoders
import UnidppTrust.Handlers
import UnidppTrust.Run
import UnidppTrust.Reference

namespace UnidppTrust
open Rust Json Api
set_option autoImplicit true

variable {V : Vocabulary} {S : Signatif V} {A : App V}

def BadEntry (S : Signatif V) (v : Value) : Prop := ∃ e, trustEntryFromValue S v = .error e

theorem badEntry_stated {v : Value} (h : trustEntryFromValue S v = .error e) :
    ∃ f, stated (trustEntryFromValue S v) = .error (.err f) ∧ f.status = 400 := by
  have hret := returns_trustEntryFromValue (S := S) v
  rw [h] at hret ⊢
  cases e with
  | err m => exact ⟨badRequest m, rfl, rfl⟩
  | abort => exact (hret rfl).elim

theorem upsertTrustEntry_present {s : Store V} {jur : String}
    (h : s.trustLists.contains (toAsciiUppercase jur) = true) (t : Tick)
    (e : TrustListEntryRecord V) :
    ∃ r, s.upsertTrustEntry S t jur e.node e.notBefore e.supersededAt =
        (.ok r, (s.record S t (.upsertTrustEntry jur e.node e.notBefore e.supersededAt)).2) ∧
      (s.record S t (.upsertTrustEntry jur e.node e.notBefore e.supersededAt)).2.trustLists.contains
        (toAsciiUppercase jur) = true := by
  refine ⟨(s.record S t (.upsertTrustEntry jur e.node e.notBefore e.supersededAt)).1, ?_, ?_⟩
  · rw [Store.upsertTrustEntry, h]
    rfl
  · simp only [Store.record, applyOp]
    split
    · exact h
    · exact Std.ExtTreeMap.contains_insert_self

theorem applyEntries_cases (A : App V) {s : Store V} {jur : String}
    (h : s.trustLists.contains (toAsciiUppercase jur) = true) (ticks : Nat → Tick)
    (vs : List Value) :
    s.log.length ≤ (applyEntries A s ticks jur vs).2.log.length ∧
    (((∃ v ∈ vs, BadEntry A.crates.signatif v) ∧
        ∃ f, (applyEntries A s ticks jur vs).1 = .error (.err f) ∧ f.status = 400) ∨
      (¬ (∃ v ∈ vs, BadEntry A.crates.signatif v) ∧
        (applyEntries A s ticks jur vs).1 = .ok ())) := by
  induction vs generalizing s ticks with
  | nil =>
    refine ⟨Nat.le_refl _, .inr ⟨?_, rfl⟩⟩
    rintro ⟨v, hv, -⟩
    cases hv
  | cons v vs ih =>
    rw [applyEntries]
    cases hv : trustEntryFromValue A.crates.signatif v with
    | error e =>
      obtain ⟨f, hf, hstatus⟩ := badEntry_stated hv
      rw [hv] at hf
      rw [hf]
      exact ⟨Nat.le_refl _, .inl ⟨⟨v, List.mem_cons_self, e, hv⟩, f, rfl, hstatus⟩⟩
    | ok e =>
      obtain ⟨r, hr, hpresent⟩ := upsertTrustEntry_present (S := A.crates.signatif) h (ticks 0) e
      simp only [stated_ok, followed_ok, hr, calling_ok]
      obtain ⟨hlen, hcases⟩ := ih hpresent fun i => ticks (i + 1)
      have hrecord : s.log.length ≤ (s.record A.crates.signatif (ticks 0)
          (.upsertTrustEntry jur e.node e.notBefore e.supersededAt)).2.log.length := by
        simp only [Store.record, List.length_append, Nat.le_add_right]
      have hhead : ¬ BadEntry A.crates.signatif v := by
        rintro ⟨x, hx⟩
        rw [hv] at hx
        cases hx
      refine ⟨Nat.le_trans hrecord hlen, ?_⟩
      simpa only [List.mem_cons, exists_eq_or_imp, or_iff_right hhead] using hcases

/-- A registration with entries: a list that is taken is refused as a whole; on a free one the
list, and the entries before a bad one, stay. -/
theorem registerList_cases (A : App V) (m : Moment) (l : ListRequest) (s : Store V) :
    (s.trustLists.contains (toAsciiUppercase l.jurisdiction) = true ∧
      (registerList A m l s).2 = s ∧ ∃ f, (registerList A m l s).1 = .error f) ∨
    (s.trustLists.contains (toAsciiUppercase l.jurisdiction) = false ∧
      (((∃ v ∈ l.entries, BadEntry A.crates.signatif v) ∧
          s.log.length < (registerList A m l s).2.log.length ∧
          ∃ f, (registerList A m l s).1 = .error (.err f) ∧ f.status = 400) ∨
        (¬ (∃ v ∈ l.entries, BadEntry A.crates.signatif v) ∧
          ∃ r, (registerList A m l s).1 = .ok r))) := by
  cases hfree : s.trustLists.contains (toAsciiUppercase l.jurisdiction) with
  | true =>
    left
    rw [registerList, Store.registerTrustList, if_pos hfree]
    exact ⟨rfl, rfl, _, rfl⟩
  | false =>
    right
    refine ⟨rfl, ?_⟩
    have hreg : s.registerTrustList A.crates.signatif (m.records 0) l.jurisdiction l.framework =
        (.ok (s.record A.crates.signatif (m.records 0)
            (.registerTrustList l.jurisdiction l.framework)).1,
          (s.record A.crates.signatif (m.records 0)
            (.registerTrustList l.jurisdiction l.framework)).2) := by
      rw [Store.registerTrustList, hfree]
      rfl
    have hpresent : (s.record A.crates.signatif (m.records 0)
        (.registerTrustList l.jurisdiction l.framework)).2.trustLists.contains
          (toAsciiUppercase l.jurisdiction) = true := by
      simp only [Store.record, applyOp, hfree]
      exact Std.ExtTreeMap.contains_insert_self
    have hlog : s.log.length < (s.record A.crates.signatif (m.records 0)
        (.registerTrustList l.jurisdiction l.framework)).2.log.length := by
      simp only [Store.record, List.length_append, List.length_singleton, Nat.lt_succ_self]
    rw [registerList, hreg, calling_ok, followed_ok]
    obtain ⟨hlen, hcases⟩ := applyEntries_cases A hpresent (fun i => m.records (i + 1)) l.entries
    revert hlen hcases
    generalize applyEntries A _ _ _ _ = out
    obtain ⟨x, s'⟩ := out
    rintro hlen (⟨hbad, f, hf, hstatus⟩ | ⟨hgood, hok⟩)
    · dsimp only at hf
      subst hf
      exact .inl ⟨hbad, Nat.lt_of_lt_of_le hlog hlen, f, rfl, hstatus⟩
    · dsimp only at hok
      subst hok
      exact .inr ⟨hgood, _, rfl⟩

def Refuses (x : Outcome Empty Response) : Prop :=
  ∃ r, x = .ok r ∧ 400 ≤ r.status ∧ r.status < 500

def Api.Route.mutating : Route → Bool
  | .adminEvidence | .nodes | .edges | .trustLists | .trustListEntries _ | .masterListWitnesses
  | .masterListEntries | .revocations => true
  | _ => false

/-- The request registers a free list with an item that is no trust-list entry. -/
def HalfApplied (A : App V) (req : Request) (s : Store V) : Prop :=
  ∃ l, decoded A req decodeList = .ok l ∧
    s.trustLists.contains (toAsciiUppercase l.jurisdiction) = false ∧
    ∃ v ∈ l.entries, BadEntry A.crates.signatif v

/-- A handler whose calls leave the store when they fail leaves it when it refuses. -/
theorem handle_unchanged {req : Request} {now : Timestamp} {s : Store V}
    {decode : Value → Outcome Refusal α}
    {call : α → Store V → Outcome Refusal (AuditRecord V) × Store V}
    {doc : α → AuditRecord V → Store V → Value}
    (hcall : ∀ a f s', decoded A req decode = .ok a → call a s = (.error f, s') → s' = s)
    (h : Refuses ((handle A req now s decode call doc).map (answer A now) id).1) :
    ((handle A req now s decode call doc).map (answer A now) id).2 = s := by
  rcases handle_cases A req now s decode call doc with
    ⟨f, -, hout⟩ | ⟨a, ha, ⟨f, s', hc, hout⟩ | ⟨r, s', hc, hout⟩⟩
  · rw [hout]
    rfl
  · rw [hout]
    exact hcall a f s' ha hc
  · rw [hout] at h
    obtain ⟨response, hr, hstatus, -⟩ := h
    cases hr
    have hok : 400 ≤ 201 := hstatus
    exact absurd hok (by decide)

theorem refuses_of_decoded {req : Request} {now : Timestamp} {s : Store V}
    {decode : Value → Outcome Refusal α}
    {call : α → Store V → Outcome Refusal (AuditRecord V) × Store V}
    {doc : α → AuditRecord V → Store V → Value} (hd : decoded A req decode = .error (.err f))
    (hf : 400 ≤ f.status ∧ f.status < 500) :
    Refuses ((handle A req now s decode call doc).map (answer A now) id).1 := by
  rcases handle_cases A req now s decode call doc with ⟨g, hg, hout⟩ | ⟨a, ha, -⟩
  · rw [hd] at hg
    cases hg
    rw [hout]
    exact ⟨_, rfl, hf⟩
  · rw [hd] at ha
    cases ha

theorem halfApplied_grows {req : Request} {s : Store V} (h : HalfApplied A req s)
    (order : HashOrder) (m : Moment) :
    Refuses (serve A order req m s .trustLists).1 ∧
      s.log.length < (serve A order req m s .trustLists).2.log.length := by
  obtain ⟨l, hl, hfree, hbad⟩ := h
  rcases registerList_cases A m l s with ⟨htaken, -⟩ | ⟨-, ⟨-, hlog, f, hf, hstatus⟩ | ⟨hgood, -⟩⟩
  · rw [hfree] at htaken
    cases htaken
  · have hcall : registerList A m l s = (.error (.err f), (registerList A m l s).2) :=
      Prod.ext hf rfl
    have hout : Api.registerTrustList A req m s = (.error (.err f), (registerList A m l s).2) := by
      rcases handle_cases A req m.now s decodeList (registerList A m) _ with
        ⟨g, hg, -⟩ | ⟨a, ha, ⟨g, s', hc, hout⟩ | ⟨r, s', hc, -⟩⟩
      · rw [hl] at hg
        cases hg
      · rw [hl] at ha
        cases ha
        have hg : Fault.err f = g := by
          rw [hc] at hf
          exact (Except.error.inj hf).symm
        rw [hg, hc]
        exact hout
      · rw [hl] at ha
        cases ha
        rw [hcall] at hc
        cases hc
    have hserve : serve A order req m s .trustLists =
        (.ok (errorResponse A f m.now), (registerList A m l s).2) := by
      rw [serve, hout]
      rfl
    rw [hserve]
    refine ⟨⟨_, rfl, Nat.le_of_eq hstatus.symm, ?_⟩, hlog⟩
    change f.status < 500
    omega
  · exact (hgood hbad).elim

/-- A request that is refused changes nothing, in the store and in the journal, exactly if it is
not one that registers a free list with a bad entry. -/
theorem refused_unchanged_iff (A : App V) (order : HashOrder) (req : Request) (m : Moment)
    (s : Store V) (route : Route) (hroute : route.mutating = true) :
    (Refuses (serve A order req m s route).1 → (serve A order req m s route).2 = s) ↔
      ¬ (route = .trustLists ∧ HalfApplied A req s) := by
  by_cases hlists : route = .trustLists
  · subst hlists
    constructor
    · rintro hclean ⟨-, hhalf⟩
      obtain ⟨hrefuses, hlog⟩ := halfApplied_grows hhalf order m
      rw [hclean hrefuses] at hlog
      exact Nat.lt_irrefl _ hlog
    · intro hnot hrefuses
      refine handle_unchanged (fun l f s' hl hc => ?_) hrefuses
      rcases registerList_cases A m l s with ⟨-, hs, -⟩ | ⟨hfree, ⟨hbad, -⟩ | ⟨-, r, hr⟩⟩
      · rw [hc] at hs
        exact hs
      · exact (hnot ⟨rfl, l, hl, hfree, hbad⟩).elim
      · rw [hc] at hr
        cases hr
  · refine ⟨fun _ hhalf => hlists hhalf.1, fun _ hrefuses => ?_⟩
    cases route with
    | adminEvidence =>
      simp only [serve, Api.registerEvidence] at hrefuses ⊢
      refine handle_unchanged (fun e f s' _ hc => ?_) hrefuses
      exact calling_error (registerEvidence_cases e) hc
    | nodes =>
      simp only [serve, Api.registerNode] at hrefuses ⊢
      refine handle_unchanged (fun n f s' _ hc => ?_) hrefuses
      exact calling_error (.inr (registerNode_cases n)) hc
    | edges =>
      simp only [serve, Api.addEdge] at hrefuses ⊢
      refine handle_unchanged (fun c f s' _ hc => ?_) hrefuses
      exact calling_error (addEdge_cases c) hc
    | trustLists => exact (hlists rfl).elim
    | trustListEntries jur =>
      simp only [serve, Api.upsertTrustEntry] at hrefuses ⊢
      refine handle_unchanged (fun e f s' _ hc => ?_) hrefuses
      exact calling_error (upsertTrustEntry_cases jur e.node e.notBefore e.supersededAt) hc
    | masterListWitnesses =>
      simp only [serve, Api.setWitnesses] at hrefuses ⊢
      refine handle_unchanged (fun w f s' _ hc => ?_) hrefuses
      exact calling_error (setWitnesses_cases w.m w.witnesses) hc
    | masterListEntries =>
      simp only [serve, Api.upsertMasterEntry] at hrefuses ⊢
      refine handle_unchanged (fun e f s' _ hc => ?_) hrefuses
      exact calling_error (upsertMasterEntry_cases e) hc
    | revocations =>
      simp only [serve, Api.declareRevocation] at hrefuses ⊢
      refine handle_unchanged (fun r f s' _ hc => ?_) hrefuses
      exact calling_error (declareRevocation_cases r) hc
    | _ => cases hroute

open Reference

def listWithBadEntry : Value :=
  .object [("jurisdiction", .str "EU"), ("entries", .arr
    [.object [("node", .str "a"), ("not_before", .str "1970-01-01")],
      .object [("node", .str "b")]])]

def postedList : Request := ⟨∅, ∅, listWithBadEntry.toString⟩

theorem parseBody_postedList : parseBody app postedList.body = .ok listWithBadEntry := by
  have hentry (n : Nat) (l : Fields)
      (h : l.Forall fun f => f.2.Canonical app.crates.json.printed n) :
      (Value.object l).Canonical app.crates.json.printed (n + 1) := canonical_fields h
  apply parseBody_toString crates_lawful
  apply hentry
  simp only [List.Forall, canonical_str, canonical_arr, List.mem_cons, List.not_mem_nil, or_false,
    forall_eq_or_imp, forall_eq, true_and]
  exact ⟨hentry _ _ ⟨trivial, trivial⟩, hentry _ _ trivial⟩

/-- The list is no node. -/
theorem refused_unchanged_node :
    Refuses (serve app .ascending postedList ⟨⟨43200⟩, noon⟩ (storeOf crates [] []) .nodes).1 ∧
      (serve app .ascending postedList ⟨⟨43200⟩, noon⟩ (storeOf crates [] []) .nodes).2 =
        storeOf crates [] [] := by
  have hdecoded : decoded app postedList (fun v => stated (nodeFromValue signatif v)) =
      .error (.err (badRequest "`id` is required")) := by
    rw [decoded, parseBody_postedList]
    rfl
  have hstatus : 400 ≤ (badRequest "`id` is required").status ∧
      (badRequest "`id` is required").status < 500 := by
    rw [badRequest]
    decide
  have hrefuses : Refuses
      (serve app .ascending postedList ⟨⟨43200⟩, noon⟩ (storeOf crates [] []) .nodes).1 := by
    simp only [serve, Api.registerNode]
    exact refuses_of_decoded hdecoded hstatus
  refine ⟨hrefuses, (refused_unchanged_iff app .ascending postedList ⟨⟨43200⟩, noon⟩
    (storeOf crates [] []) .nodes rfl).2 (fun h => ?_) hrefuses⟩
  cases h.1

/-- The list and its first entry stay, although the request is refused. -/
theorem refused_changed :
    Reached crates false (Event.Ordinary crates) (storeOf crates [] []) ∧
    Refuses (serve app .ascending postedList ⟨⟨43200⟩, noon⟩ (storeOf crates [] []) .trustLists).1 ∧
      (serve app .ascending postedList ⟨⟨43200⟩, noon⟩ (storeOf crates [] []) .trustLists).2 ≠
        storeOf crates [] [] := by
  have hdecoded : decoded app postedList decodeList = .ok ⟨"EU", none,
      [.object [("node", .str "a"), ("not_before", .str "1970-01-01")],
        .object [("node", .str "b")]]⟩ := by
    rw [decoded, parseBody_postedList]
    rfl
  have hhalf : HalfApplied app postedList (storeOf crates [] []) := by
    refine ⟨_, hdecoded, rfl, _, List.mem_cons_of_mem _ List.mem_cons_self, ?_⟩
    exact ⟨_, rfl⟩
  obtain ⟨hrefuses, hlog⟩ := halfApplied_grows hhalf .ascending ⟨⟨43200⟩, noon⟩
  refine ⟨.opened noon (ordinary_restart noon_inYears) rfl, hrefuses, fun h => ?_⟩
  rw [h] at hlog
  exact Nat.lt_irrefl _ hlog

end UnidppTrust
