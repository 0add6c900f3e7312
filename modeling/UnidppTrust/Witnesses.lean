import UnidppTrust.Handlers
import UnidppTrust.Distinct
import UnidppTrust.Reference

namespace UnidppTrust
open Rust Json Api
set_option autoImplicit true

/-- A master list keeps the threshold and the witnesses it is made with. -/
structure Signatif.Masters (S : Signatif V) : Prop where
  m : ∀ m ws, (S.masterNew m ws).m = m
  k : ∀ m ws, (S.masterNew m ws).k = UInt64.ofNat ws.size
  witnesses : ∀ m ws, (S.masterNew m ws).witnesses = ws
  upsert : ∀ l e, (S.masterUpsert l e).m = l.m ∧ (S.masterUpsert l e).k = l.k ∧
    (S.masterUpsert l e).witnesses = l.witnesses

/-- Some set of the registered witnesses reaches the threshold. -/
structure MasterList.Satisfiable (l : MasterList V) : Prop where
  positive : 1 ≤ l.m.toNat
  reached : l.m.toNat ≤ l.witnesses.size
  k : l.k = UInt64.ofNat l.witnesses.size

structure MasterList.Made (l : MasterList V) (m : UInt64)
    (ws : List (V.NodeId × V.PublicKey)) : Prop where
  m : l.m = m
  k : l.k = UInt64.ofNat l.witnesses.size
  witnesses : l.witnesses = Std.ExtTreeMap.ofList ws compare

variable {V : Vocabulary} {S : Signatif V}

/-- The witnesses a call sets, if it is an accepted `set_witnesses`. -/
def Store.witnessSet (S : Signatif V) (s : Store V) (c : Op V × Tick) :
    List (UInt64 × List (V.NodeId × V.PublicKey)) :=
  match c.1, (s.mutate S c.2 c.1).1 with
  | .setWitnesses m ws, .ok _ => [(m, ws)]
  | _, _ => []

def Store.witnessSets (S : Signatif V) (s : Store V) :
    List (Op V × Tick) → List (UInt64 × List (V.NodeId × V.PublicKey))
  | [] => []
  | c :: cs => s.witnessSet S c ++ (s.mutate S c.2 c.1).2.witnessSets S cs

def NamedOnce (ws : List (V.NodeId × V.PublicKey)) : Prop := (ws.map (·.1)).Nodup

theorem applyOp_setWitnesses (hM : S.Masters) {s : State V}
    (h : (applyOp S s (.setWitnesses m ws)).1 = .ok ()) :
    1 ≤ m.toNat ∧ m.toNat ≤ ws.length ∧
      (applyOp S s (.setWitnesses m ws)).2.master.Made m ws := by
  simp only [applyOp] at h ⊢
  split at h
  · cases h
  rename_i hm
  split at h
  · cases h
  rename_i hw
  split at h
  · cases h
  rename_i hl
  rw [if_neg hm, if_neg hw, if_neg hl]
  refine ⟨?_, Nat.le_of_not_lt hl, hM.m m _, ?_, hM.witnesses m _⟩
  · rw [Nat.one_le_iff_ne_zero, Ne, ← UInt64.toNat_zero, UInt64.toNat_inj]
    exact hm
  · change (S.masterNew m _).k = UInt64.ofNat (S.masterNew m _).witnesses.size
    rw [hM.k, hM.witnesses]

theorem applyOp_made (hM : S.Masters) {s : State V} (h : s.master.Made m ws) {op : Op V}
    (hop : ∀ m ws, op ≠ .setWitnesses m ws) : (applyOp S s op).2.master.Made m ws := by
  by_cases hpart : op.part = .master
  · cases op with
    | setWitnesses m ws => exact (hop m ws rfl).elim
    | upsertMasterEntry entry =>
      simp only [applyOp]
      split
      · exact h
      · obtain ⟨hm, hk, hw⟩ := hM.upsert s.master entry
        refine ⟨hm.trans h.m, ?_, hw.trans h.witnesses⟩
        rw [hk, hw, h.k]
    | _ => cases hpart
  · rwa [(applyOp_sameBut S s op).master hpart]

theorem mutate_made (hM : S.Masters) {s : Store V} (h : s.master.Made m ws)
    {c : Op V × Tick} (hc : s.witnessSet S c = []) : (s.mutate S c.2 c.1).2.master.Made m ws := by
  rcases mutate_cases S s c.2 c.1 with ⟨e, hm⟩ | ⟨-, a, hm⟩
  · rw [hm]
    exact h
  · rw [Store.witnessSet, hm] at hc
    rw [hm]
    apply applyOp_made hM h
    intro m ws hop
    rw [hop] at hc
    cases hc

theorem setWitnesses_made (hM : S.Masters) {s : Store V} {c : Op V × Tick}
    (hc : (m, ws) ∈ s.witnessSet S c) :
    1 ≤ m.toNat ∧ m.toNat ≤ ws.length ∧ (s.mutate S c.2 c.1).2.master.Made m ws := by
  obtain ⟨op, t⟩ := c
  unfold Store.witnessSet at hc
  split at hc
  · rename_i op r hop hr
    cases List.mem_singleton.1 hc
    dsimp only at hop hr ⊢
    subst hop
    rcases mutate_cases S s t (.setWitnesses m ws) with ⟨e, hm⟩ | ⟨hap, b, hm⟩
    · rw [hm] at hr
      cases hr
    · rw [hm]
      exact applyOp_setWitnesses hM hap
  · cases hc

/-- The last accepted `set_witnesses` of a run decides. -/
theorem mutateAll_made (hM : S.Masters) (s : Store V) (calls : List (Op V × Tick)) :
    (s.witnessSets S calls = [] → ∀ m ws, s.master.Made m ws →
      (s.mutateAll S calls).master.Made m ws) ∧
    ∀ m ws, (s.witnessSets S calls).getLast? = some (m, ws) →
      1 ≤ m.toNat ∧ m.toNat ≤ ws.length ∧ (s.mutateAll S calls).master.Made m ws := by
  induction calls generalizing s with
  | nil => exact ⟨fun _ m ws h => h, fun m ws h => by cases h⟩
  | cons c cs ih =>
    obtain ⟨hkeep, hlast⟩ := ih (s.mutate S c.2 c.1).2
    constructor
    · intro hnil m ws h
      obtain ⟨hc, hcs⟩ := List.append_eq_nil_iff.1 hnil
      exact hkeep hcs m ws (mutate_made hM h hc)
    · intro m ws h
      rw [Store.witnessSets, List.getLast?_append] at h
      cases hrest : ((s.mutate S c.2 c.1).2.witnessSets S cs).getLast? with
      | some last =>
        rw [hrest, Option.some_or] at h
        exact hlast m ws (hrest.trans h)
      | none =>
        rw [hrest, Option.none_or] at h
        obtain ⟨hpos, hle, hmade⟩ := setWitnesses_made hM (List.mem_of_getLast? h)
        exact ⟨hpos, hle, hkeep (List.getLast?_eq_none_iff.1 hrest) m ws hmade⟩

theorem made_size {l : MasterList V} (h : l.Made m ws) :
    l.witnesses.size = (ws.map Prod.fst).toFinset.card := by
  rw [h.witnesses, size_ofList]

theorem made_satisfiable {l : MasterList V} (h : l.Made m ws) (hpos : 1 ≤ m.toNat)
    (hle : m.toNat ≤ ws.length) (hn : NamedOnce ws) : l.Satisfiable where
  positive := by rwa [h.m]
  reached := by rwa [h.m, made_size h, List.toFinset_card_of_nodup hn, List.length_map]
  k := h.k

theorem setWitnesses_response {A : App V} {d : Doc}
    (h : Api.setWitnesses A req moment s = (.ok d, s'))
    (hw : decoded A req (decodeWitnesses A) = .ok w) :
    d.doc.get "k" = some (.usize w.witnesses.length) ∧
      (w.m, w.witnesses) ∈
        s.witnessSet A.crates.signatif (.setWitnesses w.m w.witnesses, moment.records 0) ∧
      s' = (s.mutate A.crates.signatif (moment.records 0) (.setWitnesses w.m w.witnesses)).2 := by
  rcases handle_cases A req moment.now s (decodeWitnesses A) _ _ with
    ⟨f, -, hf⟩ | ⟨a, ha, ⟨f, s₁, -, hf⟩ | ⟨r, s₁, hcall, hd⟩⟩
  · rw [Api.setWitnesses, hf] at h
    cases h
  · rw [Api.setWitnesses, hf] at h
    cases h
  · rw [hw] at ha
    cases ha
    rw [Api.setWitnesses, hd] at h
    cases h
    have hcall' := calling_eq_ok hcall
    refine ⟨?_, ?_, ?_⟩
    · simp [lookup_cons_ite]
    · simp only [Store.witnessSet, Store.mutate, hcall', Prod.map_fst]
      exact List.mem_cons_self
    · simp only [Store.mutate, hcall', Prod.map_snd]
      rfl

theorem usize_size_iff {ws : List (V.NodeId × V.PublicKey)} (hlen : ws.length < 2 ^ 64) :
    Value.usize ws.length = .usize (ws.map Prod.fst).toFinset.card ↔ NamedOnce ws := by
  have hle : (ws.map Prod.fst).toFinset.card ≤ ws.length := by
    have hlength : (ws.map (·.1)).length = ws.length := List.length_map _
    rw [← hlength]
    exact List.toFinset_card_le _
  constructor
  · intro h
    have hword := congrArg Value.asU64 h
    rw [Value.usize, Value.usize, asU64_u64, asU64_u64, Option.some.injEq] at hword
    have hn := congrArg UInt64.toNat hword
    rw [UInt64.toNat_ofNat_of_lt' hlen, UInt64.toNat_ofNat_of_lt' (Nat.lt_of_le_of_lt hle hlen)]
      at hn
    apply card_toFinset_eq_length.1
    rw [List.length_map, hn]
  · intro h
    rw [List.toFinset_card_of_nodup h, List.length_map]

/-- After any run with an accepted `set_witnesses` whose last one names no node twice, some set of
the registered witnesses reaches the threshold. A request is answered with the number of the
registered witnesses, and leaves such a list, exactly if it names no node twice. -/
theorem shape_satisfiable (A : App V) (hM : A.crates.signatif.Masters) (s : Store V) :
    (∀ calls m ws, (s.witnessSets A.crates.signatif calls).getLast? = some (m, ws) →
      NamedOnce ws → (s.mutateAll A.crates.signatif calls).master.Satisfiable) ∧
    ∀ (req : Request) (moment : Moment) (d : Doc) (s' : Store V) (w : WitnessesRequest V)
      (later : List (Op V × Tick)),
      Api.setWitnesses A req moment s = (.ok d, s') →
      decoded A req (decodeWitnesses A) = .ok w → w.witnesses.length < 2 ^ 64 →
      s'.witnessSets A.crates.signatif later = [] →
      let master := (s'.mutateAll A.crates.signatif later).master
      (master.Satisfiable ∧ d.doc.get "k" = some (.usize master.witnesses.size) ↔
        NamedOnce w.witnesses) := by
  constructor
  · intro calls m ws hlast hn
    obtain ⟨hpos, hle, hmade⟩ := (mutateAll_made hM s calls).2 m ws hlast
    exact made_satisfiable hmade hpos hle hn
  · intro req moment d s' w later h hw hlen hkeep master
    obtain ⟨hk, hset, rfl⟩ := setWitnesses_response h hw
    obtain ⟨hpos, hle, hmade⟩ := setWitnesses_made hM hset
    have hmaster := (mutateAll_made hM _ later).1 hkeep _ _ hmade
    rw [hk, made_size hmaster, Option.some.injEq, usize_size_iff hlen]
    exact and_iff_right_of_imp fun hn => made_satisfiable hmaster hpos hle hn

open Reference

def twoWitnesses : List (String × Bytes) := [("a", [7]), ("b", [8])]

def repeatedWitness : List (String × Bytes) := [("a", [7]), ("a", [7])]

theorem reference_masters : signatif.Masters where
  m _ _ := rfl
  k _ _ := rfl
  witnesses _ _ := rfl
  upsert _ _ := ⟨rfl, rfl, rfl⟩

theorem shape_satisfiable_two :
    ((Store.empty crates).mutateAll signatif
      [(.setWitnesses 2 twoWitnesses, noon 0)]).master.Satisfiable :=
  (shape_satisfiable app reference_masters (Store.empty crates)).1 _ 2 twoWitnesses rfl
    (by rw [NamedOnce]; decide)

/-- A threshold of two is installed over one witness that is named twice, and the response counts
two. -/
theorem shape_repeated :
    ∃ a, ((Store.empty crates).mutate signatif (noon 0) (.setWitnesses 2 repeatedWitness)).1 =
        .ok a ∧
      let master := ((Store.empty crates).mutateAll signatif
        [(.setWitnesses 2 repeatedWitness, noon 0)]).master
      master.m = 2 ∧ master.witnesses.size = 1 ∧ ¬ master.Satisfiable := by
  have hsize : (Std.ExtTreeMap.ofList repeatedWitness compare).size = 1 := by decide +kernel
  refine ⟨_, rfl, rfl, hsize, fun h => ?_⟩
  have hreached := h.reached
  change 2 ≤ (Std.ExtTreeMap.ofList repeatedWitness compare).size at hreached
  rw [hsize] at hreached
  exact absurd hreached (by decide)

end UnidppTrust
