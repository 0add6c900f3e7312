import UnidppTrust.Witnesses
import UnidppTrust.Run
import Mathlib.Data.Set.Card

namespace UnidppTrust
open Rust Json Api
set_option autoImplicit true

variable {V : Vocabulary} {S : Signatif V}

def Attests (S : Signatif V) (ws : NodeMap V V.PublicKey) (node : V.NodeId)
    (a : WitnessAttestation V) : Prop :=
  ∃ key, ws[a.witness]? = some key ∧
    S.slotVerify a.slot .masterListWitness (S.witnessBytes node a.at_) key = true

def attestingWitnesses (S : Signatif V) (ws : NodeMap V V.PublicKey) (e : MasterListEntry V) :
    Set V.NodeId :=
  {w | ∃ a ∈ e.attestations, a.witness = w ∧ Attests S ws e.node a}

/-- No witness supplied two verifying attestations. -/
def AttestsOnce (S : Signatif V) (ws : NodeMap V V.PublicKey) (e : MasterListEntry V) : Prop :=
  e.attestations.Pairwise fun a b =>
    Attests S ws e.node a → Attests S ws e.node b → a.witness ≠ b.witness

def attests (S : Signatif V) (ws : NodeMap V V.PublicKey) (node : V.NodeId)
    (a : WitnessAttestation V) : Bool :=
  match ws[a.witness]? with
  | some key => S.slotVerify a.slot .masterListWitness (S.witnessBytes node a.at_) key
  | none => false

theorem attests_iff {ws : NodeMap V V.PublicKey} :
    attests S ws node a = true ↔ Attests S ws node a := by
  unfold attests Attests
  cases ws[a.witness]? <;> simp

def verifyingWitnesses (S : Signatif V) (ws : NodeMap V V.PublicKey) (e : MasterListEntry V) :
    List V.NodeId :=
  (e.attestations.filter (attests S ws e.node)).map (·.witness)

theorem count_attestationsVerified (ws : NodeMap V V.PublicKey) (e : MasterListEntry V) :
    (attestationsVerified S e ws).count true = (verifyingWitnesses S ws e).length := by
  have hverified : attestationsVerified S e ws = e.attestations.map (attests S ws e.node) := rfl
  rw [hverified, verifyingWitnesses, List.length_map, List.count_eq_countP, List.countP_map,
    List.countP_eq_length_filter]
  congr 1
  apply List.filter_congr
  intro a _
  exact beq_true _

theorem size_verifiedWitnesses (ws : NodeMap V V.PublicKey) (e : MasterListEntry V) :
    (verifiedWitnesses S e ws).size = (verifyingWitnesses S ws e).toFinset.card := by
  have hverified : attestationsVerified S e ws = e.attestations.map (attests S ws e.node) := rfl
  rw [verifiedWitnesses, hverified, verifyingWitnesses]
  have hzip : e.attestations.zip (e.attestations.map (attests S ws e.node)) =
      e.attestations.map fun a => (a, attests S ws e.node a) := by
    have h := List.zip_map' (f := id) (g := attests S ws e.node) (l := e.attestations)
    rwa [List.map_id] at h
  rw [hzip, List.foldl_map]
  exact size_foldl_insert (attests S ws e.node) (·.witness) e.attestations

theorem coe_verifyingWitnesses (ws : NodeMap V V.PublicKey) (e : MasterListEntry V) :
    attestingWitnesses S ws e = ((verifyingWitnesses S ws e).toFinset : Set V.NodeId) := by
  ext w
  simp only [attestingWitnesses, Set.mem_ofPred_eq, verifyingWitnesses, List.coe_toFinset,
    List.mem_map, List.mem_filter, attests_iff, and_assoc, and_comm]

theorem ncard_attestingWitnesses (ws : NodeMap V V.PublicKey) (e : MasterListEntry V) :
    (attestingWitnesses S ws e).ncard = (verifyingWitnesses S ws e).toFinset.card := by
  rw [coe_verifyingWitnesses, Set.ncard_coe_finset]

theorem nodup_verifyingWitnesses {ws : NodeMap V V.PublicKey} {e : MasterListEntry V} :
    (verifyingWitnesses S ws e).Nodup ↔ AttestsOnce S ws e := by
  rw [verifyingWitnesses, List.Nodup, List.pairwise_map, List.pairwise_filter, AttestsOnce]
  simp only [attests_iff]

/-- The view of an entry states this number of witnesses, and is quorate exactly if it reaches the
stated threshold. -/
def CountAgrees (v : Value) (n : Nat) : Prop :=
  v.get "verified_witnesses" = some (.usize n) ∧
  ∃ count threshold quorate, v.get "verified_witnesses" = some (.u64 count) ∧
    v.get "threshold_required" = some (.u64 threshold) ∧ v.get "quorate" = some (.bool quorate) ∧
    (quorate = true ↔ threshold ≤ count)

theorem masterEntryView_counts (master : MasterList V) (e : MasterListEntry V) :
    let v := masterEntryView S master e
    v.get "verified_witnesses" =
        some (.usize (verifyingWitnesses S master.witnesses e).length) ∧
      v.get "threshold_required" = some (.u64 master.m) ∧
      v.get "quorate" = some (.bool (decide (master.m.toNat ≤
        (verifyingWitnesses S master.witnesses e).toFinset.card))) := by
  rw [← count_attestationsVerified, ← size_verifiedWitnesses]
  refine ⟨?_, ?_, ?_⟩
  · simp [masterEntryView, lookup_cons_ite]
  · simp [masterEntryView]
  · simp [masterEntryView, masterEntryQuorate, lookup_cons_ite]

theorem countAgrees_iff (master : MasterList V) (e : MasterListEntry V)
    (hlen : e.attestations.length < 2 ^ 64) :
    CountAgrees (masterEntryView S master e) (attestingWitnesses S master.witnesses e).ncard ↔
      AttestsOnce S master.witnesses e := by
  obtain ⟨hcount, hthreshold, hquorate⟩ := masterEntryView_counts (S := S) master e
  rw [← nodup_verifyingWitnesses, ncard_attestingWitnesses, CountAgrees]
  have hle : (verifyingWitnesses S master.witnesses e).length ≤ e.attestations.length := by
    rw [verifyingWitnesses, List.length_map]
    exact List.length_filter_le _ _
  revert hcount hquorate hle
  generalize verifyingWitnesses S master.witnesses e = named
  intro hcount hquorate hle
  have hword : named.length < 2 ^ 64 := Nat.lt_of_le_of_lt hle hlen
  have hcard := List.toFinset_card_le named
  constructor
  · rintro ⟨hsize, -⟩
    rw [hcount, Option.some.injEq] at hsize
    have hn := congrArg UInt64.toNat (Option.some.inj (congrArg Value.asU64 hsize))
    rw [UInt64.toNat_ofNat_of_lt' hword,
      UInt64.toNat_ofNat_of_lt' (Nat.lt_of_le_of_lt hcard hword)] at hn
    exact card_toFinset_eq_length.1 hn.symm
  · intro hn
    rw [List.toFinset_card_of_nodup hn] at hquorate ⊢
    refine ⟨hcount, _, _, _, hcount, hthreshold, hquorate, ?_⟩
    rw [decide_eq_true_eq, UInt64.le_iff_toNat_le, UInt64.toNat_ofNat_of_lt' hword]

theorem masterDoc_entries (master : MasterList V) (asOf : Timestamp) :
    (masterDoc S master asOf).get "entries" =
      some (.arr ((valuesOf master.entries).map (masterEntryView S master))) := by
  simp [masterDoc]

/-- Each served entry states the number of the registered witnesses that attest it, with the
verdict on that number, exactly if none of them supplied two verifying attestations. -/
theorem served_count_iff (A : App V) (s : State V) (asOf : Timestamp) {doc : Value}
    {views : List Value} (h : Api.masterList A s asOf = .ok doc)
    (hviews : doc.get "entries" = some (.arr views)) :
    List.Forall₂ (fun e v => e.attestations.length < 2 ^ 64 →
      (CountAgrees v (attestingWitnesses A.crates.signatif s.master.witnesses e).ncard ↔
        AttestsOnce A.crates.signatif s.master.witnesses e))
      (valuesOf s.master.entries) views := by
  cases h
  rw [masterDoc_entries] at hviews
  cases hviews
  rw [List.forall₂_map_right_iff, List.forall₂_same]
  intro e _ hlen
  exact countAgrees_iff s.master e hlen

open Reference

def attestationBy (witness : String) (key : Bytes) : WitnessAttestation vocabulary :=
  ⟨witness, 43200, ⟨.ed25519, "k", some (sign (signatif.witnessBytes "node" 43200) key)⟩⟩

def repeatedEntry : MasterListEntry vocabulary :=
  ⟨"node", [attestationBy "a" [7], attestationBy "a" [7]]⟩

def attestedEntry : MasterListEntry vocabulary :=
  ⟨"node", [attestationBy "a" [7], attestationBy "b" [8]]⟩

theorem decodable_twoWitnesses : (Op.setWitnesses 2 twoWitnesses).Decodable signatif :=
  ⟨.arr (twoWitnesses.map (witnessRecordToValue signatif)), by decide +kernel⟩

theorem decodable_entry (e : MasterListEntry vocabulary)
    (h : ∀ a ∈ e.attestations, a.at_ = 43200 ∧ a.slot.Framed signatif) :
    (Op.upsertMasterEntry e).Decodable signatif := by
  refine ⟨_, masterEntry_round_trip signatif_lawful (e := e) fun a ha => ?_⟩
  obtain ⟨hat, hslot⟩ := h a ha
  exact ⟨⟨⟨43200⟩, (noon_inYears 0).1, hat⟩, hslot⟩

def servedStore (e : MasterListEntry vocabulary) : Store vocabulary :=
  (storeOf crates [] []).mutateAll signatif
    [(.setWitnesses 2 twoWitnesses, noon 0), (.upsertMasterEntry e, noon 1)]

theorem served_count_two :
    List.Forall₂ (fun e v => e.attestations.length < 2 ^ 64 →
      (CountAgrees v (attestingWitnesses signatif (servedStore attestedEntry).master.witnesses
          e).ncard ↔ AttestsOnce signatif (servedStore attestedEntry).master.witnesses e))
      [attestedEntry] [masterEntryView signatif (servedStore attestedEntry).master attestedEntry] :=
  served_count_iff app (servedStore attestedEntry).toState ⟨43200⟩ rfl (masterDoc_entries _ _)

theorem reached_servedStore (e : MasterListEntry vocabulary)
    (h : ∀ a ∈ e.attestations, a.at_ = 43200 ∧ a.slot.Framed signatif) :
    Reached crates false (Event.Ordinary crates) (servedStore e) := by
  have h₀ : Reached crates false (Event.Ordinary crates) (storeOf crates [] []) :=
    .opened noon (ordinary_restart noon_inYears) rfl
  have hset : (Event.call (.setWitnesses 2 twoWitnesses : Op vocabulary) (noon 0)).Ordinary
      crates := ⟨⟨decodable_twoWitnesses, trivial, (noon_inYears 0).1⟩, rfl⟩
  have hat : (Op.upsertMasterEntry e).Instants (InYears signatif) := by
    intro a ha
    rw [(h a ha).1]
    exact (noon_inYears 0).1
  have hentry : (Event.call (.upsertMasterEntry e) (noon 1)).Ordinary crates :=
    ⟨⟨decodable_entry e h, hat, (noon_inYears 1).1⟩, rfl⟩
  exact (h₀.stepped hset rfl).stepped hentry rfl

/-- Two attestations by one witness are served as two verified witnesses, which is the threshold,
beside a verdict that counts one. -/
theorem served_count_repeated :
    ∃ s e v, Reached crates false (Event.Ordinary crates) s ∧ e ∈ valuesOf s.master.entries ∧
      v = masterEntryView signatif s.master e ∧
      v.get "verified_witnesses" = some (.usize 2) ∧
      v.get "threshold_required" = some (.u64 2) ∧ v.get "quorate" = some (.bool false) ∧
      (attestingWitnesses signatif s.master.witnesses e).ncard = 1 := by
  have hframed (k : Bytes) : (attestationBy "a" k).at_ = 43200 ∧
      (attestationBy "a" k).slot.Framed signatif := by
    refine ⟨rfl, fun s hs => ?_⟩
    cases hs
    exact List.length_replicate
  have hnamed : verifyingWitnesses signatif (servedStore repeatedEntry).master.witnesses
      repeatedEntry = ["a", "a"] := by decide +kernel
  have hentries : valuesOf (servedStore repeatedEntry).master.entries = [repeatedEntry] := rfl
  obtain ⟨hcount, hthreshold, hquorate⟩ :=
    masterEntryView_counts (S := signatif) (servedStore repeatedEntry).master repeatedEntry
  rw [hnamed] at hcount hquorate
  refine ⟨servedStore repeatedEntry, repeatedEntry, _, reached_servedStore _ fun a ha => ?_, ?_,
    rfl,
    hcount, hthreshold, hquorate, ?_⟩
  · rcases List.mem_cons.1 ha with rfl | ha
    · exact hframed [7]
    · rw [List.mem_singleton.1 ha]
      exact hframed [7]
  · rw [hentries]
    exact List.mem_cons_self
  · rw [ncard_attestingWitnesses, hnamed]
    rfl

end UnidppTrust
