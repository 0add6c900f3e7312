import UnidppTrust.Attestations

namespace UnidppTrust
open Rust Json
set_option autoImplicit true

variable {V : Vocabulary} {S : Signatif V}

/-- An entry is accepted exactly if enough distinct registered witnesses attest it. -/
theorem masterEntryQuorate_iff (ws : NodeMap V V.PublicKey) (e : MasterListEntry V) (m : UInt64) :
    masterEntryQuorate S e ws m = true ↔ m.toNat ≤ (attestingWitnesses S ws e).ncard := by
  rw [masterEntryQuorate, decide_eq_true_eq, size_verifiedWitnesses, ncard_attestingWitnesses]

theorem masterEntryQuorate_congr {ws ws' : NodeMap V V.PublicKey} {e e' : MasterListEntry V}
    (h : attestingWitnesses S ws e = attestingWitnesses S ws' e') (m : UInt64) :
    masterEntryQuorate S e ws m = masterEntryQuorate S e' ws' m := by
  rw [Bool.eq_iff_iff, masterEntryQuorate_iff, masterEntryQuorate_iff, h]

theorem masterEntryQuorate_mono {ws ws' : NodeMap V V.PublicKey} {e e' : MasterListEntry V}
    (h : attestingWitnesses S ws e ⊆ attestingWitnesses S ws' e') (hm : m' ≤ m)
    (hq : masterEntryQuorate S e ws m = true) : masterEntryQuorate S e' ws' m' = true := by
  rw [masterEntryQuorate_iff] at hq ⊢
  have hfinite : (attestingWitnesses S ws' e').Finite := by
    rw [coe_verifyingWitnesses]
    exact Finset.finite_toSet _
  exact (UInt64.le_iff_toNat_le.1 hm).trans (hq.trans (Set.ncard_le_ncard h hfinite))

theorem attestingWitnesses_subset {ws ws' : NodeMap V V.PublicKey} {e e' : MasterListEntry V}
    (hnode : e'.node = e.node) (hatts : e.attestations ⊆ e'.attestations)
    (hws : ∀ (w : V.NodeId) (key : V.PublicKey), ws[w]? = some key → ws'[w]? = some key) :
    attestingWitnesses S ws e ⊆ attestingWitnesses S ws' e' := by
  rintro w ⟨a, ha, hw, key, hkey, hver⟩
  refine ⟨a, hatts ha, hw, key, hws _ _ hkey, ?_⟩
  rw [hnode]
  exact hver

/-- The witnesses of a submitted list with an attestation in the entry that verifies under their
key there. -/
def attestingListed (S : Signatif V) (ws : List (V.NodeId × V.PublicKey)) (e : MasterListEntry V) :
    Set V.NodeId :=
  {w | ∃ key, (w, key) ∈ ws ∧ ∃ a ∈ e.attestations, a.witness = w ∧
    S.slotVerify a.slot .masterListWitness (S.witnessBytes e.node a.at_) key = true}

theorem attestingListed_eq {ws : List (V.NodeId × V.PublicKey)} (hn : NamedOnce ws)
    (e : MasterListEntry V) :
    attestingListed S ws e = attestingWitnesses S (Std.ExtTreeMap.ofList ws compare) e := by
  ext w
  constructor
  · rintro ⟨key, hkey, a, ha, rfl, hver⟩
    exact ⟨a, ha, rfl, key, (getElem?_ofList hn).2 hkey, hver⟩
  · rintro ⟨a, ha, rfl, key, hkey, hver⟩
    exact ⟨key, (getElem?_ofList hn).1 hkey, a, ha, rfl, hver⟩

theorem attestingListed_without {ws : List (V.NodeId × V.PublicKey)} {e : MasterListEntry V}
    (hatts : e.attestations = before ++ a :: after)
    (ha : ∀ key, (a.witness, key) ∈ ws →
      S.slotVerify a.slot .masterListWitness (S.witnessBytes e.node a.at_) key = false) :
    attestingListed S ws { e with attestations := before ++ after } = attestingListed S ws e := by
  ext w
  constructor
  · rintro ⟨key, hkey, b, hb, hw, hver⟩
    refine ⟨key, hkey, b, ?_, hw, hver⟩
    rw [hatts]
    rcases List.mem_append.1 hb with hb | hb
    · exact List.mem_append_left _ hb
    · exact List.mem_append_right _ (List.mem_cons_of_mem a hb)
  · rintro ⟨key, hkey, b, hb, rfl, hver⟩
    refine ⟨key, hkey, b, ?_, rfl, hver⟩
    rw [hatts] at hb
    rcases List.mem_append.1 hb with hb | hb
    · exact List.mem_append_left _ hb
    rcases List.mem_cons.1 hb with rfl | hb
    · rw [ha key hkey] at hver
      cases hver
    · exact List.mem_append_right _ hb

theorem setWitnesses_master (hM : S.Masters) {s : Store V} {r : AuditRecord V}
    (h : (s.setWitnesses S t m ws).1 = .ok r) :
    (s.setWitnesses S t m ws).2.master.entries = s.master.entries ∧
      (s.setWitnesses S t m ws).2.master.Made m ws := by
  rcases setWitnesses_cases (S := S) (s := s) (t := t) m ws with ⟨e, he⟩ | ⟨hap, a, hok⟩
  · rw [he] at h
    cases h
  · rw [hok]
    refine ⟨?_, (applyOp_setWitnesses hM hap).2.2⟩
    change (applyOp S s.toState (.setWitnesses m ws)).2.master.entries = s.master.entries
    simp only [applyOp] at hap ⊢
    split at hap
    · cases hap
    split at hap
    · cases hap
    split at hap
    · cases hap
    · rename_i hm hw hl
      rw [if_neg hm, if_neg hw, if_neg hl]

theorem masterEntryView_quorate (master : MasterList V) (e : MasterListEntry V) :
    (masterEntryView S master e).get "quorate" =
      some (.bool (masterEntryQuorate S e master.witnesses master.m)) := by
  simp [masterEntryView, lookup_cons_ite]

/-- The verdict on an entry counts the distinct witnesses that attest it, whatever the order and
the repetition of attestations, and more of them take no acceptance away. A change of witnesses
keeps every entry, and each is then judged by the new witnesses alone: an attestation under a key
they do not have adds nothing. -/
theorem acceptance_live (hM : S.Masters) :
    (∀ (e : MasterListEntry V) (W : NodeMap V V.PublicKey) (m : UInt64),
      (masterEntryQuorate S e W m = true ↔ m.toNat ≤ (attestingWitnesses S W e).ncard) ∧
      (∀ atts, (∀ a, a ∈ atts ↔ a ∈ e.attestations) →
        masterEntryQuorate S { e with attestations := atts } W m = masterEntryQuorate S e W m) ∧
      ∀ atts W' m', e.attestations ⊆ atts →
        (∀ (w : V.NodeId) (key : V.PublicKey), W[w]? = some key → W'[w]? = some key) → m' ≤ m →
        masterEntryQuorate S e W m = true →
        masterEntryQuorate S { e with attestations := atts } W' m' = true) ∧
    ∀ (s : Store V) (t : Tick) (m' : UInt64) (ws : List (V.NodeId × V.PublicKey))
      (r : AuditRecord V), (s.setWitnesses S t m' ws).1 = .ok r → NamedOnce ws →
      let s' := (s.setWitnesses S t m' ws).2
      s'.master.entries = s.master.entries ∧ ∀ e : MasterListEntry V,
        (masterEntryView S s'.master e).get "quorate" =
          some (.bool (masterEntryQuorate S e (Std.ExtTreeMap.ofList ws compare) m')) ∧
        (masterEntryQuorate S e (Std.ExtTreeMap.ofList ws compare) m' = true ↔
          m'.toNat ≤ (attestingListed S ws e).ncard) ∧
        ∀ before a after, e.attestations = before ++ a :: after →
          (∀ key, (a.witness, key) ∈ ws →
            S.slotVerify a.slot .masterListWitness (S.witnessBytes e.node a.at_) key = false) →
          masterEntryQuorate S { e with attestations := before ++ after }
            (Std.ExtTreeMap.ofList ws compare) m' =
          masterEntryQuorate S e (Std.ExtTreeMap.ofList ws compare) m' := by
  constructor
  · intro e W m
    refine ⟨masterEntryQuorate_iff W e m, fun atts hatts => ?_, fun atts W' m' hatts hW hm => ?_⟩
    · apply masterEntryQuorate_congr
      apply Set.Subset.antisymm
      · exact attestingWitnesses_subset rfl (fun a ha => (hatts a).1 ha) fun _ _ h => h
      · exact attestingWitnesses_subset rfl (fun a ha => (hatts a).2 ha) fun _ _ h => h
    · exact masterEntryQuorate_mono (attestingWitnesses_subset rfl hatts hW) hm
  · intro s t m' ws r hok hn s'
    obtain ⟨hentries, hmade⟩ := setWitnesses_master hM hok
    refine ⟨hentries, fun e => ⟨?_, ?_, fun before a after hatts ha => ?_⟩⟩
    · rw [masterEntryView_quorate, hmade.witnesses, hmade.m]
    · rw [masterEntryQuorate_iff, attestingListed_eq hn]
    · apply masterEntryQuorate_congr
      rw [← attestingListed_eq hn, ← attestingListed_eq hn]
      exact attestingListed_without hatts ha

open Reference

def replacedWitness : List (String × Bytes) := [("a", [7]), ("b", [9])]

theorem acceptance_live_replaced :
    masterEntryQuorate signatif { attestedEntry with attestations := [attestationBy "a" [7]] }
        (Std.ExtTreeMap.ofList replacedWitness compare) 2 =
      masterEntryQuorate signatif attestedEntry (Std.ExtTreeMap.ofList replacedWitness compare)
        2 := by
  have hstale : ∀ key, ("b", key) ∈ replacedWitness →
      signatif.slotVerify (attestationBy "b" [8]).slot .masterListWitness
        (signatif.witnessBytes "node" 43200) key = false := by
    intro key hkey
    have hnine : key = [9] := by simpa [replacedWitness] using hkey
    rw [hnine]
    decide +kernel
  have hset := (acceptance_live reference_masters).2 (servedStore attestedEntry) (noon 2) 2
    replacedWitness _ rfl (by rw [NamedOnce]; decide)
  exact (hset.2 attestedEntry).2.2 [attestationBy "a" [7]] (attestationBy "b" [8]) [] rfl hstale

end UnidppTrust
