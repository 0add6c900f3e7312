import UnidppTrust.WireForms

namespace UnidppTrust
open Rust Json
set_option autoImplicit true

variable {V : Vocabulary} {S : Signatif V}

@[simp] theorem objectOf_object (l : Fields) (msg : String) :
    objectOf (.object l) msg = .ok (fieldsOf l) := rfl

@[simp] theorem objectOf_obj (fs : Fields) (msg : String) : objectOf (.obj fs) msg = .ok fs := rfl

@[simp] theorem strField_fieldsOf (l : Fields) (key msg : String) :
    strField (fieldsOf l) key msg = okOr ((l.reverse.lookup key).bind Value.asStr) msg := by
  rw [strField, lookup_fieldsOf]

@[simp] theorem u64Field_fieldsOf (l : Fields) (key msg : String) :
    u64Field (fieldsOf l) key msg = okOr ((l.reverse.lookup key).bind Value.asU64) msg := by
  rw [u64Field, lookup_fieldsOf]

@[simp] theorem arrayField_fieldsOf (l : Fields) (key msg : String) :
    arrayField (fieldsOf l) key msg = okOr ((l.reverse.lookup key).bind Value.asArray) msg := by
  rw [arrayField, lookup_fieldsOf]

@[simp] theorem inField_ok (key : String) (a : α) : inField key (.ok a) = .ok a := rfl

/-- Reading the key back from any object that carries its fields. -/
theorem publicFromValue_fields (hS : S.Lawful P) (k : V.PublicKey) (l : Fields)
    (hs : (fieldsOf l).lookup "suite" = some (.str (S.suiteStr (S.publicSuite k))))
    (hp : (fieldsOf l).lookup "public" = some (.str (hexEncode (S.publicBytes k)))) :
    publicFromValue S (.obj (fieldsOf l)) = .ok k := by
  simp only [publicFromValue, objectOf_obj, ok_bind, strField, hs, hp, Option.bind_some, asStr_str,
    okOr_some, hexDecode_hexEncode, hS.publicKey, lift_ok, ne_eq, not_true_eq_false, if_false]

theorem slot_round_trip (hS : S.Lawful P) (h : SignatureSlot.Framed S slot) :
    slotFromValue S (slotToValue S slot) = .ok slot := by
  obtain ⟨suite, keyId, signature⟩ := slot
  cases signature with
  | none =>
    simp [slotFromValue, slotToValue, signatureFromValue, Value.ofOption, lookup_cons_ite, hS.keyId,
      hS.suite]
  | some sig =>
    have hlen : sig.length = S.signatureLen suite := h sig rfl
    simp [slotFromValue, slotToValue, signatureFromValue, Value.ofOption, lookup_cons_ite, hS.keyId,
      hS.suite, hexDecode_hexEncode, hlen]

theorem slots_round_trip (hS : S.Lawful P) {slots : List (SignatureSlot V)}
    (h : ∀ s ∈ slots, s.Framed S) :
    (slots.map (slotToValue S)).mapM (slotFromValue S) = .ok slots :=
  mapM_map_ok slots fun s hs => slot_round_trip hS (h s hs)

theorem subject_round_trip (hS : S.Lawful P) (s : RevokedSubject V) :
    revokedSubjectFromValue S (revokedSubjectToValue S s) = .ok s := by
  cases s with
  | key k =>
    simp [revokedSubjectFromValue, revokedSubjectToValue, lookup_cons_ite, hS.keyId]
  | node n =>
    simp [revokedSubjectFromValue, revokedSubjectToValue, lookup_cons_ite, hS.nodeId]
  | passport p =>
    simp [revokedSubjectFromValue, revokedSubjectToValue, lookup_cons_ite, hS.passportId]
  | condition n c =>
    simp [revokedSubjectFromValue, revokedSubjectToValue, lookup_cons_ite, hS.nodeId,
      (hS.condition c).2]

theorem reason_round_trip (hS : S.Lawful P) (h : RevocationReason.Instants (OnClock S) r) :
    reasonFromValue S (reasonToValue S r) = .ok r := by
  cases r with
  | keyCompromise t =>
    simp [reasonFromValue, reasonToValue, reasonParams, reqTs, tsString, lookup_cons_ite, hS.token,
      RevocationReason.taxonomy, tsParse_timeStr hS h]
  | authorityCompromised t =>
    simp [reasonFromValue, reasonToValue, reasonParams, reqTs, tsString, lookup_cons_ite, hS.token,
      RevocationReason.taxonomy, tsParse_timeStr hS h]
  | supersession n =>
    simp [reasonFromValue, reasonToValue, reasonParams, lookup_cons_ite, hS.token,
      RevocationReason.taxonomy, hS.nodeId]
  | _ =>
    simp [reasonFromValue, reasonToValue, reasonParams, lookup_cons_ite, hS.token,
      RevocationReason.taxonomy]

theorem timeStr_nonempty (hS : S.Lawful P) (h : OnClock S t) : (S.timeStr t).isEmpty = false := by
  by_contra hne
  have hs : S.timeStr t = "" := by simpa using hne
  have hp := tsParse_timeStr hS h
  rw [hs] at hp
  exact absurd hp (fun hp => by cases hp)

theorem optTs_round_trip (hS : S.Lawful P) {t : Option V.Time} (h : ∀ u ∈ t, OnClock S u)
    (key : String) :
    optTs S key (some (.ofOption (t.map fun u => .str (S.timeStr u)))) = .ok t := by
  cases t with
  | none => rfl
  | some u =>
    have hu := h u rfl
    simp only [Option.map_some, Value.ofOption, optTs, timeStr_nonempty hS hu,
      tsParse_timeStr hS hu, ok_bind]
    rfl

theorem interval_round_trip (hS : S.Lawful P) (hb : i.Bounded S)
    (h : Interval.Instants (OnClock S) i) : intervalFromValue S (intervalToValue S i) = .ok i := by
  obtain ⟨from_, to_⟩ := i
  have hto := optTs_round_trip hS h.2 "end"
  have hfrom := tsParse_timeStr hS h.1
  simp only at hto hfrom
  cases to_ with
  | none =>
    simp [intervalFromValue, intervalToValue, lookup_cons_ite, hfrom, Value.ofOption, optTs,
      hS.starting]
  | some t =>
    obtain ⟨hlt, hbt⟩ := hb t rfl
    simp only [Option.map_some] at hto
    simp [intervalFromValue, intervalToValue, lookup_cons_ite, hfrom, hto, hlt, hbt]

theorem quorum_round_trip (hS : S.Lawful P) {q : QuorumAttestation V}
    (h : ∀ s ∈ q.signatures, s.Framed S) : quorumFromValue S (quorumToValue S q) = .ok q := by
  simp [quorumFromValue, quorumToValue, slotsToValue, lookup_cons_ite, hS.nodeId,
    slots_round_trip hS h]

theorem optQuorum_round_trip (hS : S.Lawful P) {q : Option (QuorumAttestation V)}
    (h : ∀ a ∈ q, ∀ s ∈ a.signatures, s.Framed S) :
    optQuorum S (some (.ofOption (q.map (quorumToValue S)))) = .ok q := by
  cases q with
  | none => rfl
  | some q =>
    have hq := quorum_round_trip hS (h q rfl)
    simp only [Option.map_some, Value.ofOption, optQuorum, quorumToValue, Value.object] at hq ⊢
    rw [hq]
    rfl

theorem revocation_round_trip (hS : S.Lawful P) {r : Revocation V} (hf : r.Framed S)
    (hi : r.Instants (OnClock S)) : revocationFromValue S (revocationToValue S r) = .ok r := by
  simp [revocationFromValue, revocationToValue, lookup_cons_ite, subject_round_trip hS,
    reason_round_trip hS hi.reason, tsString, tsParse_timeStr hS hi.declaredAt, hS.nodeId,
    interval_round_trip hS hf.window hi.window, optQuorum_round_trip hS hf.slots]

theorem kind_round_trip (hS : S.Lawful P) (kind : NodeKind V) :
    nodeKindFromValue S (nodeKindToValue S kind) = .ok kind := by
  cases kind with
  | thresholdGroup threshold members =>
    have hmembers : (members.toList.map fun m => Value.str (S.nodeIdStr m)).mapM
        (memberFromValue S) = .ok members.toList :=
      mapM_map_ok _ fun m _ => by simp [memberFromValue, hS.nodeId]
    have hset : Std.ExtTreeSet.ofList members.toList compare = members := by
      apply Std.ExtTreeSet.ext_mem
      intro m
      simp
    have hobject (l : Fields) : nodeKindFromValue S (.object l) = (do
        let g ← okOr (((fieldsOf l).lookup "threshold_group").bind Value.asObject)
          "`threshold_group` object is required"
        let threshold ← u64Field g "threshold" "`threshold_group.threshold` is required"
        let values ← arrayField g "members" "`threshold_group.members` array is required"
        let members ← values.mapM (memberFromValue S)
        .ok (.thresholdGroup threshold (Std.ExtTreeSet.ofList members compare))) := rfl
    simp [nodeKindToValue, hobject, lookup_cons_ite, hmembers, hset]
  | _ => simp [nodeKindToValue, nodeKindFromValue]

theorem registeredKey_round_trip (hS : S.Lawful P) {k : RegisteredKey V} (h : k.Matches S) :
    registeredKeyFromValue S (registeredKeyToValue S k) = .ok k := by
  have hp := publicFromValue_fields hS k.publicKey
    (("key_id", .str (S.keyIdStr k.keyId)) :: publicFields S k.publicKey)
    (by simp [publicFields, lookup_cons_ite]) (by simp [publicFields, lookup_cons_ite])
  have hm : S.keyIdAsStr k.keyId = S.keyIdAsStr (S.keyIdOf k.publicKey) := h
  simp only [registeredKeyFromValue, registeredKeyToValue, objectOf_object, ok_bind, hp]
  simp [publicFields, lookup_cons_ite, hS.keyId, hm]

theorem node_round_trip (hS : S.Lawful P) {n : DelegationNode V} (h : n.Built S) :
    nodeFromValue S (nodeToValue S n) = .ok n := by
  obtain ⟨hmatch, hfold⟩ := h
  have hkeys : (n.keys.map (registeredKeyToValue S)).mapM (registeredKeyFromValue S) =
      .ok n.keys := mapM_map_ok n.keys fun k hk => registeredKey_round_trip hS (hmatch k hk)
  simp [nodeFromValue, nodeToValue, lookup_cons_ite, hS.nodeId, kind_round_trip hS, hkeys, hfold]

theorem edge_round_trip (hS : S.Lawful P) {c : DelegationCredential V}
    (h : ∀ s ∈ c.signatures, s.Framed S) : edgeFromValue S (edgeToValue S c) = .ok c := by
  obtain ⟨v, hv, -, hfrom⟩ := hS.scope c.scope
  simp [edgeFromValue, edgeToValue, slotsToValue, lookup_cons_ite, hS.nodeId, hv, hfrom,
    slots_round_trip hS h]

theorem witnessAttestation_round_trip (hS : S.Lawful P) {a : WitnessAttestation V}
    (ht : OnClock S a.at_) (hf : a.slot.Framed S) :
    witnessAttestationFromValue S (witnessAttestationToValue S a) = .ok a := by
  simp [witnessAttestationFromValue, witnessAttestationToValue, lookup_cons_ite, hS.nodeId,
    tsString, tsParse_timeStr hS ht, slot_round_trip hS hf]

theorem masterEntry_round_trip (hS : S.Lawful P) {e : MasterListEntry V}
    (h : ∀ a ∈ e.attestations, OnClock S a.at_ ∧ a.slot.Framed S) :
    masterEntryFromValue S (masterEntryToValue S e) = .ok e := by
  have ha : (e.attestations.map (witnessAttestationToValue S)).mapM
      (witnessAttestationFromValue S) = .ok e.attestations :=
    mapM_map_ok _ fun a ha => witnessAttestation_round_trip hS (h a ha).1 (h a ha).2
  simp [masterEntryFromValue, masterEntryToValue, lookup_cons_ite, hS.nodeId, ha]

theorem canonical_fields {l : Fields} (h : l.Forall fun f => f.2.Canonical P n) :
    (Value.object l).Canonical P (n + 1) := canonical_object (List.forall_iff_forall_mem.1 h)

theorem canonical_slot (slot : SignatureSlot V) : (slotToValue S slot).Canonical P (n + 1) :=
  canonical_fields (by simp)

theorem canonical_slots (slots : List (SignatureSlot V)) :
    (slotsToValue S slots).Canonical P (n + 2) := by
  simp only [slotsToValue, canonical_arr, List.mem_map]
  rintro v ⟨slot, -, rfl⟩
  exact canonical_slot slot

theorem canonical_subject (hS : S.Lawful P) (s : RevokedSubject V) :
    (revokedSubjectToValue S s).Canonical P (n + 101) := by
  cases s with
  | condition node c =>
    have hc := (hS.condition c).1.mono _ (Nat.le_add_left 100 n)
    exact canonical_fields (by simp [hc])
  | _ => exact canonical_fields (by simp)

theorem canonical_reason (r : RevocationReason V) :
    (reasonToValue S r).Canonical P (n + 1) := by
  cases r <;> exact canonical_fields (by simp [reasonParams])

theorem canonical_interval (i : Interval V) : (intervalToValue S i).Canonical P (n + 1) :=
  canonical_fields (by simp)

theorem canonical_quorum (q : QuorumAttestation V) :
    (quorumToValue S q).Canonical P (n + 3) :=
  canonical_fields (by simp [canonical_slots])

theorem canonical_revocation (hS : S.Lawful P) (r : Revocation V) :
    (revocationToValue S r).Canonical P (n + 102) :=
  canonical_fields (by
    simp [canonical_subject hS, canonical_reason, canonical_interval, canonical_quorum])

theorem canonical_kind (kind : NodeKind V) : (nodeKindToValue S kind).Canonical P (n + 3) := by
  cases kind with
  | thresholdGroup threshold members =>
    apply canonical_fields
    simp only [List.Forall]
    exact canonical_fields (by simp)
  | _ => exact canonical_str _

theorem canonical_registeredKey (k : RegisteredKey V) :
    (registeredKeyToValue S k).Canonical P (n + 1) :=
  canonical_fields (by simp [publicFields])

theorem canonical_node (node : DelegationNode V) : (nodeToValue S node).Canonical P (n + 4) :=
  canonical_fields (by simp [canonical_kind, canonical_registeredKey])

theorem canonical_edge (hS : S.Lawful P) (c : DelegationCredential V) :
    (edgeToValue S c).Canonical P (n + 101) := by
  obtain ⟨v, hv, hscope, -⟩ := hS.scope c.scope
  have hc := hscope.mono _ (Nat.le_add_left 100 n)
  exact canonical_fields (by simp [canonical_slots, hv, hc])

theorem canonical_witnessAttestation (a : WitnessAttestation V) :
    (witnessAttestationToValue S a).Canonical P (n + 2) :=
  canonical_fields (by simp [canonical_slot])

theorem canonical_masterEntry (e : MasterListEntry V) :
    (masterEntryToValue S e).Canonical P (n + 4) :=
  canonical_fields (by simp [canonical_witnessAttestation])

end UnidppTrust
