import UnidppTrust.Record
import UnidppTrust.WireRoundTrip
import UnidppTrust.SerdeJson

namespace UnidppTrust
open Rust Json
set_option autoImplicit true

variable {V : Vocabulary} {S : Signatif V}

def Op.Decodable (S : Signatif V) : Op V → Prop
  | .registerNode node => ∃ v, nodeFromValue S v = .ok node
  | .addEdge credential => ∃ v, edgeFromValue S v = .ok credential
  | .upsertTrustEntry _ node notBefore supersededAt =>
    ∃ v, trustEntryFromValue S v = .ok ⟨node, notBefore, supersededAt⟩
  | .setWitnesses _ witnesses => ∃ v, witnessesFromValue S v = .ok witnesses
  | .upsertMasterEntry entry => ∃ v, masterEntryFromValue S v = .ok entry
  | .declareRevocation revocation => ∃ v, revocationFromValue S v = .ok revocation
  | _ => True

def Op.Instants (T : V.Time → Prop) : Op V → Prop
  | .upsertTrustEntry _ _ notBefore supersededAt => T notBefore ∧ ∀ t ∈ supersededAt, T t
  | .upsertMasterEntry entry => ∀ a ∈ entry.attestations, T a.at_
  | .declareRevocation revocation => revocation.Instants T
  | _ => True

/-- What the journal form keeps of an operation exactly. -/
def Op.WellFormed (S : Signatif V) : Op V → Prop
  | .registerNode node => node.Built S
  | .addEdge credential => ∀ s ∈ credential.signatures, s.Framed S
  | .upsertTrustEntry _ _ notBefore supersededAt =>
    OnClock S notBefore ∧ ∀ t ∈ supersededAt, OnClock S t
  | .upsertMasterEntry entry => ∀ a ∈ entry.attestations, OnClock S a.at_ ∧ a.slot.Framed S
  | .declareRevocation revocation => revocation.Framed S ∧ revocation.Instants (OnClock S)
  | _ => True

theorem Op.Decodable.wellFormed (hS : S.Lawful P) (h : Op.Decodable S op)
    (hy : op.Instants (InYears S)) : op.WellFormed S := by
  cases op with
  | registerNode node =>
    obtain ⟨v, hv⟩ := h
    exact built_nodeFromValue hS hv
  | addEdge credential =>
    obtain ⟨v, hv⟩ := h
    exact edgeFromValue_framed hv
  | upsertTrustEntry jurisdiction node notBefore supersededAt =>
    obtain ⟨v, hv⟩ := h
    obtain ⟨hn, hs⟩ := trustEntryFromValue_clock hv
    exact ⟨.of hS hn hy.1, fun t ht => .of hS (hs t ht) (hy.2 t ht)⟩
  | upsertMasterEntry entry =>
    obtain ⟨v, hv⟩ := h
    intro a ha
    obtain ⟨hc, hf⟩ := masterEntryFromValue_ok hv a ha
    exact ⟨.of hS hc (hy a ha), hf⟩
  | declareRevocation revocation =>
    obtain ⟨v, hv⟩ := h
    obtain ⟨hf, hi⟩ := revocationFromValue_ok hS hv
    exact ⟨hf, hi.onClock hS hy⟩
  | _ => trivial

theorem tsParse_stampStr (hS : S.Lawful P) (h : OnClock S t) :
    tsParse S (stampStr S t) = .ok t := by
  obtain ⟨s, hs, rfl⟩ := h
  rw [tsParse, stampStr, hS.timeSecs s hs.fits, Timestamp.parse_toString s hs]
  rfl

theorem witnesses_round_trip (hS : S.Lawful P) (ws : List (V.NodeId × V.PublicKey)) :
    (ws.map (witnessRecordToValue S)).mapM (witnessFromJson S) = .ok ws := by
  apply mapM_map_ok ws
  intro w _
  have hp := publicFromValue_fields hS w.2
    (("node", .str (S.nodeIdStr w.1)) :: publicFields S w.2)
    (by simp [publicFields, lookup_cons_ite]) (by simp [publicFields, lookup_cons_ite])
  have hn : ((witnessRecordToValue S w).get "node").bind Value.asStr = some (S.nodeIdStr w.1) := by
    simp [witnessRecordToValue, publicFields, lookup_cons_ite]
  simp only [witnessFromJson, hn, Option.getD_some, hS.nodeId]
  rw [witnessRecordToValue, Value.object, hp]
  rfl

/-- Decoding an operation's journal form gives the operation. -/
theorem op_round_trip (hS : S.Lawful P) (h : Op.WellFormed S op) :
    opFromJson S op.name (op.body S) = .ok op := by
  cases op with
  | registerNode node => simp [opFromJson, Op.name, Op.body, node_round_trip hS h]
  | addEdge credential => simp [opFromJson, Op.name, Op.body, edge_round_trip hS h]
  | registerTrustList jurisdiction framework =>
    cases framework <;>
      simp [opFromJson, Op.name, Op.body, trustListFromJson, lookup_cons_ite, Value.ofOption,
        Value.asStr]
  | upsertTrustEntry jurisdiction node notBefore supersededAt =>
    have hn := tsParse_stampStr hS h.1
    cases supersededAt with
    | none =>
      simp [opFromJson, Op.name, Op.body, trustEntryFromJson, lookup_cons_ite, Value.ofOption,
        hS.nodeId, hn, Value.asStr]
    | some t =>
      simp [opFromJson, Op.name, Op.body, trustEntryFromJson, lookup_cons_ite, Value.ofOption,
        hS.nodeId, hn, tsParse_stampStr hS (h.2 t rfl)]
  | setWitnesses m witnesses =>
    simp [opFromJson, Op.name, Op.body, setWitnessesFromJson, lookup_cons_ite,
      witnesses_round_trip hS]
  | upsertMasterEntry entry => simp [opFromJson, Op.name, Op.body, masterEntry_round_trip hS h]
  | declareRevocation revocation =>
    simp [opFromJson, Op.name, Op.body, revocation_round_trip hS h.1 h.2]
  | registerEvidence evidence =>
    simp [opFromJson, Op.name, Op.body, evidenceFromJson, lookup_cons_ite, hexDecode_hexEncode]
  | evidenceReleased id requester scope =>
    cases requester <;>
      simp [opFromJson, Op.name, Op.body, releaseFromJson, lookup_cons_ite, Value.ofOption,
        Value.asStr]

theorem record_fromJson (r : AuditRecord V) : AuditRecord.fromJson S (r.toJson S) =
    (inField "recorded_at" (tsParse S (stampStr S r.recordedAt)) >>= fun recordedAt =>
      opFromJson S r.op.name (r.op.body S) >>= fun op => .ok ⟨r.seq, recordedAt, op⟩) := by
  simp [AuditRecord.fromJson, AuditRecord.toJson, lookup_cons_ite]

/-- Decoding a record's journal form gives the record. -/
theorem record_round_trip (hS : S.Lawful P) {r : AuditRecord V} (hop : r.op.WellFormed S)
    (ht : OnClock S r.recordedAt) : AuditRecord.fromJson S (r.toJson S) = .ok r := by
  rw [record_fromJson, tsParse_stampStr hS ht, inField_ok, ok_bind, op_round_trip hS hop]
  rfl

theorem canonical_record (hS : S.Lawful P) (r : AuditRecord V) :
    (r.toJson S).Canonical P (n + 103) := by
  have hbody : (r.op.body S).Canonical P (n + 102) := by
    cases r.op with
    | registerNode node => exact canonical_node node
    | addEdge credential => exact canonical_edge hS credential
    | registerTrustList jurisdiction framework => exact canonical_fields (by simp)
    | upsertTrustEntry jurisdiction node notBefore supersededAt =>
      exact canonical_fields (by simp)
    | setWitnesses m witnesses =>
      have hw : ∀ w : V.NodeId × V.PublicKey, (witnessRecordToValue S w).Canonical P (n + 100) :=
        fun w => canonical_fields (by simp [publicFields])
      apply canonical_fields
      simp only [List.Forall, canonical_u64, canonical_arr, List.mem_map, true_and]
      rintro v ⟨w, -, rfl⟩
      exact hw w
    | upsertMasterEntry entry => exact canonical_masterEntry entry
    | declareRevocation revocation => exact canonical_revocation hS revocation
    | registerEvidence evidence => exact canonical_fields (by simp)
    | evidenceReleased id requester scope => exact canonical_fields (by simp)
  exact canonical_fields (by simp [hbody])

theorem record_fields (r : AuditRecord V) : r.toJson S =
    .obj [("body", r.op.body S), ("op", .str r.op.name),
      ("recorded_at", .str (stampStr S r.recordedAt)), ("seq", .u64 r.seq)] := by
  simp (disch := decide) only [AuditRecord.toJson, Value.object, fieldsOf, List.foldl, insertField,
    if_pos, if_neg]

theorem marked_record (r : AuditRecord V) : Marked (r.toJson S) := by
  rw [record_fields]
  exact ⟨"body", _, _, 'b', ['o', 'd', 'y'], rfl, by decide, rfl, rfl⟩

end UnidppTrust
