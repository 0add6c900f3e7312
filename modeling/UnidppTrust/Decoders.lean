import UnidppTrust.Record

namespace UnidppTrust
open Rust Json
set_option autoImplicit true

variable {V : Vocabulary} {S : Signatif V}

theorem returns_inField (key : String) {x : Outcome String α} (h : Returns x) :
    Returns (inField key x) := h.mapErr _

theorem returns_tsParse (s : String) : Returns (tsParse S s) := by
  rw [tsParse]
  apply ((returns_parse s).mapErr _).bind
  intro t _
  exact returns_ok _

theorem returns_optTs (key : String) (v : Option Value) : Returns (optTs S key v) := by
  unfold optTs
  split
  · exact returns_ok _
  · exact returns_ok _
  · split
    · exact returns_ok _
    · apply (returns_tsParse _).bind
      intro t _
      exact returns_ok _
  · exact returns_fail _

theorem returns_reqTs (obj : Fields) (token key : String) : Returns (reqTs S obj token key) := by
  rw [reqTs]
  apply (returns_okOr _ _).bind
  intro raw _
  exact returns_inField key (returns_tsParse raw)

theorem returns_publicFromValue (v : Value) : Returns (publicFromValue S v) := by
  rw [publicFromValue]
  apply (returns_okOr _ _).bind
  intro obj _
  apply (returns_okOr _ _).bind
  intro suite _
  apply (returns_okOr _ _).bind
  intro hex _
  apply (returns_hexDecode hex).bind
  intro b _
  apply (returns_lift _).bind
  intro parsed _
  apply Returns.check
  intro _
  exact returns_ok _

theorem returns_signatureFromValue (v : Option Value) : Returns (signatureFromValue v) := by
  unfold signatureFromValue
  split
  · exact returns_ok _
  · exact returns_ok _
  · apply (returns_inField "signature" (returns_hexDecode _)).bind
    intro sig _
    exact returns_ok _
  · exact returns_fail _

theorem returns_slotFromValue (v : Value) : Returns (slotFromValue S v) := by
  rw [slotFromValue]
  apply (returns_okOr _ _).bind
  intro obj _
  apply (returns_okOr _ _).bind
  intro suiteRaw _
  apply (returns_okOr _ _).bind
  intro keyIdRaw _
  apply (returns_lift _).bind
  intro suite _
  apply (returns_lift _).bind
  intro keyId _
  apply (returns_signatureFromValue _).bind
  intro signature _
  cases signature with
  | none => exact returns_ok _
  | some sig =>
    dsimp only
    split
    · exact returns_fail _
    · exact returns_ok _

theorem returns_revokedSubjectFromValue (v : Value) : Returns (revokedSubjectFromValue S v) := by
  rw [revokedSubjectFromValue]
  apply (returns_okOr _ _).bind
  intro obj _
  apply (returns_okOr _ _).bind
  intro kind _
  apply (returns_okOr _ _).bind
  intro id _
  split
  · exact (returns_lift _).bind fun k _ => returns_ok _
  split
  · exact (returns_lift _).bind fun n _ => returns_ok _
  split
  · exact (returns_inField "id" (returns_lift _)).bind fun p _ => returns_ok _
  split
  · apply (returns_okOr _ _).bind
    intro raw _
    apply (returns_inField "node" (returns_lift _)).bind
    intro node _
    apply (returns_okOr _ _).bind
    intro value _
    apply (returns_inField "condition" (returns_lift _)).bind
    intro condition _
    exact returns_ok _
  · exact returns_fail _

theorem returns_reasonFromValue (v : Value) : Returns (reasonFromValue S v) := by
  rw [reasonFromValue]
  apply (returns_okOr _ _).bind
  intro obj _
  apply (returns_okOr _ _).bind
  intro token _
  split
  · exact (returns_reqTs obj token "after").bind fun t _ => returns_ok _
  split
  · exact returns_ok _
  split
  · apply (returns_okOr _ _).bind
    intro raw _
    exact (returns_inField "by" (returns_lift _)).bind fun n _ => returns_ok _
  split
  · exact returns_ok _
  split
  · exact returns_ok _
  split
  · exact returns_ok _
  split
  · exact (returns_reqTs obj token "detected_at").bind fun t _ => returns_ok _
  split
  · exact returns_ok _
  · exact returns_fail _

theorem returns_intervalFromValue (v : Value) : Returns (intervalFromValue S v) := by
  rw [intervalFromValue]
  apply (returns_okOr _ _).bind
  intro obj _
  apply (returns_okOr _ _).bind
  intro startRaw _
  apply (returns_tsParse startRaw).bind
  intro from_ _
  apply (returns_optTs "end" _).bind
  intro to_ _
  cases to_ with
  | none => exact returns_ok _
  | some t =>
    dsimp only
    split
    · exact returns_fail _
    · exact returns_lift _

theorem returns_quorumFromValue (v : Value) : Returns (quorumFromValue S v) := by
  rw [quorumFromValue]
  apply (returns_okOr _ _).bind
  intro obj _
  apply (returns_okOr _ _).bind
  intro raw _
  apply (returns_inField "quorum" (returns_lift _)).bind
  intro quorum _
  apply (returns_okOr _ _).bind
  intro threshold _
  apply (returns_okOr _ _).bind
  intro slots _
  apply (returns_mapM slots fun slot _ => returns_slotFromValue slot).bind
  intro signatures _
  exact returns_ok _

theorem returns_optQuorum (v : Option Value) : Returns (optQuorum S v) := by
  unfold optQuorum
  split
  · exact returns_ok _
  · exact returns_ok _
  · exact (returns_quorumFromValue _).bind fun q _ => returns_ok _

theorem returns_revocationFromValue (v : Value) : Returns (revocationFromValue S v) := by
  rw [revocationFromValue]
  apply (returns_okOr _ _).bind
  intro obj _
  apply (returns_okOr _ _).bind
  intro subjectV _
  apply (returns_revokedSubjectFromValue subjectV).bind
  intro subject _
  apply (returns_okOr _ _).bind
  intro reasonV _
  apply (returns_reasonFromValue reasonV).bind
  intro reason _
  apply (returns_okOr _ _).bind
  intro declaredRaw _
  apply (returns_tsParse declaredRaw).bind
  intro declaredAt _
  apply (returns_okOr _ _).bind
  intro byRaw _
  apply (returns_inField "declared_by" (returns_lift _)).bind
  intro declaredBy _
  apply (returns_okOr _ _).bind
  intro windowV _
  apply (returns_intervalFromValue windowV).bind
  intro window _
  apply (returns_optQuorum _).bind
  intro quorum _
  exact returns_ok _

theorem returns_nodeKindFromValue (v : Value) : Returns (nodeKindFromValue S v) := by
  unfold nodeKindFromValue
  split
  · split
    · exact returns_ok _
    split
    · exact returns_ok _
    split
    · exact returns_ok _
    · exact returns_fail _
  · apply (returns_okOr _ _).bind
    intro g _
    apply (returns_okOr _ _).bind
    intro threshold _
    apply (returns_okOr _ _).bind
    intro values _
    have hmember : ∀ m ∈ values, Returns (memberFromValue S m) := by
      intro m _
      rw [memberFromValue]
      apply (returns_okOr _ _).bind
      intro s _
      exact returns_lift _
    apply (returns_mapM values hmember).bind
    intro members _
    exact returns_ok _
  · exact returns_fail _

theorem returns_registeredKeyFromValue (v : Value) : Returns (registeredKeyFromValue S v) := by
  rw [registeredKeyFromValue]
  apply (returns_okOr _ _).bind
  intro obj _
  apply (returns_okOr _ _).bind
  intro raw _
  apply (returns_inField "key_id" (returns_lift _)).bind
  intro keyId _
  apply (returns_publicFromValue _).bind
  intro key _
  apply Returns.check
  intro _
  exact returns_ok _

theorem returns_nodeFromValue (v : Value) : Returns (nodeFromValue S v) := by
  rw [nodeFromValue]
  apply (returns_okOr _ _).bind
  intro obj _
  apply (returns_okOr _ _).bind
  intro raw _
  apply (returns_inField "id" (returns_lift _)).bind
  intro id _
  apply (returns_okOr _ _).bind
  intro kindV _
  apply (returns_nodeKindFromValue kindV).bind
  intro kind _
  split
  · exact returns_ok _
  · rename_i arr _
    apply (returns_mapM arr fun k _ => returns_registeredKeyFromValue k).bind
    intro keys _
    exact returns_ok _

theorem returns_edgeFromValue (v : Value) : Returns (edgeFromValue S v) := by
  rw [edgeFromValue]
  apply (returns_okOr _ _).bind
  intro obj _
  apply (returns_okOr _ _).bind
  intro parentRaw _
  apply (returns_inField "parent" (returns_lift _)).bind
  intro parent _
  apply (returns_okOr _ _).bind
  intro childRaw _
  apply (returns_inField "child" (returns_lift _)).bind
  intro child _
  apply (returns_okOr _ _).bind
  intro scopeV _
  apply (returns_inField "scope" (returns_lift _)).bind
  intro scope _
  apply (returns_okOr _ _).bind
  intro slots _
  apply (returns_mapM slots fun slot _ => returns_slotFromValue slot).bind
  intro signatures _
  exact returns_ok _

theorem returns_trustEntryFromValue (v : Value) : Returns (trustEntryFromValue S v) := by
  rw [trustEntryFromValue]
  apply (returns_okOr _ _).bind
  intro obj _
  apply (returns_okOr _ _).bind
  intro raw _
  apply ((returns_lift _).mapErr _).bind
  intro node _
  apply (returns_okOr _ _).bind
  intro notBeforeRaw _
  apply (returns_tsParse _).bind
  intro notBefore _
  apply (returns_optTs _ _).bind
  intro supersededAt _
  exact returns_ok _

theorem returns_witnessAttestationFromValue (v : Value) :
    Returns (witnessAttestationFromValue S v) := by
  rw [witnessAttestationFromValue]
  apply (returns_okOr _ _).bind
  intro obj _
  apply (returns_okOr _ _).bind
  intro raw _
  apply (returns_inField "witness" (returns_lift _)).bind
  intro witness _
  apply (returns_okOr _ _).bind
  intro atRaw _
  apply (returns_tsParse atRaw).bind
  intro at_ _
  apply (returns_okOr _ _).bind
  intro slotV _
  apply (returns_slotFromValue slotV).bind
  intro slot _
  exact returns_ok _

theorem returns_masterEntryFromValue (v : Value) : Returns (masterEntryFromValue S v) := by
  rw [masterEntryFromValue]
  apply (returns_okOr _ _).bind
  intro obj _
  apply (returns_okOr _ _).bind
  intro raw _
  apply (returns_inField "node" (returns_lift _)).bind
  intro node _
  apply (returns_okOr _ _).bind
  intro values _
  apply (returns_mapM values fun a _ => returns_witnessAttestationFromValue a).bind
  intro attestations _
  exact returns_ok _

theorem returns_trustListFromJson (body : Value) :
    Returns (trustListFromJson body : Outcome String (Op V)) := by
  rw [trustListFromJson]
  apply (returns_okOr _ _).bind
  intro j _
  apply (returns_okOr _ _).bind
  intro jurisdiction _
  exact returns_ok _

theorem returns_trustEntryFromJson (body : Value) : Returns (trustEntryFromJson S body) := by
  rw [trustEntryFromJson]
  apply (returns_okOr _ _).bind
  intro j _
  apply (returns_okOr _ _).bind
  intro jurisdiction _
  apply (returns_okOr _ _).bind
  intro nodeStr _
  apply (returns_lift _).bind
  intro node _
  apply (returns_okOr _ _).bind
  intro notBeforeStr _
  apply (returns_tsParse notBeforeStr).bind
  intro notBefore _
  split
  · exact returns_ok _
  · exact (returns_tsParse _).bind fun t _ => returns_ok _

theorem returns_evidenceFromJson (body : Value) :
    Returns (evidenceFromJson body : Outcome String (Op V)) := by
  rw [evidenceFromJson]
  apply (returns_okOr _ _).bind
  intro b _
  apply (returns_okOr _ _).bind
  intro id _
  apply (returns_okOr _ _).bind
  intro requiredScope _
  apply (returns_okOr _ _).bind
  intro contentHex _
  apply (returns_hexDecode contentHex).bind
  intro content _
  exact returns_ok _

theorem returns_releaseFromJson (body : Value) :
    Returns (releaseFromJson body : Outcome String (Op V)) := by
  rw [releaseFromJson]
  apply (returns_okOr _ _).bind
  intro b _
  apply (returns_okOr _ _).bind
  intro id _
  apply (returns_okOr _ _).bind
  intro scope _
  exact returns_ok _

end UnidppTrust
