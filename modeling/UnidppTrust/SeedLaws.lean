import UnidppTrust.Seed
import UnidppTrust.RecordRoundTrip

namespace UnidppTrust
open Rust Json
set_option autoImplicit true

variable {V : Vocabulary} {S : Signatif V} {F : Fixtures V}

/-- What the fixtures rely on: minted slots have the length of their suite, a registered key is
under its own id, and instants are kept as given. -/
structure Fixtures.Lawful (F : Fixtures V) (S : Signatif V) : Prop where
  registered : ∀ k, (F.registeredKeyOf k).Matches S
  minted : ∀ p c x k e, F.credentialMintSign p c x k = .ok e → ∀ s ∈ e.signatures, s.Framed S
  coSigned : ∀ c k e, F.credentialCoSign c k = .ok e → (∀ s ∈ c.signatures, s.Framed S) →
    ∀ s ∈ e.signatures, s.Framed S
  trusted : ∀ j n t, ∀ e ∈ (F.trustListTrust (S.trustListNew j) n t).entries.toList,
    e.2.notBefore = t ∧ e.2.supersededAt = none
  witnessed : ∀ w n t k a, F.witnessMintSign w n t k = .ok a → a.at_ = t ∧ a.slot.Framed S
  attested : ∀ n m b ks q, F.quorumMintSign n m b ks = .ok q → ∀ s ∈ q.signatures, s.Framed S

theorem unwrap_eq_ok (h : (unwrap x : Outcome ε α) = .ok a) : x = .ok a := by
  cases x with
  | ok b => cases h; rfl
  | error e => cases h

theorem onClock_ts (h : 0 ≤ o ∧ o ≤ 20000) : OnClock S (ts S o) := by
  refine ⟨⟨T0 + o⟩, ?_, rfl⟩
  have hT : T0 = 1000000 := rfl
  have hd : (T0 + o) / 86400 = 11 := by omega
  rw [Timestamp.InYears, hd]
  decide

theorem ts_le (hS : S.Lawful P) (h : o ≤ o') : ¬ ts S o' < ts S o :=
  not_lt.2 (hS.timeMono _ _ (by omega))

theorem bounded_starting (hS : S.Lawful P) (t : V.Time) : (S.intervalStarting t).Bounded S := by
  rw [hS.starting]
  intro u hu
  cases hu

theorem nodeWith_wellFormed (hS : S.Lawful P) (hF : F.Lawful S) (id : V.NodeId)
    (kind : NodeKind V) (keys : List V.KeyPair) :
    (nodeWith S F id kind keys).WellFormed S := by
  refine built_foldl hS (fun k hk => ?_) id kind
  obtain ⟨pair, -, rfl⟩ := List.mem_map.1 hk
  exact hF.registered pair

theorem seedNodes_wellFormed (hS : S.Lawful P) (hF : F.Lawful S)
    (h : op ∈ seedNodes S F keys qIds quorumId rootId notifiedId issuerId) : op.WellFormed S := by
  simp only [seedNodes, List.mem_append, List.mem_map, List.mem_cons, List.not_mem_nil,
    or_false] at h
  rcases h with (⟨w, -, rfl⟩ | ⟨w, -, rfl⟩) | rfl | rfl | rfl | rfl
  all_goals exact nodeWith_wellFormed hS hF _ _ _

theorem seedEdges_wellFormed (hF : F.Lawful S)
    (h : (seedEdges S F keys rootId notifiedId issuerId : Outcome ε _) = .ok ops) :
    ∀ op ∈ ops, op.WellFormed S := by
  simp only [seedEdges] at h
  obtain ⟨minted, hm, h⟩ := bind_eq_ok h
  obtain ⟨hop1, h₁, h⟩ := bind_eq_ok h
  obtain ⟨hop2, h₂, h⟩ := bind_eq_ok h
  cases h
  have hmf := hF.minted _ _ _ _ _ (unwrap_eq_ok hm)
  intro op hop
  simp only [List.mem_cons, List.not_mem_nil, or_false] at hop
  rcases hop with rfl | rfl
  · exact hF.coSigned _ _ _ (unwrap_eq_ok h₁) hmf
  · exact hF.minted _ _ _ _ _ (unwrap_eq_ok h₂)

theorem seedLists_wellFormed (hF : F.Lawful S)
    (h : (buildTrustLists S F : Outcome ε _) = .ok lists) :
    ∀ op ∈ seedLists lists, op.WellFormed S := by
  simp only [buildTrustLists] at h
  obtain ⟨root, -, h⟩ := bind_eq_ok h
  cases h
  intro op hop
  simp only [seedLists, List.map_cons, List.map_nil, List.flatMap_cons, List.flatMap_nil,
    List.append_nil, List.mem_append, List.mem_cons, List.not_mem_nil, or_false,
    List.mem_map] at hop
  rcases hop with rfl | ⟨e, he, rfl⟩
  · trivial
  · obtain ⟨hn, hs⟩ := hF.trusted _ _ _ e he
    refine ⟨?_, fun t ht => ?_⟩
    · rw [hn]
      exact onClock_ts (by decide)
    · rw [hs] at ht
      cases ht

theorem seedMaster_wellFormed (hF : F.Lawful S)
    (h : (seedMaster S F keys rootId : Outcome ε _) = .ok ops) :
    ∀ op ∈ ops, op.WellFormed S := by
  simp only [seedMaster] at h
  obtain ⟨attestations, ha, h⟩ := bind_eq_ok h
  cases h
  intro op hop
  simp only [List.mem_cons, List.not_mem_nil, or_false] at hop
  rcases hop with rfl | rfl
  · trivial
  · refine mapM_ok_forall (fun x a hx => ?_) ha
    obtain ⟨ht, hf⟩ := hF.witnessed _ _ _ _ _ (unwrap_eq_ok hx)
    rw [ht]
    exact ⟨onClock_ts (by decide), hf⟩

theorem seedRevocations_wellFormed (hS : S.Lawful P) (hF : F.Lawful S)
    (h : (seedRevocations S F keys rootId : Outcome ε _) = .ok ops) :
    ∀ op ∈ ops, op.WellFormed S := by
  simp only [seedRevocations] at h
  obtain ⟨window, hw, h⟩ := bind_eq_ok h
  obtain ⟨declaredBy, -, h⟩ := bind_eq_ok h
  obtain ⟨att, hatt, h⟩ := bind_eq_ok h
  cases h
  have hbetween := unwrap_eq_ok hw
  obtain rfl := hS.between _ _ _ hbetween
  intro op hop
  simp only [List.mem_cons, List.not_mem_nil, or_false] at hop
  rcases hop with rfl | rfl
  · refine ⟨⟨fun t ht => ?_, fun q hq => ?_⟩, trivial, onClock_ts (by decide), ?_, fun t ht => ?_⟩
    · cases ht
      exact ⟨ts_le hS (by decide), hbetween⟩
    · cases hq
      exact hF.attested _ _ _ _ _ (unwrap_eq_ok hatt)
    · exact onClock_ts (by decide)
    · cases ht
      exact onClock_ts (by decide)
  · refine ⟨⟨bounded_starting hS _, fun q hq => ?_⟩, onClock_ts (by decide),
      onClock_ts (by decide), ?_⟩
    · cases hq
    · rw [hS.starting]
      refine ⟨onClock_ts (by decide), fun t ht => ?_⟩
      cases ht

/-- The fixtures are more than one operation, and each is kept by its journal form. -/
theorem seedOps_wellFormed (hS : S.Lawful P) (hF : F.Lawful S)
    (h : (seedOps S F : Outcome ε _) = .ok ops) :
    (∀ op ∈ ops, op.WellFormed S) ∧ 1 < ops.length := by
  obtain ⟨keys, qIds, quorumId, rootId, notifiedId, issuerId, edges, lists, master, revocations, he,
    hl, hm, hr, rfl⟩ := seedOps_ok h
  constructor
  · intro op hop
    simp only [List.mem_append] at hop
    rcases hop with (((hop | hop) | hop) | hop) | hop
    · exact seedNodes_wellFormed hS hF hop
    · exact seedEdges_wellFormed hF he op hop
    · exact seedLists_wellFormed hF hl op hop
    · exact seedMaster_wellFormed hF hm op hop
    · exact seedRevocations_wellFormed hS hF hr op hop
  · simp only [seedNodes, List.length_append, List.length_cons, List.length_nil]
    omega

end UnidppTrust
