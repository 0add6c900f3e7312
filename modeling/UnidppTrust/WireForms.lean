import UnidppTrust.Wire
import UnidppTrust.TimeGrammar

namespace UnidppTrust
open Rust Json
set_option autoImplicit true

variable {V : Vocabulary} {S : Signatif V}

/-- The tokens of the reason taxonomy. -/
def RevocationReason.taxonomy : RevocationReason V → String
  | .keyCompromise _ => "key-compromise"
  | .cessation => "cessation"
  | .supersession _ => "supersession"
  | .affiliationChange => "affiliation-change"
  | .misissuance => "misissuance"
  | .fraudulentIssuance => "fraudulent-issuance"
  | .authorityCompromised _ => "authority-compromised"
  | .conditionWithdrawal => "condition-withdrawal"

/-- What the wire layer relies on: the crates' display and `serde` forms read back, and a node
rebuilt from the keys it holds is the node. -/
structure Signatif.Lawful (S : Signatif V) (printed : List Char → Prop) : Prop where
  nodeId : ∀ n, S.nodeIdNew (S.nodeIdStr n) = .ok n
  keyId : ∀ k, S.keyIdNew (S.keyIdStr k) = .ok k
  passportId : ∀ p, S.passportIdNew (S.passportIdStr p) = .ok p
  publicKey : ∀ k, S.publicFromBytes (S.publicBytes k) = .ok k
  suite : ∀ s, S.suiteParseToken (S.suiteStr s) = .ok s
  timeSecs : ∀ t : Timestamp, t.Fits → S.timeSecs (S.timeFromSecs t.secs) = t.secs
  timeMono : ∀ s u, s ≤ u → S.timeFromSecs s ≤ S.timeFromSecs u
  timeStr : ∀ t : Timestamp, t.InYears → Timestamp.parse (S.timeStr (S.timeFromSecs t.secs)) = .ok t
  between : ∀ f t i, S.intervalBetween f t = .ok i → i = ⟨f, some t⟩
  starting : ∀ f, S.intervalStarting f = ⟨f, none⟩
  scope : ∀ x, ∃ v, S.scopeToValue x = .ok v ∧ v.Canonical printed 100 ∧
    S.scopeFromValue v = .ok x
  condition : ∀ c, (S.conditionToValue c).Canonical printed 100 ∧
    S.conditionFromValue (S.conditionToValue c) = .ok c
  token : ∀ r, S.reasonToken r = r.taxonomy
  rebuild : ∀ id kind ks, let n := List.foldl S.nodeRegister (S.nodeNew id kind) ks
    n.id = id ∧ n.kind = kind ∧ (∀ k ∈ n.keys, k ∈ ks) ∧
      n.keys.foldl S.nodeRegister (S.nodeNew id kind) = n

def FromClock (S : Signatif V) (t : V.Time) : Prop :=
  ∃ s : Timestamp, s.Fits ∧ t = S.timeFromSecs s.secs

def InYears (S : Signatif V) (t : V.Time) : Prop := (Timestamp.mk (S.timeSecs t)).InYears

def OnClock (S : Signatif V) (t : V.Time) : Prop :=
  ∃ s : Timestamp, s.InYears ∧ t = S.timeFromSecs s.secs

theorem OnClock.of (hS : S.Lawful P) (hc : FromClock S t) (hy : InYears S t) : OnClock S t := by
  obtain ⟨s, hs, rfl⟩ := hc
  rw [InYears, hS.timeSecs s hs] at hy
  exact ⟨s, hy, rfl⟩

theorem fromClock_tsParse (h : tsParse S s = .ok t) : FromClock S t := by
  obtain ⟨u, hparse, hu⟩ := bind_eq_ok h
  cases hu
  exact ⟨u, parse_fits (mapErr_eq_ok hparse), rfl⟩

theorem fromClock_optTs (h : optTs S key x = .ok t) : ∀ u ∈ t, FromClock S u := by
  unfold optTs at h
  split at h
  · cases h; intro u hu; cases hu
  · cases h; intro u hu; cases hu
  · split at h
    · cases h; intro u hu; cases hu
    · obtain ⟨w, hw, h⟩ := bind_eq_ok h
      cases h
      intro u hu
      cases hu
      exact fromClock_tsParse hw
  · cases h

theorem tsParse_timeStr (hS : S.Lawful P) (h : OnClock S t) : tsParse S (S.timeStr t) = .ok t := by
  obtain ⟨s, hs, rfl⟩ := h
  rw [tsParse, hS.timeStr s hs]
  rfl

def SignatureSlot.Framed (S : Signatif V) (slot : SignatureSlot V) : Prop :=
  ∀ sig ∈ slot.signature, sig.length = S.signatureLen slot.suite

def RegisteredKey.Matches (S : Signatif V) (k : RegisteredKey V) : Prop :=
  S.keyIdAsStr k.keyId = S.keyIdAsStr (S.keyIdOf k.publicKey)

def DelegationNode.Built (S : Signatif V) (n : DelegationNode V) : Prop :=
  (∀ k ∈ n.keys, k.Matches S) ∧ n.keys.foldl S.nodeRegister (S.nodeNew n.id n.kind) = n

def Interval.Bounded (S : Signatif V) (i : Interval V) : Prop :=
  ∀ t ∈ i.to_, ¬ t < i.from_ ∧ S.intervalBetween i.from_ t = .ok i

def Interval.Instants (T : V.Time → Prop) (i : Interval V) : Prop := T i.from_ ∧ ∀ t ∈ i.to_, T t

def RevocationReason.Instants (T : V.Time → Prop) : RevocationReason V → Prop
  | .keyCompromise t | .authorityCompromised t => T t
  | _ => True

/-- The slots of a revocation are framed and its window is one the crate accepts. -/
structure Revocation.Framed (S : Signatif V) (r : Revocation V) : Prop where
  window : r.window.Bounded S
  slots : ∀ q ∈ r.quorum, ∀ s ∈ q.signatures, s.Framed S

structure Revocation.Instants (T : V.Time → Prop) (r : Revocation V) : Prop where
  reason : r.reason.Instants T
  declaredAt : T r.declaredAt
  window : r.window.Instants T

theorem Revocation.Instants.onClock (hS : S.Lawful P) {r : Revocation V}
    (hc : r.Instants (FromClock S)) (hy : r.Instants (InYears S)) : r.Instants (OnClock S) where
  reason := by
    have hcr := hc.reason
    have hyr := hy.reason
    cases hreason : r.reason with
    | keyCompromise t =>
      rw [hreason] at hcr hyr
      exact .of hS hcr hyr
    | authorityCompromised t =>
      rw [hreason] at hcr hyr
      exact .of hS hcr hyr
    | _ => trivial
  declaredAt := .of hS hc.declaredAt hy.declaredAt
  window := ⟨.of hS hc.window.1 hy.window.1,
    fun t ht => .of hS (hc.window.2 t ht) (hy.window.2 t ht)⟩

theorem framed_slotFromValue (h : slotFromValue S v = .ok slot) : slot.Framed S := by
  simp only [slotFromValue] at h
  obtain ⟨obj, -, h⟩ := bind_eq_ok h
  obtain ⟨suiteRaw, -, h⟩ := bind_eq_ok h
  obtain ⟨keyIdRaw, -, h⟩ := bind_eq_ok h
  obtain ⟨suite, -, h⟩ := bind_eq_ok h
  obtain ⟨keyId, -, h⟩ := bind_eq_ok h
  obtain ⟨signature, -, h⟩ := bind_eq_ok h
  split at h
  · cases h
    intro sig hsig
    cases hsig
  · split at h
    · cases h
    · rename_i sig hlen
      cases h
      intro sig' hsig
      cases hsig
      exact not_not.1 hlen

theorem matches_registeredKeyFromValue (h : registeredKeyFromValue S v = .ok k) : k.Matches S := by
  simp only [registeredKeyFromValue] at h
  obtain ⟨obj, -, h⟩ := bind_eq_ok h
  obtain ⟨raw, -, h⟩ := bind_eq_ok h
  obtain ⟨keyId, -, h⟩ := bind_eq_ok h
  obtain ⟨key, -, h⟩ := bind_eq_ok h
  split at h
  · cases h
  · rename_i hm
    cases h
    exact not_not.1 hm

theorem built_foldl (hS : S.Lawful P) (hks : ∀ k ∈ ks, k.Matches S) (id : V.NodeId)
    (kind : NodeKind V) : (List.foldl S.nodeRegister (S.nodeNew id kind) ks).Built S := by
  obtain ⟨hid, hkind, hkeys, hfold⟩ := hS.rebuild id kind ks
  refine ⟨fun k hk => hks k (hkeys k hk), ?_⟩
  rw [hid, hkind, hfold]

/-- A decoded node is a new one with keys registered that match their ids. -/
theorem nodeFromValue_foldl (h : nodeFromValue S v = .ok n) :
    ∃ id kind ks, (∀ k ∈ ks, k.Matches S) ∧
      n = List.foldl S.nodeRegister (S.nodeNew id kind) ks := by
  simp only [nodeFromValue] at h
  obtain ⟨obj, -, h⟩ := bind_eq_ok h
  obtain ⟨raw, -, h⟩ := bind_eq_ok h
  obtain ⟨id, -, h⟩ := bind_eq_ok h
  obtain ⟨kindV, -, h⟩ := bind_eq_ok h
  obtain ⟨kind, -, h⟩ := bind_eq_ok h
  split at h
  · cases h
    exact ⟨id, kind, [], fun k hk => (by cases hk), rfl⟩
  · obtain ⟨keys, hkeys, h⟩ := bind_eq_ok h
    cases h
    have hmatches := mapM_ok_forall (fun _ _ => matches_registeredKeyFromValue) hkeys
    exact ⟨id, kind, keys, hmatches, rfl⟩

theorem built_nodeFromValue (hS : S.Lawful P) (h : nodeFromValue S v = .ok n) : n.Built S := by
  obtain ⟨id, kind, ks, hmatches, rfl⟩ := nodeFromValue_foldl h
  exact built_foldl hS hmatches id kind

theorem edgeFromValue_framed (h : edgeFromValue S v = .ok c) : ∀ s ∈ c.signatures, s.Framed S := by
  simp only [edgeFromValue] at h
  obtain ⟨obj, -, h⟩ := bind_eq_ok h
  obtain ⟨parentRaw, -, h⟩ := bind_eq_ok h
  obtain ⟨parent, -, h⟩ := bind_eq_ok h
  obtain ⟨childRaw, -, h⟩ := bind_eq_ok h
  obtain ⟨child, -, h⟩ := bind_eq_ok h
  obtain ⟨scopeV, -, h⟩ := bind_eq_ok h
  obtain ⟨scope, -, h⟩ := bind_eq_ok h
  obtain ⟨slots, -, h⟩ := bind_eq_ok h
  obtain ⟨signatures, hs, h⟩ := bind_eq_ok h
  cases h
  exact mapM_ok_forall (fun _ _ => framed_slotFromValue) hs

theorem trustEntryFromValue_clock (h : trustEntryFromValue S v = .ok e) :
    FromClock S e.notBefore ∧ ∀ t ∈ e.supersededAt, FromClock S t := by
  simp only [trustEntryFromValue] at h
  obtain ⟨obj, -, h⟩ := bind_eq_ok h
  obtain ⟨raw, -, h⟩ := bind_eq_ok h
  obtain ⟨node, -, h⟩ := bind_eq_ok h
  obtain ⟨notBeforeRaw, -, h⟩ := bind_eq_ok h
  obtain ⟨notBefore, hn, h⟩ := bind_eq_ok h
  obtain ⟨supersededAt, hs, h⟩ := bind_eq_ok h
  cases h
  exact ⟨fromClock_tsParse hn, fromClock_optTs hs⟩

theorem witnessAttestationFromValue_ok (h : witnessAttestationFromValue S v = .ok a) :
    FromClock S a.at_ ∧ a.slot.Framed S := by
  simp only [witnessAttestationFromValue] at h
  obtain ⟨obj, -, h⟩ := bind_eq_ok h
  obtain ⟨raw, -, h⟩ := bind_eq_ok h
  obtain ⟨witness, -, h⟩ := bind_eq_ok h
  obtain ⟨atRaw, -, h⟩ := bind_eq_ok h
  obtain ⟨at_, ha, h⟩ := bind_eq_ok h
  obtain ⟨slotV, -, h⟩ := bind_eq_ok h
  obtain ⟨slot, hs, h⟩ := bind_eq_ok h
  cases h
  exact ⟨fromClock_tsParse ha, framed_slotFromValue hs⟩

theorem masterEntryFromValue_ok (h : masterEntryFromValue S v = .ok e) :
    ∀ a ∈ e.attestations, FromClock S a.at_ ∧ a.slot.Framed S := by
  simp only [masterEntryFromValue] at h
  obtain ⟨obj, -, h⟩ := bind_eq_ok h
  obtain ⟨raw, -, h⟩ := bind_eq_ok h
  obtain ⟨node, -, h⟩ := bind_eq_ok h
  obtain ⟨values, -, h⟩ := bind_eq_ok h
  obtain ⟨attestations, ha, h⟩ := bind_eq_ok h
  cases h
  exact mapM_ok_forall (fun _ _ => witnessAttestationFromValue_ok) ha

theorem reasonFromValue_clock (h : reasonFromValue S v = .ok r) : r.Instants (FromClock S) := by
  simp only [reasonFromValue] at h
  obtain ⟨obj, -, h⟩ := bind_eq_ok h
  obtain ⟨token, -, h⟩ := bind_eq_ok h
  have hreq {key : String} {t : V.Time} (ht : reqTs S obj token key = .ok t) : FromClock S t := by
    obtain ⟨raw, -, ht⟩ := bind_eq_ok ht
    exact fromClock_tsParse (mapErr_eq_ok ht)
  split at h
  · obtain ⟨t, ht, h⟩ := bind_eq_ok h
    cases h
    exact hreq ht
  split at h
  · cases h; trivial
  split at h
  · obtain ⟨raw, -, h⟩ := bind_eq_ok h
    obtain ⟨n, -, h⟩ := bind_eq_ok h
    cases h
    trivial
  split at h
  · cases h; trivial
  split at h
  · cases h; trivial
  split at h
  · cases h; trivial
  split at h
  · obtain ⟨t, ht, h⟩ := bind_eq_ok h
    cases h
    exact hreq ht
  split at h
  · cases h; trivial
  · cases h

theorem intervalFromValue_ok (hS : S.Lawful P) (h : intervalFromValue S v = .ok i) :
    i.Bounded S ∧ i.Instants (FromClock S) := by
  simp only [intervalFromValue] at h
  obtain ⟨obj, -, h⟩ := bind_eq_ok h
  obtain ⟨startRaw, -, h⟩ := bind_eq_ok h
  obtain ⟨from_, hf, h⟩ := bind_eq_ok h
  obtain ⟨to_, ht, h⟩ := bind_eq_ok h
  split at h
  · rename_i t
    split at h
    · cases h
    · rename_i hlt
      have hi := lift_eq_ok h
      obtain rfl := hS.between _ _ _ hi
      refine ⟨fun u hu => ?_, fromClock_tsParse hf, fromClock_optTs ht⟩
      cases hu
      exact ⟨hlt, hi⟩
  · cases h
    rw [hS.starting]
    refine ⟨fun u hu => ?_, fromClock_tsParse hf, fun u hu => ?_⟩
    · cases hu
    · cases hu

theorem optQuorum_framed (h : optQuorum S x = .ok q) :
    ∀ a ∈ q, ∀ s ∈ a.signatures, s.Framed S := by
  unfold optQuorum at h
  split at h
  · cases h; intro a ha; cases ha
  · cases h; intro a ha; cases ha
  · obtain ⟨q', hq, h⟩ := bind_eq_ok h
    cases h
    intro a ha
    cases ha
    simp only [quorumFromValue] at hq
    obtain ⟨obj, -, hq⟩ := bind_eq_ok hq
    obtain ⟨raw, -, hq⟩ := bind_eq_ok hq
    obtain ⟨quorum, -, hq⟩ := bind_eq_ok hq
    obtain ⟨threshold, -, hq⟩ := bind_eq_ok hq
    obtain ⟨slots, -, hq⟩ := bind_eq_ok hq
    obtain ⟨signatures, hs, hq⟩ := bind_eq_ok hq
    cases hq
    exact mapM_ok_forall (fun _ _ => framed_slotFromValue) hs

theorem revocationFromValue_ok (hS : S.Lawful P) (h : revocationFromValue S v = .ok r) :
    r.Framed S ∧ r.Instants (FromClock S) := by
  simp only [revocationFromValue] at h
  obtain ⟨obj, -, h⟩ := bind_eq_ok h
  obtain ⟨subjectV, -, h⟩ := bind_eq_ok h
  obtain ⟨subject, -, h⟩ := bind_eq_ok h
  obtain ⟨reasonV, -, h⟩ := bind_eq_ok h
  obtain ⟨reason, hr, h⟩ := bind_eq_ok h
  obtain ⟨declaredRaw, -, h⟩ := bind_eq_ok h
  obtain ⟨declaredAt, hd, h⟩ := bind_eq_ok h
  obtain ⟨byRaw, -, h⟩ := bind_eq_ok h
  obtain ⟨declaredBy, -, h⟩ := bind_eq_ok h
  obtain ⟨windowV, -, h⟩ := bind_eq_ok h
  obtain ⟨window, hw, h⟩ := bind_eq_ok h
  obtain ⟨quorum, hq, h⟩ := bind_eq_ok h
  cases h
  obtain ⟨hb, hi⟩ := intervalFromValue_ok hS hw
  exact ⟨⟨hb, optQuorum_framed hq⟩, reasonFromValue_clock hr, fromClock_tsParse hd, hi⟩

end UnidppTrust
