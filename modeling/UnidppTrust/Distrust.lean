import UnidppTrust.Mutation
import UnidppTrust.Reference
import Mathlib.Data.List.Perm.Subperm

namespace UnidppTrust
open Rust Json
set_option autoImplicit true

variable {V : Vocabulary} {S : Signatif V}

/-- A quorate attestation over a threshold group: the group key signed for the threshold the graph
asserts, or as many distinct keys of the whole graph's directory, none held by the quorum node,
as the attestation itself claims. -/
theorem quorate_threshold_group (S : Signatif V) (graph : V.TrustGraph)
    (quorum : QuorumAttestation V) (statement : Bytes) (node : DelegationNode V)
    (threshold : UInt64) (members : NodeSet V)
    (hnode : S.graphNode graph quorum.quorum = some node)
    (hkind : node.kind = .thresholdGroup threshold members) :
    let payload := S.quorumBytes statement quorum.quorum quorum.threshold
    (verdict S graph quorum statement).quorate = true ↔
      (quorum.threshold = threshold ∧ ∃ slot ∈ quorum.signatures, ∃ key,
        S.nodeKey node slot.keyId = some key ∧ slotVerifies S slot payload key = true) ∨
      ∃ ks : List V.KeyId, ks.Nodup ∧ quorum.threshold.toNat ≤ ks.length ∧ ∀ k ∈ ks,
        k ∉ node.keys.map (·.keyId) ∧ ∃ slot ∈ quorum.signatures, slot.keyId = k ∧
          ∃ key, S.directoryResolve graph k = some key ∧
            slotVerifies S slot payload key = true := by
  intro payload
  have hthreshold : ((some node).bind fun n => n.kind.threshold) = some threshold := by
    rw [Option.bind_some, hkind]
    rfl
  have hiff := quorate_iff S graph quorum statement
  dsimp only at hiff
  rw [hiff, hnode, groupVerified_iff, hthreshold, Option.some.injEq]
  constructor
  · rintro (⟨⟨n, hn, hslot⟩, ht⟩ | hle)
    · cases hn
      exact .inl ⟨ht.symm, hslot⟩
    · refine .inr ⟨_, nodup_verifyingMembers S graph (some node) quorum.signatures payload, hle,
        fun k hk => ?_⟩
      obtain ⟨slot, hslot, hv, rfl⟩ := (mem_verifyingMembers S).1 hk
      obtain ⟨hno, key, hkey, hver⟩ := (memberVerifies_iff S).1 hv
      exact ⟨hno, slot, hslot, rfl, key, hkey, hver⟩
  · rintro (⟨ht, hslot⟩ | ⟨ks, hnodup, hle, hks⟩)
    · exact .inl ⟨⟨node, rfl, hslot⟩, ht.symm⟩
    · refine .inr (Nat.le_trans hle ?_)
      have hsub : ks ⊆ verifyingMembers S graph (some node) quorum.signatures payload := by
        intro k hk
        obtain ⟨hno, slot, hslot, rfl, key, hkey, hver⟩ := hks k hk
        exact (mem_verifyingMembers S).2
          ⟨slot, hslot, (memberVerifies_iff S).2 ⟨hno, key, hkey, hver⟩, rfl⟩
      exact (hnodup.subperm hsub).length_le

open Reference

def groupGraph : Graph :=
  ⟨[⟨"group", .thresholdGroup 2 (Std.ExtTreeSet.ofList ["member-a", "member-b"] compare), []⟩,
    ⟨"member-a", .end, [⟨"a", [5]⟩]⟩, ⟨"outsider-k", .end, [⟨"k", [7]⟩]⟩,
    ⟨"outsider-l", .end, [⟨"l", [8]⟩]⟩], []⟩

def groupSlot (threshold : UInt64) (id : String) (key : Bytes) : SignatureSlot vocabulary :=
  ⟨.ed25519, id, some (sign (signatif.quorumBytes [1] "group" threshold) key)⟩

/-- One member signs, for a claimed threshold of one. -/
def lowered : QuorumAttestation vocabulary := ⟨"group", 1, [groupSlot 1 "a" [5]]⟩

/-- The nodes outside sign, for the threshold of the group. -/
def outside : QuorumAttestation vocabulary :=
  ⟨"group", 2, [groupSlot 2 "k" [7], groupSlot 2 "l" [8]]⟩

theorem quorate_threshold_group_lowered :
    ∃ node threshold members, signatif.graphNode groupGraph lowered.quorum = some node ∧
      node.kind = .thresholdGroup threshold members ∧
      ((lowered.threshold = threshold ∧ ∃ slot ∈ lowered.signatures, ∃ key,
          signatif.nodeKey node slot.keyId = some key ∧
            slotVerifies signatif slot (signatif.quorumBytes [1] "group" 1) key = true) ∨
        ∃ ks : List String, ks.Nodup ∧ 1 ≤ ks.length ∧ ∀ k ∈ ks,
          k ∉ node.keys.map (·.keyId) ∧ ∃ slot ∈ lowered.signatures, slot.keyId = k ∧
            ∃ key, signatif.directoryResolve groupGraph k = some key ∧
              slotVerifies signatif slot (signatif.quorumBytes [1] "group" 1) key = true) :=
  ⟨_, _, _, rfl, rfl, (quorate_threshold_group signatif groupGraph lowered [1] _ _ _
    rfl rfl).1 (by decide +kernel)⟩

/-- The group's key signed, for the threshold the graph asserts, or as many keys of its members. -/
def SignedByGroup (S : Signatif V) (graph : V.TrustGraph) (quorum : QuorumAttestation V)
    (statement : Bytes) (node : DelegationNode V) (threshold : UInt64) (members : NodeSet V) :
    Prop :=
  let payload := S.quorumBytes statement quorum.quorum quorum.threshold
  (quorum.threshold = threshold ∧ ∃ slot ∈ quorum.signatures, ∃ key,
    S.nodeKey node slot.keyId = some key ∧ slotVerifies S slot payload key = true) ∨
  ∃ ks : List V.KeyId, ks.Nodup ∧ threshold.toNat ≤ ks.length ∧ ∀ k ∈ ks,
    (∃ m ∈ members, ∃ n, S.graphNode graph m = some n ∧ k ∈ n.keys.map (·.keyId)) ∧
    ∃ slot ∈ quorum.signatures, slot.keyId = k ∧
      ∃ key, S.directoryResolve graph k = some key ∧ slotVerifies S slot payload key = true

theorem groupGraph_member {members : NodeSet vocabulary} {k : String}
    (hmembers : members = Std.ExtTreeSet.ofList ["member-a", "member-b"] compare)
    (h : ∃ m ∈ members, ∃ n, signatif.graphNode groupGraph m = some n ∧
      k ∈ n.keys.map (·.keyId)) : k = "a" := by
  obtain ⟨m, hm, n, hn, hk⟩ := h
  rw [hmembers, Std.ExtTreeSet.mem_ofList, List.contains_iff_mem] at hm
  rcases List.mem_pair.1 hm with rfl | rfl
  · cases hn
    exact List.mem_singleton.1 hk
  · cases hn

/-- An attestation is quorate although it claims less than the graph asserts, and another although
no member of the group signed. -/
theorem threshold_lowered :
    (∃ node threshold members, signatif.graphNode groupGraph lowered.quorum = some node ∧
      node.kind = .thresholdGroup threshold members ∧
      (verdict signatif groupGraph lowered [1]).quorate = true ∧ lowered.threshold < threshold ∧
      ¬ SignedByGroup signatif groupGraph lowered [1] node threshold members) ∧
    ∃ node threshold members, signatif.graphNode groupGraph outside.quorum = some node ∧
      node.kind = .thresholdGroup threshold members ∧
      (verdict signatif groupGraph outside [1]).quorate = true ∧ outside.threshold = threshold ∧
      ¬ SignedByGroup signatif groupGraph outside [1] node threshold members := by
  constructor
  · refine ⟨_, _, _, rfl, rfl, by decide +kernel, by decide, ?_⟩
    rintro (⟨ht, -⟩ | ⟨ks, hnodup, hle, hks⟩)
    · exact absurd ht (by decide)
    · have hall : ∀ k ∈ ks, k = "a" := fun k hk => groupGraph_member rfl (hks k hk).1
      have hone : ks.length ≤ 1 :=
        (hnodup.subperm fun k hk => List.mem_singleton.2 (hall k hk)).length_le
      exact absurd (Nat.le_trans hle hone) (by decide)
  · refine ⟨_, _, _, rfl, rfl, by decide +kernel, rfl, ?_⟩
    rintro (⟨-, slot, -, key, hkey, -⟩ | ⟨ks, -, hle, hks⟩)
    · cases hkey
    · cases ks with
      | nil => exact absurd hle (by decide)
      | cons k ks =>
        obtain ⟨hmember, slot, hslot, hkey, -⟩ := hks k List.mem_cons_self
        rw [groupGraph_member rfl hmember] at hkey
        have hids : ∀ slot ∈ outside.signatures, slot.keyId ≠ "a" := by decide
        exact hids slot hslot hkey

def RegisteredIn (S : Signatif V) (graph : V.TrustGraph) (k : V.KeyId) (key : V.PublicKey) :
    Prop :=
  S.directoryResolve graph k = some key ∨
    ∃ id node, S.graphNode graph id = some node ∧ S.nodeKey node k = some key

/-- A slot of the attestation verifies under a key of the graph. -/
def Supported (S : Signatif V) (graph : V.TrustGraph) (r : Revocation V) : Prop :=
  ∃ q, r.quorum = some q ∧ ∃ slot ∈ q.signatures, ∃ key, RegisteredIn S graph slot.keyId key ∧
    slotVerifies S slot (S.quorumBytes (S.statementBytes r) q.quorum q.threshold) key = true

def ClaimsZero (S : Signatif V) (op : Op V) : Prop :=
  ∃ r q, op = .declareRevocation r ∧ S.isRetroactive r.reason = true ∧ r.quorum = some q ∧
    q.threshold = 0

theorem quorate_supported {graph : V.TrustGraph} {q : QuorumAttestation V}
    (h : (verdict S graph q statement).quorate = true) (ht : q.threshold ≠ 0) :
    ∃ slot ∈ q.signatures, ∃ key, RegisteredIn S graph slot.keyId key ∧
      slotVerifies S slot (S.quorumBytes statement q.quorum q.threshold) key = true := by
  rcases (quorate_iff S graph q statement).1 h with ⟨hg, -⟩ | hle
  · obtain ⟨n, hn, slot, hslot, key, hkey, hver⟩ := (groupVerified_iff S).1 hg
    exact ⟨slot, hslot, key, .inr ⟨_, n, hn, hkey⟩, hver⟩
  · have hpos : 0 < q.threshold.toNat := by
      rw [Nat.pos_iff_ne_zero, Ne, ← UInt64.toNat_zero, UInt64.toNat_inj]
      exact ht
    obtain ⟨k, hk⟩ := List.exists_mem_of_length_pos (Nat.lt_of_lt_of_le hpos hle)
    obtain ⟨slot, hslot, hv, -⟩ := (mem_verifyingMembers S).1 hk
    obtain ⟨-, key, hkey, hver⟩ := (memberVerifies_iff S).1 hv
    exact ⟨slot, hslot, key, .inl hkey, hver⟩

theorem checkQuorum_supported {graph : V.TrustGraph} {r : Revocation V}
    (h : checkQuorum S graph r = .ok ()) (hr : S.isRetroactive r.reason = true)
    (hz : ¬ ClaimsZero S (.declareRevocation r)) : Supported S graph r := by
  rw [checkQuorum, if_pos hr] at h
  cases hq : r.quorum with
  | none => rw [hq] at h; cases h
  | some q =>
    rw [hq] at h
    dsimp only at h
    split at h
    · rename_i hquorate
      exact ⟨q, hq, quorate_supported hquorate fun ht => hz ⟨r, q, rfl, hr, hq, ht⟩⟩
    · cases h

/-- What one mutation adds to the ledger: nothing, or a declaration that passed the check. -/
theorem mutate_ledger (hL : S.Ledger) (s : Store V) (t : Tick) (op : Op V) :
    S.ledgerRevocations (s.mutate S t op).2.ledger = S.ledgerRevocations s.ledger ∨
    ∃ r, op = .declareRevocation r ∧ checkQuorum S s.graph r = .ok () ∧
      S.ledgerRevocations (s.mutate S t op).2.ledger = S.ledgerRevocations s.ledger ++ [r] := by
  rcases mutate_cases S s t op with ⟨e, hm⟩ | ⟨hap, a, hm⟩
  · rw [hm]
    exact .inl rfl
  · rw [hm]
    change S.ledgerRevocations (applyOp S s.toState op).2.ledger = _ ∨ _
    by_cases hop : ∃ r, op = .declareRevocation r
    · obtain ⟨r, rfl⟩ := hop
      refine .inr ⟨r, rfl, ?_⟩
      change _ ∧ S.ledgerRevocations (applyOp S s.toState (.declareRevocation r)).2.ledger = _
      simp only [applyOp] at hap ⊢
      split at hap
      · cases hap
      · rename_i hq
        refine ⟨hq, hL.declared s.ledger r ?_⟩
        cases hd : (S.ledgerDeclare s.ledger r).1 with
        | ok u => rfl
        | error e =>
          rw [hd] at hap
          cases hap
    · have hpart : op.part ≠ .ledger := fun hp => by
        cases op with
        | declareRevocation r => exact hop ⟨r, rfl⟩
        | _ => cases hp
      rw [(applyOp_sameBut S s.toState op).ledger hpart]
      exact .inl rfl

theorem mutateAll_supported (hL : S.Ledger) (s : Store V) (calls : List (Op V × Tick))
    (hz : ∀ c ∈ calls, ¬ ClaimsZero S c.1) (r : Revocation V)
    (hr : r ∈ S.ledgerRevocations (s.mutateAll S calls).ledger) :
    r ∈ S.ledgerRevocations s.ledger ∨
    ∃ before t after, calls = before ++ (.declareRevocation r, t) :: after ∧
      (S.isRetroactive r.reason = true → Supported S (s.mutateAll S before).graph r) := by
  induction calls generalizing s with
  | nil => exact .inl hr
  | cons c cs ih =>
    have hzc := hz c List.mem_cons_self
    rcases ih (s.mutate S c.2 c.1).2 (fun x hx => hz x (List.mem_cons_of_mem c hx)) hr with
      hmem | ⟨before, t, after, rfl, hsup⟩
    · rcases mutate_ledger hL s c.2 c.1 with hl | ⟨r', hop, hq, hl⟩
      · exact .inl (hl ▸ hmem)
      · rw [hl, List.mem_append, List.mem_singleton] at hmem
        rcases hmem with hmem | rfl
        · exact .inl hmem
        · obtain ⟨op, t⟩ := c
          obtain rfl : op = .declareRevocation r := hop
          exact .inr ⟨[], t, cs, rfl, fun hretro => checkQuorum_supported hq hretro hzc⟩
    · exact .inr ⟨c :: before, t, after, rfl, hsup⟩

/-- In every run of mutations from the empty store in which no retroactive declaration claims a
threshold of zero, each retroactive revocation of the ledger was supported in the graph it was
declared over. -/
theorem retroactive_supported (C : Crates V) (hL : C.signatif.Ledger)
    (calls : List (Op V × Tick)) (hz : ∀ c ∈ calls, ¬ ClaimsZero C.signatif c.1)
    (r : Revocation V)
    (hr : r ∈ C.signatif.ledgerRevocations
      ((Store.empty C).mutateAll C.signatif calls).ledger)
    (hretro : C.signatif.isRetroactive r.reason = true) :
    ∃ before t after, calls = before ++ (.declareRevocation r, t) :: after ∧
      Supported C.signatif ((Store.empty C).mutateAll C.signatif before).graph r := by
  rcases mutateAll_supported hL (Store.empty C) calls hz r hr with hmem | ⟨b, t, a, hc, hsup⟩
  · have hnew : C.signatif.ledgerRevocations (Store.empty C).ledger = [] := hL.new
    rw [hnew] at hmem
    cases hmem
  · exact ⟨b, t, a, hc, hsup hretro⟩

theorem declare_ledger {s : Store V} {r : Revocation V}
    (hq : checkQuorum S s.graph r = .ok ()) (hd : (S.ledgerDeclare s.ledger r).1 = .ok ()) :
    (s.mutate S t (.declareRevocation r)).2.ledger = (S.ledgerDeclare s.ledger r).2 := by
  rcases declareRevocation_cases (S := S) (s := s) (t := t) r with ⟨e, hm⟩ | ⟨-, a, hm⟩
  · simp only [Store.declareRevocation, hq, hd, Store.recorded] at hm
    cases hm
  · change (Prod.map _ id (s.declareRevocation S t r)).2.ledger = _
    rw [hm]
    change (applyOp S s.toState (.declareRevocation r)).2.ledger = _
    simp only [applyOp, hq]

def member : DelegationNode vocabulary := ⟨"quorum-1", .end, [⟨"k", [7]⟩]⟩

def retroactively (threshold : UInt64) (slots : List (SignatureSlot vocabulary)) :
    Revocation vocabulary :=
  ⟨.node "eu-root", .misissuance, 43200, "eu-super-quorum", ⟨0, none⟩,
    some ⟨"eu-super-quorum", threshold, slots⟩⟩

def memberSlot : SignatureSlot vocabulary :=
  ⟨.ed25519, "k", some (sign (signatif.quorumBytes
    (signatif.statementBytes (retroactively 1 [])) "eu-super-quorum" 1) [7])⟩

theorem retroactive_supported_member :
    ∃ before t after, [(Op.registerNode member, noon 0),
        (.declareRevocation (retroactively 1 [memberSlot]), noon 1)] =
          before ++ (.declareRevocation (retroactively 1 [memberSlot]), t) :: after ∧
      Supported signatif ((Store.empty crates).mutateAll signatif before).graph
        (retroactively 1 [memberSlot]) := by
  refine retroactive_supported crates reference_ledger _ (fun c hc => ?_) _ ?_ rfl
  · simp only [List.mem_cons, List.not_mem_nil, or_false] at hc
    rintro ⟨r, q, hop, -, hq, ht⟩
    rcases hc with rfl | rfl
    · cases hop
    · cases hop
      cases hq
      cases ht
  · have hq : checkQuorum signatif
        ((Store.empty crates).mutate signatif (noon 0) (.registerNode member)).2.graph
        (retroactively 1 [memberSlot]) = .ok () := by decide +kernel
    change _ ∈ signatif.ledgerRevocations (Store.mutate signatif _ _ _).2.ledger
    rw [crates_signatif, declare_ledger hq rfl, reference_ledger.declared _ _ rfl]
    exact List.mem_append_right _ List.mem_cons_self

/-- With a threshold of zero and no slot at all the declaration is accepted. -/
theorem retroactive_threshold_zero :
    (Op.declareRevocation (retroactively 0 [])).Decodable signatif ∧
    retroactively 0 [] ∈ signatif.ledgerRevocations ((Store.empty crates).mutateAll signatif
      [(.declareRevocation (retroactively 0 []), noon 0)]).ledger ∧
    signatif.isRetroactive (retroactively 0 []).reason = true ∧
    ¬ ∃ graph, Supported signatif graph (retroactively 0 []) := by
  have hledger : signatif.ledgerRevocations ((Store.empty crates).mutateAll signatif
      [(.declareRevocation (retroactively 0 []), noon 0)]).ledger = [retroactively 0 []] := rfl
  refine ⟨⟨revocationToValue signatif (retroactively 0 []), rfl⟩, ?_, rfl, ?_⟩
  · rw [hledger]
    exact List.mem_cons_self
  · rintro ⟨graph, q, hq, slot, hslot, -⟩
    cases hq
    cases hslot

end UnidppTrust
