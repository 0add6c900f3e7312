import UnidppTrust.Store

namespace UnidppTrust
open Rust Json
set_option autoImplicit true

variable {V : Vocabulary} (S : Signatif V) (s : Store V) (t : Tick)

def Refused (s : Store V) (x : Except StoreError α × Store V) : Prop := ∃ e, x = (.error e, s)

def Recorded (op : Op V) (x : Except StoreError α × Store V) : Prop :=
  (applyOp S s.toState op).1 = .ok () ∧ ∃ a, x = (.ok a, (s.record S t op).2)

variable {S s t}

theorem Refused.map {x : Except StoreError α × Store V} (h : Refused s x)
    (f : α → β) : Refused s (x.map (·.map f) id) := by
  obtain ⟨e, rfl⟩ := h
  exact ⟨e, rfl⟩

theorem Recorded.map {x : Except StoreError α × Store V} (h : Recorded S s t op x)
    (f : α → β) : Recorded S s t op (x.map (·.map f) id) := by
  obtain ⟨ha, a, rfl⟩ := h
  exact ⟨ha, f a, rfl⟩

theorem recorded_recorded (h : (applyOp S s.toState op).1 = .ok ()) :
    Recorded S s t op (s.recorded S t op) := ⟨h, _, rfl⟩

theorem registerNode_cases (node : DelegationNode V) :
    Recorded S s t (.registerNode node) (s.registerNode S t node) := recorded_recorded rfl

theorem addEdge_cases (credential : DelegationCredential V) :
    Refused s (s.addEdge S t credential) ∨
      Recorded S s t (.addEdge credential) (s.addEdge S t credential) := by
  unfold Store.addEdge
  split
  · exact .inl ⟨_, rfl⟩
  · rename_i h
    right
    apply recorded_recorded
    simp only [applyOp, h]
    rfl

theorem registerTrustList_cases (jurisdiction : String) (framework : Option String) :
    Refused s (s.registerTrustList S t jurisdiction framework) ∨
      Recorded S s t (.registerTrustList jurisdiction framework)
        (s.registerTrustList S t jurisdiction framework) := by
  unfold Store.registerTrustList
  split
  · exact .inl ⟨_, rfl⟩
  · rename_i h
    right
    apply recorded_recorded
    simp only [applyOp, if_neg h]

theorem upsertTrustEntry_cases (jurisdiction : String) (node : V.NodeId) (notBefore : V.Time)
    (supersededAt : Option V.Time) :
    Refused s (s.upsertTrustEntry S t jurisdiction node notBefore supersededAt) ∨
      Recorded S s t (.upsertTrustEntry jurisdiction node notBefore supersededAt)
        (s.upsertTrustEntry S t jurisdiction node notBefore supersededAt) := by
  unfold Store.upsertTrustEntry
  split
  · exact .inl ⟨_, rfl⟩
  · rename_i h
    right
    apply recorded_recorded
    have hc : s.trustLists.contains (toAsciiUppercase jurisdiction) = true := by simpa using h
    rw [Std.ExtTreeMap.contains_eq_isSome_getElem?, Option.isSome_iff_exists] at hc
    obtain ⟨list, hlist⟩ := hc
    simp only [applyOp, hlist]

theorem setWitnesses_cases (m : UInt64) (witnesses : List (V.NodeId × V.PublicKey)) :
    Refused s (s.setWitnesses S t m witnesses) ∨
      Recorded S s t (.setWitnesses m witnesses) (s.setWitnesses S t m witnesses) := by
  unfold Store.setWitnesses
  split
  · exact .inl ⟨_, rfl⟩
  · rename_i h
    obtain ⟨hm, hw, hl⟩ : m ≠ 0 ∧ ¬ witnesses.isEmpty ∧ ¬ m.toNat > witnesses.length := by
      simpa only [not_or] using h
    right
    apply recorded_recorded
    simp only [applyOp, if_neg hm, if_neg hw, if_neg hl]

theorem upsertMasterEntry_cases (entry : MasterListEntry V) :
    Refused s (s.upsertMasterEntry S t entry) ∨
      Recorded S s t (.upsertMasterEntry entry) (s.upsertMasterEntry S t entry) := by
  unfold Store.upsertMasterEntry
  split
  · exact .inl ⟨_, rfl⟩
  · rename_i h
    right
    apply recorded_recorded
    simp only [applyOp, h]

theorem declareRevocation_cases (revocation : Revocation V) :
    Refused s (s.declareRevocation S t revocation) ∨
      Recorded S s t (.declareRevocation revocation) (s.declareRevocation S t revocation) := by
  unfold Store.declareRevocation
  split
  · exact .inl ⟨_, rfl⟩
  · rename_i hq
    split
    · exact .inl ⟨_, rfl⟩
    · rename_i hd
      right
      apply recorded_recorded
      simp only [applyOp, hq, hd]
      rfl

theorem registerEvidence_cases (evidence : Evidence) :
    Refused s (s.registerEvidence S t evidence) ∨
      Recorded S s t (.registerEvidence evidence) (s.registerEvidence S t evidence) := by
  unfold Store.registerEvidence
  split
  · exact .inl ⟨_, rfl⟩
  rename_i h
  split
  · exact .inl ⟨_, rfl⟩
  split
  · exact .inl ⟨_, rfl⟩
  split
  · exact .inl ⟨_, rfl⟩
  · right
    apply recorded_recorded
    simp only [applyOp, if_neg h]

theorem releaseEvidence_cases (id : String) (requester : Option String) (scope : String) :
    Refused s (s.releaseEvidence S t id requester scope) ∨
      Recorded S s t (.evidenceReleased id requester scope)
        (s.releaseEvidence S t id requester scope) := by
  unfold Store.releaseEvidence
  split
  · exact .inl ⟨_, rfl⟩
  · split
    · exact .inl ⟨_, rfl⟩
    · exact .inr ⟨rfl, _, rfl⟩

/-- All a typed mutation can do: refuse and leave the store, or record an operation that
applies. -/
theorem mutate_cases (S : Signatif V) (s : Store V) (t : Tick) (op : Op V) :
    Refused s (s.mutate S t op) ∨ Recorded S s t op (s.mutate S t op) := by
  cases op with
  | registerNode node => exact .inr ((registerNode_cases node).map _)
  | addEdge credential => exact (addEdge_cases credential).imp (·.map _) (·.map _)
  | registerTrustList jurisdiction framework =>
    exact (registerTrustList_cases jurisdiction framework).imp (·.map _) (·.map _)
  | upsertTrustEntry jurisdiction node notBefore supersededAt =>
    exact (upsertTrustEntry_cases jurisdiction node notBefore supersededAt).imp
      (·.map _) (·.map _)
  | setWitnesses m witnesses =>
    exact (setWitnesses_cases m witnesses).imp (·.map _) (·.map _)
  | upsertMasterEntry entry => exact (upsertMasterEntry_cases entry).imp (·.map _) (·.map _)
  | declareRevocation revocation =>
    exact (declareRevocation_cases revocation).imp (·.map _) (·.map _)
  | registerEvidence evidence =>
    exact (registerEvidence_cases evidence).imp (·.map _) (·.map _)
  | evidenceReleased id requester scope =>
    exact (releaseEvidence_cases id requester scope).imp (·.map _) (·.map _)

inductive Part where
  | graph
  | lists
  | master
  | ledger
  | evidence
  | none
  deriving DecidableEq

def Op.part : Op V → Part
  | .registerNode _ | .addEdge _ => .graph
  | .registerTrustList _ _ | .upsertTrustEntry _ _ _ _ => .lists
  | .setWitnesses _ _ | .upsertMasterEntry _ => .master
  | .declareRevocation _ => .ledger
  | .registerEvidence _ => .evidence
  | .evidenceReleased _ _ _ => .none

structure State.SameBut (p : Part) (s s' : State V) : Prop where
  graph : p ≠ .graph → s'.graph = s.graph
  lists : p ≠ .lists → s'.trustLists = s.trustLists ∧ s'.frameworks = s.frameworks
  master : p ≠ .master → s'.master = s.master
  ledger : p ≠ .ledger → s'.ledger = s.ledger
  evidence : p ≠ .evidence → s'.evidence = s.evidence

theorem State.SameBut.refl (p : Part) (s : State V) : s.SameBut p s :=
  ⟨fun _ => rfl, fun _ => ⟨rfl, rfl⟩, fun _ => rfl, fun _ => rfl, fun _ => rfl⟩

/-- An operation leaves every other part of the state as it is. -/
theorem applyOp_sameBut (S : Signatif V) (s : State V) (op : Op V) :
    s.SameBut op.part (applyOp S s op).2 := by
  have hgraph : ∀ g, s.SameBut .graph { s with graph := g } := fun g =>
    ⟨fun h => (h rfl).elim, fun _ => ⟨rfl, rfl⟩, fun _ => rfl, fun _ => rfl, fun _ => rfl⟩
  have hlists : ∀ l f, s.SameBut .lists { s with trustLists := l, frameworks := f } := fun l f =>
    ⟨fun _ => rfl, fun h => (h rfl).elim, fun _ => rfl, fun _ => rfl, fun _ => rfl⟩
  have hmaster : ∀ m, s.SameBut .master { s with master := m } := fun m =>
    ⟨fun _ => rfl, fun _ => ⟨rfl, rfl⟩, fun h => (h rfl).elim, fun _ => rfl, fun _ => rfl⟩
  have hledger : ∀ l, s.SameBut .ledger { s with ledger := l } := fun l =>
    ⟨fun _ => rfl, fun _ => ⟨rfl, rfl⟩, fun _ => rfl, fun h => (h rfl).elim, fun _ => rfl⟩
  have hevidence : ∀ e, s.SameBut .evidence { s with evidence := e } := fun e =>
    ⟨fun _ => rfl, fun _ => ⟨rfl, rfl⟩, fun _ => rfl, fun _ => rfl, fun h => (h rfl).elim⟩
  cases op with
  | registerNode node =>
    simp only [applyOp, applyRegisterNode]
    split
    · exact hgraph _
    · exact hgraph _
  | addEdge credential => exact hgraph _
  | registerTrustList jurisdiction framework =>
    simp only [applyOp]
    split
    · exact .refl _ s
    · exact hlists _ _
  | upsertTrustEntry jurisdiction node notBefore supersededAt =>
    simp only [applyOp]
    split
    · exact .refl _ s
    · exact hlists _ s.frameworks
  | setWitnesses m witnesses =>
    simp only [applyOp]
    split
    · exact .refl _ s
    split
    · exact .refl _ s
    split
    · exact .refl _ s
    · exact hmaster _
  | upsertMasterEntry entry =>
    simp only [applyOp]
    split
    · exact .refl _ s
    · exact hmaster _
  | declareRevocation revocation =>
    simp only [applyOp]
    split
    · exact .refl _ s
    · exact hledger _
  | registerEvidence evidence =>
    simp only [applyOp]
    split
    · exact .refl _ s
    · exact hevidence _
  | evidenceReleased id requester scope => exact .refl _ s

def Store.mutateAll (S : Signatif V) (s : Store V) : List (Op V × Tick) → Store V
  | [] => s
  | c :: cs => (s.mutate S c.2 c.1).2.mutateAll S cs

def Store.Accepts (S : Signatif V) (s : Store V) : List (Op V × Tick) → Prop
  | [] => True
  | c :: cs => (∃ a, (s.mutate S c.2 c.1).1 = .ok a) ∧ (s.mutate S c.2 c.1).2.Accepts S cs

/-- With the journal write succeeding, a refused mutation changes nothing, and an acknowledged
one applied its operation and added its one record to the log and to the journal. -/
theorem mutate_atomic (S : Signatif V) (s : Store V) (now : Timestamp) (op : Op V) :
    (match s.mutate S ⟨now, true⟩ op with
      | (.error _, s') => s' = s
      | (.ok _, s') =>
        (applyOp S s.toState op).1 = .ok () ∧ s'.toState = (applyOp S s.toState op).2 ∧
          ∃ r : AuditRecord V, r.seq = UInt64.ofNat (s.log.length + 1) ∧ r.op = op ∧
            s'.log = s.log ++ [r] ∧ s'.journal = s.journal.map (· ++ r.line S)) ∧
    ((s.mutate S ⟨now, true⟩ op).2.journal ≠ s.journal →
      (applyOp S s.toState op).1 = .ok ()) := by
  rcases mutate_cases S s ⟨now, true⟩ op with ⟨e, h⟩ | ⟨ha, reply, h⟩
  · rw [h]
    exact ⟨rfl, fun hne => (hne rfl).elim⟩
  · rw [h]
    refine ⟨⟨ha, rfl, _, ?_, rfl, rfl, rfl⟩, fun _ => ha⟩
    exact (UInt64.ofNat_add s.log.length 1).symm

end UnidppTrust
