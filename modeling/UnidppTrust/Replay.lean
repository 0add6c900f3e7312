import UnidppTrust.Decoders
import UnidppTrust.Reference

namespace UnidppTrust
open Rust Json
set_option autoImplicit true

variable {V : Vocabulary} {S : Signatif V} {C : Crates V}

def witnessNode (w : Value) : String := ((w.get "node").bind Value.asStr).getD ""

/-- A witness with a key whose node id is refused. -/
structure RefusedWitness (S : Signatif V) (w : Value) : Prop where
  key : ∃ key, publicFromValue S w = .ok key
  node : ∃ e, S.nodeIdNew (witnessNode w) = .error e

structure ReadWitness (S : Signatif V) (w : Value) : Prop where
  key : ∃ key, publicFromValue S w = .ok key
  node : ∃ n, S.nodeIdNew (witnessNode w) = .ok n

/-- The first of the body's witnesses that cannot be read has a key, but a node id that is
refused. -/
def BodyRefusesWitness (S : Signatif V) (body : Value) : Prop :=
  ∃ j m before w after, body.asObject = some j ∧ (j.lookup "m").bind Value.asU64 = some m ∧
    (j.lookup "witnesses").bind Value.asArray = some (before ++ w :: after) ∧
    (∀ x ∈ before, ReadWitness S x) ∧ RefusedWitness S w

/-- A record of a change of witnesses, one of which is refused so. -/
def RefusesWitness (S : Signatif V) (v : Value) : Prop :=
  ∃ obj seq stamp t body, v.asObject = some obj ∧
    (obj.lookup "seq").bind Value.asU64 = some seq ∧
    (obj.lookup "recorded_at").bind Value.asStr = some stamp ∧ Timestamp.parse stamp = .ok t ∧
    (obj.lookup "op").bind Value.asStr = some "set-witnesses" ∧ obj.lookup "body" = some body ∧
    BodyRefusesWitness S body

theorem witnessFromJson_abort : witnessFromJson S w = abort ↔ RefusedWitness S w := by
  rw [witnessFromJson]
  constructor
  · intro h
    obtain ⟨key, hkey, h⟩ := (returns_publicFromValue w).bind_abort h
    cases hn : S.nodeIdNew (witnessNode w) with
    | error e => exact ⟨⟨key, hkey⟩, e, hn⟩
    | ok n =>
      rw [witnessNode] at hn
      rw [hn] at h
      cases h
  · rintro ⟨⟨key, hkey⟩, e, hn⟩
    rw [witnessNode] at hn
    rw [hkey, ok_bind, hn]

theorem witnessFromJson_ok : (∃ x, witnessFromJson S w = .ok x) ↔ ReadWitness S w := by
  rw [witnessFromJson]
  constructor
  · rintro ⟨x, h⟩
    obtain ⟨key, hkey, h⟩ := bind_eq_ok h
    cases hn : S.nodeIdNew (witnessNode w) with
    | ok n => exact ⟨⟨key, hkey⟩, n, hn⟩
    | error e =>
      rw [witnessNode] at hn
      rw [hn] at h
      cases h
  · rintro ⟨⟨key, hkey⟩, n, hn⟩
    rw [witnessNode] at hn
    rw [hkey, ok_bind, hn]
    exact ⟨_, rfl⟩

theorem setWitnessesFromJson_abort :
    setWitnessesFromJson S body = abort ↔ BodyRefusesWitness S body := by
  rw [setWitnessesFromJson]
  constructor
  · intro h
    obtain ⟨j, hj, h⟩ := (returns_okOr _ _).bind_abort h
    obtain ⟨m, hm, h⟩ := (returns_okOr _ _).bind_abort h
    obtain ⟨ws, hws, h⟩ := (returns_okOr _ _).bind_abort h
    obtain ⟨before, w, after, rfl, hbefore, hw⟩ := mapM_eq_abort.1 (bind_ok_abort h)
    exact ⟨j, m, before, w, after, okOr_eq_ok hj, okOr_eq_ok hm, okOr_eq_ok hws,
      fun x hx => witnessFromJson_ok.1 (hbefore x hx), witnessFromJson_abort.1 hw⟩
  · rintro ⟨j, m, before, w, after, hj, hm, hws, hbefore, hw⟩
    have hmap : (before ++ w :: after).mapM (witnessFromJson S) = abort :=
      mapM_eq_abort.2 ⟨before, w, after, rfl, fun x hx => witnessFromJson_ok.2 (hbefore x hx),
        witnessFromJson_abort.2 hw⟩
    rw [objectOf, hj, okOr_some, ok_bind, u64Field, hm, okOr_some, ok_bind, arrayField, hws,
      okOr_some, ok_bind, hmap]
    rfl

theorem opFromJson_abort :
    opFromJson S name body = abort ↔ name = "set-witnesses" ∧ BodyRefusesWitness S body := by
  constructor
  · intro h
    unfold opFromJson at h
    split at h
    · exact (returns_nodeFromValue body (bind_ok_abort h)).elim
    split at h
    · exact (returns_edgeFromValue body (bind_ok_abort h)).elim
    split at h
    · exact (returns_trustListFromJson body h).elim
    split at h
    · exact (returns_trustEntryFromJson body h).elim
    split at h
    · rename_i hname
      exact ⟨hname, setWitnessesFromJson_abort.1 h⟩
    split at h
    · exact (returns_masterEntryFromValue body (bind_ok_abort h)).elim
    split at h
    · exact (returns_revocationFromValue body (bind_ok_abort h)).elim
    split at h
    · exact (returns_evidenceFromJson body h).elim
    split at h
    · exact (returns_releaseFromJson body h).elim
    · cases h
  · rintro ⟨rfl, hbody⟩
    exact setWitnessesFromJson_abort.2 hbody

/-- A record aborts its reader exactly if it refuses a witness. -/
theorem fromJson_abort : AuditRecord.fromJson S v = abort ↔ RefusesWitness S v := by
  rw [AuditRecord.fromJson]
  constructor
  · intro h
    obtain ⟨obj, hobj, h⟩ := (returns_okOr _ _).bind_abort h
    obtain ⟨seq, hseq, h⟩ := (returns_okOr _ _).bind_abort h
    obtain ⟨stamp, hstamp, h⟩ := (returns_okOr _ _).bind_abort h
    obtain ⟨recordedAt, hat, h⟩ :=
      (returns_inField "recorded_at" (returns_tsParse stamp)).bind_abort h
    obtain ⟨opName, hname, h⟩ := (returns_okOr _ _).bind_abort h
    obtain ⟨body, hbody, h⟩ := (returns_okOr _ _).bind_abort h
    obtain ⟨rfl, hrefuses⟩ := opFromJson_abort.1 (bind_ok_abort h)
    obtain ⟨t, ht, -⟩ := bind_eq_ok (mapErr_eq_ok hat)
    exact ⟨obj, seq, stamp, t, body, okOr_eq_ok hobj, okOr_eq_ok hseq, okOr_eq_ok hstamp,
      mapErr_eq_ok ht, okOr_eq_ok hname, okOr_eq_ok hbody, hrefuses⟩
  · rintro ⟨obj, seq, stamp, t, body, hobj, hseq, hstamp, ht, hname, hbody, hrefuses⟩
    have hat : inField "recorded_at" (tsParse S stamp) = .ok (S.timeFromSecs t.secs) := by
      rw [tsParse, ht]
      rfl
    have hop : opFromJson S "set-witnesses" body = abort := opFromJson_abort.2 ⟨rfl, hrefuses⟩
    rw [objectOf, hobj, okOr_some, ok_bind, u64Field, hseq, okOr_some, ok_bind, strField, hstamp,
      okOr_some, ok_bind, hat, ok_bind, strField, hname, okOr_some, ok_bind, hbody, okOr_some,
      ok_bind, hop]
    rfl

/-- The document a line holds, unless the line is blank or holds none. -/
def lineValue (C : Crates V) (line : Bytes) : Option Value :=
  (fromUtf8 line).bind fun text =>
    if (trim text).isEmpty then none else (C.json.fromStr text).toOption

theorem lineValue_printed (hJ : C.json.Lawful) (hv : v.Canonical C.json.printed 127)
    (hblank : ¬ (trim v.toString).isEmpty) : lineValue C (bytes v.toString) = some v := by
  rw [lineValue, fromUtf8_bytes, Option.bind_some, if_neg hblank, hJ.round_trip v hv]
  rfl

theorem lineValue_record (hC : C.Lawful) (r : AuditRecord V) :
    lineValue C (bytes (r.toJson C.signatif).toString) = some (r.toJson C.signatif) := by
  apply lineValue_printed hC.json (canonical_record hC.signatif r)
  rw [trim_record]
  exact Bool.false_ne_true

def lineRecord (C : Crates V) (line : Bytes) : Option (AuditRecord V) :=
  (lineValue C line).bind fun v => (AuditRecord.fromJson C.signatif v).toOption

theorem lineRecord_none (h : lineValue C line = none) : lineRecord C line = none := by
  rw [lineRecord, h]
  rfl

theorem lineRecord_record (hC : C.Lawful) {r : AuditRecord V}
    (hr : AuditRecord.fromJson C.signatif (r.toJson C.signatif) = .ok r) :
    lineRecord C (bytes (r.toJson C.signatif).toString) = some r := by
  rw [lineRecord, lineValue_record hC, Option.bind_some, hr]
  rfl

theorem readLine_lineRecord (ht : (fromUtf8 line).isSome)
    (h : ∀ v, lineValue C line = some v → Returns (AuditRecord.fromJson C.signatif v)) :
    readLine C line = .ok (lineRecord C line) := by
  obtain ⟨text, ht⟩ := Option.isSome_iff_exists.1 ht
  rw [lineValue, ht] at h
  rw [readLine, lineRecord, lineValue, ht]
  dsimp only [Option.bind_some] at h ⊢
  split
  · rfl
  · rename_i hblank
    rw [if_neg hblank] at h
    cases hv : C.json.fromStr text with
    | error e => rfl
    | ok v =>
      have hret := h v (by rw [hv]; rfl)
      cases hr : AuditRecord.fromJson C.signatif v with
      | ok r => simp only [Except.toOption, Option.bind_some, hr]
      | error e =>
        cases e with
        | err m => simp only [Except.toOption, Option.bind_some, hr]
        | abort => exact (hret hr).elim

theorem readLine_abort (hv : lineValue C line = some v)
    (h : AuditRecord.fromJson C.signatif v = abort) : readLine C line = abort := by
  obtain ⟨text, ht, hv⟩ := Option.bind_eq_some_iff.1 hv
  split at hv
  · cases hv
  · rename_i hblank
    cases hs : C.json.fromStr text with
    | error e =>
      rw [hs] at hv
      cases hv
    | ok w =>
      rw [hs] at hv
      cases hv
      rw [readLine, ht]
      simp only [hs]
      rw [if_neg hblank, h]
      rfl

def State.applied (S : Signatif V) (s : State V) (op : Op V) : State V :=
  match applyOp S s op with
  | (.ok (), s') => s'
  | (.error _, _) => s

/-- An operation that is refused leaves the state as it was. -/
theorem applyOp_refused (hS : S.Atomic) {s : State V} {op : Op V}
    (h : (applyOp S s op).1 = .error e) : (applyOp S s op).2 = s := by
  cases op with
  | registerNode node => cases h
  | addEdge credential =>
    simp only [applyOp] at h ⊢
    cases hedge : (S.graphAddEdge s.graph credential).1 with
    | ok u =>
      rw [hedge] at h
      cases h
    | error m => rw [hS.edge _ _ _ hedge]
  | registerTrustList jurisdiction framework =>
    simp only [applyOp] at h ⊢
    split at h
    · rename_i hc
      rw [if_pos hc]
    · cases h
  | upsertTrustEntry jurisdiction node notBefore supersededAt =>
    simp only [applyOp] at h ⊢
    split at h
    · rfl
    · cases h
  | setWitnesses m witnesses =>
    simp only [applyOp] at h ⊢
    split
    · rfl
    split
    · rfl
    split
    · rfl
    · rename_i hm hw hl
      rw [if_neg hm, if_neg hw, if_neg hl] at h
      cases h
  | upsertMasterEntry entry =>
    simp only [applyOp] at h ⊢
    split at h
    · rfl
    · cases h
  | declareRevocation revocation =>
    simp only [applyOp] at h ⊢
    split at h
    · rfl
    · cases hd : (S.ledgerDeclare s.ledger revocation).1 with
      | ok u =>
        simp only [hd] at h
        cases h
      | error m => simp only [hS.declare _ _ _ hd]
  | registerEvidence evidence =>
    simp only [applyOp] at h ⊢
    split at h
    · rename_i hc
      rw [if_pos hc]
    · cases h
  | evidenceReleased id requester scope => cases h

theorem applied_eq (hS : S.Atomic) (s : State V) (op : Op V) :
    s.applied S op = (applyOp S s op).2 := by
  have hrefused : ∀ e, (applyOp S s op).1 = .error e → (applyOp S s op).2 = s :=
    fun e h => applyOp_refused hS h
  rw [State.applied]
  cases hop : applyOp S s op with
  | mk result s' =>
    rw [hop] at hrefused
    cases result with
    | ok u => rfl
    | error e => exact (hrefused e rfl).symm

def fileRecords (C : Crates V) (file : Bytes) : List (AuditRecord V) :=
  (lines file).filterMap (lineRecord C)

def Store.afterRecords (C : Crates V) (s : Store V) (rs : List (AuditRecord V)) : Store V where
  toState := rs.foldl (fun st r => st.applied C.signatif r.op) s.toState
  log := s.log ++ rs
  journal := s.journal

theorem replayLines_records (hC : C.signatif.Atomic) {ls : List Bytes} (s : Store V)
    (h : ∀ line ∈ ls, readLine C line = .ok (lineRecord C line)) :
    s.replayLines C ls = .ok (s.afterRecords C (ls.filterMap (lineRecord C))) := by
  induction ls generalizing s with
  | nil =>
    rw [Store.replayLines, Store.afterRecords, List.filterMap_nil, List.append_nil]
    rfl
  | cons line ls ih =>
    have hrest := fun l hl => h l (List.mem_cons_of_mem line hl)
    rw [Store.replayLines, h line List.mem_cons_self, ok_bind]
    cases hr : lineRecord C line with
    | none =>
      rw [List.filterMap_cons_none hr]
      exact ih s hrest
    | some r =>
      rw [List.filterMap_cons_some hr]
      refine (ih (s.replayRecord C r) hrest).trans ?_
      simp only [Store.afterRecords, Store.replayRecord, List.foldl_cons, applied_eq hC,
        List.append_assoc, List.singleton_append]

theorem replayLines_reads {s s' : Store V} {ls : List Bytes}
    (h : s.replayLines C ls = .ok s') : ∀ line ∈ ls, readLine C line ≠ abort := by
  induction ls generalizing s with
  | nil =>
    intro line hline
    cases hline
  | cons l ls ih =>
    obtain ⟨found, hfound, h⟩ := bind_eq_ok h
    intro line hline
    rcases List.mem_cons.1 hline with rfl | hline
    · rw [hfound]
      exact returns_ok _
    · cases found with
      | none => exact ih h line hline
      | some r => exact ih h line hline

/-- Replay goes through the file, keeps its records and passes over every other line. -/
structure Store.Survives (C : Crates V) (s : Store V) (file : Bytes) : Prop where
  replayed : s.replay C file = .ok (s.afterRecords C (fileRecords C file))
  passed : ∀ before line after, lines file = before ++ line :: after → lineRecord C line = none →
    s.replay C file = s.replayLines C (before ++ after)

/-- Decoding a record returns exactly if it refuses no witness; and a file of text is survived
exactly if no line of it holds a record that does. -/
theorem replay_survives_iff (hC : C.signatif.Atomic) :
    (∀ v, Returns (AuditRecord.fromJson C.signatif v) ↔ ¬ RefusesWitness C.signatif v) ∧
    ∀ (s : Store V) (file : Bytes), (∀ line ∈ lines file, (fromUtf8 line).isSome) →
      (s.Survives C file ↔
        ∀ line ∈ lines file, ∀ v, lineValue C line = some v → ¬ RefusesWitness C.signatif v) := by
  refine ⟨fun v => not_congr fromJson_abort, fun s file htext => ⟨fun h => ?_, fun h => ?_⟩⟩
  · intro line hline v hv hrefuses
    exact replayLines_reads h.replayed line hline (readLine_abort hv (fromJson_abort.2 hrefuses))
  · have hread : ∀ line ∈ lines file, readLine C line = .ok (lineRecord C line) :=
      fun line hline => readLine_lineRecord (htext line hline)
        fun v hv => mt fromJson_abort.1 (h line hline v hv)
    refine ⟨replayLines_records hC s hread, fun before line after hlines hnone => ?_⟩
    have hrest : ∀ l ∈ before ++ after, readLine C l = .ok (lineRecord C l) := by
      intro l hl
      apply hread
      rw [hlines]
      rcases List.mem_append.1 hl with hl | hl
      · exact List.mem_append_left _ hl
      · exact List.mem_append_right _ (List.mem_cons_of_mem line hl)
    rw [Store.replay, replayLines_records hC s hread, replayLines_records hC s hrest, hlines,
      List.filterMap_append, List.filterMap_append, List.filterMap_cons_none hnone]

open Reference

theorem reference_atomic : signatif.Atomic where
  edge g c e h := by
    simp only [signatif] at h ⊢
    split at h
    · rename_i hp
      rw [if_pos hp]
    · rename_i hp
      split at h
      · rename_i hc
        rw [if_neg hp, if_pos hc]
      · cases h
  declare l r e h := by
    simp only [signatif] at h ⊢
    split at h
    · rename_i hr
      rw [if_pos hr]
    · cases h

def listedRecord : AuditRecord vocabulary := ⟨1, (43200 : Int), .registerTrustList "EU" none⟩

def danglingRecord : AuditRecord vocabulary :=
  ⟨2, (43200 : Int), .addEdge ⟨"root", "issuer", "", []⟩⟩

def damagedFile : Bytes :=
  bytes (listedRecord.toJson signatif).toString ++ 10 :: ([123] ++ 10 ::
    (bytes (danglingRecord.toJson signatif).toString ++ 10 :: ([34] ++ 10 :: [])))

theorem lines_damagedFile : lines damagedFile =
    [bytes (listedRecord.toJson signatif).toString, [123],
      bytes (danglingRecord.toJson signatif).toString, [34]] := by
  have hprinted (r : AuditRecord vocabulary) (rest : Bytes) :=
    lines_cons (printed_no_control (by decide) (r.toJson signatif))
      (printed_no_control (by decide) (r.toJson signatif)) rest
  rw [damagedFile, hprinted, lines_cons (by decide) (by decide), hprinted,
    lines_cons (by decide) (by decide)]
  rfl

theorem unrefused_record {r : AuditRecord vocabulary}
    (hr : AuditRecord.fromJson signatif (r.toJson signatif) = .ok r) {v : Value}
    (hv : lineValue crates (bytes (r.toJson signatif).toString) = some v) :
    ¬ RefusesWitness signatif v := by
  have hvalue := lineValue_record crates_lawful r
  rw [crates_signatif, hv, Option.some.injEq] at hvalue
  rw [hvalue]
  intro hrefuses
  have habort := fromJson_abort.2 hrefuses
  rw [hr] at habort
  cases habort

/-- Both records are replayed, though the second does not apply. -/
theorem replay_survives_damaged :
    (Store.empty crates).Survives crates damagedFile ∧
      fileRecords crates damagedFile = [listedRecord, danglingRecord] ∧
      (applyOp signatif (applyOp signatif (State.initial crates) listedRecord.op).2
        danglingRecord.op).1 ≠ .ok () := by
  have hnone : lineValue crates [123] = none ∧ lineValue crates [34] = none := by decide +kernel
  have hdamaged : (fromUtf8 [123]).isSome ∧ (fromUtf8 [34]).isSome := by decide +kernel
  have hlisted : AuditRecord.fromJson signatif (listedRecord.toJson signatif) =
      .ok listedRecord := rfl
  have hdangling : AuditRecord.fromJson signatif (danglingRecord.toJson signatif) =
      .ok danglingRecord := rfl
  have htext (v : Value) : (fromUtf8 (bytes v.toString)).isSome := by
    rw [fromUtf8_bytes]
    rfl
  have hlines : ∀ line ∈ lines damagedFile, (fromUtf8 line).isSome ∧
      ∀ v, lineValue crates line = some v → ¬ RefusesWitness signatif v := by
    rw [lines_damagedFile]
    intro line hline
    simp only [List.mem_cons, List.not_mem_nil, or_false] at hline
    rcases hline with h | h | h | h <;> rw [h]
    · exact ⟨htext _, fun v hv => unrefused_record hlisted hv⟩
    · exact ⟨hdamaged.1, fun v hv => absurd (hnone.1.symm.trans hv) (Option.some_ne_none v).symm⟩
    · exact ⟨htext _, fun v hv => unrefused_record hdangling hv⟩
    · exact ⟨hdamaged.2, fun v hv => absurd (hnone.2.symm.trans hv) (Option.some_ne_none v).symm⟩
  obtain ⟨-, hsurvives⟩ := replay_survives_iff (C := crates) reference_atomic
  refine ⟨(hsurvives (Store.empty crates) _ fun line hline => (hlines line hline).1).2
    fun line hline => (hlines line hline).2, ?_, by decide⟩
  have hrecord {r : AuditRecord vocabulary} := lineRecord_record (r := r) crates_lawful
  rw [crates_signatif] at hrecord
  rw [fileRecords, lines_damagedFile, List.filterMap_cons_some (hrecord hlisted),
    List.filterMap_cons_none (lineRecord_none hnone.1),
    List.filterMap_cons_some (hrecord hdangling),
    List.filterMap_cons_none (lineRecord_none hnone.2), List.filterMap_nil]

def strictCrates : Crates vocabulary :=
  { crates with signatif := { signatif with
      nodeIdNew := fun s =>
        if ' ' ∈ s.toList then .error ("node id `" ++ s ++ "` holds a space") else .ok s } }

def refusedWitness : Value :=
  .object [("node", .str "not a node id!"), ("suite", .str "ECDSA-P256"), ("public", .str "07")]

def refusedRecord : Value :=
  .object [("op", .str "set-witnesses"), ("seq", .u64 1),
    ("recorded_at", .str "1970-01-01T12:00:00Z"),
    ("body", .object [("m", .u64 1), ("witnesses", .arr [refusedWitness])])]

theorem canonical_refusedRecord : refusedRecord.Canonical (fun _ => True) 127 := by
  have hwitness : refusedWitness.Canonical (fun _ => True) 124 :=
    canonical_fields ⟨trivial, trivial, trivial⟩
  have hwitnesses : (Value.arr [refusedWitness]).Canonical (fun _ => True) 125 := by
    rw [canonical_arr]
    intro w hw
    rw [List.mem_singleton.1 hw]
    exact hwitness
  exact canonical_fields ⟨trivial, trivial, trivial, canonical_fields ⟨trivial, hwitnesses⟩⟩

/-- One damaged line of text aborts the decoder, and with it the replay. -/
theorem replay_aborts :
    AuditRecord.fromJson strictCrates.signatif refusedRecord = abort ∧
    (∀ line ∈ lines (bytes refusedRecord.toString ++ [10]), (fromUtf8 line).isSome) ∧
    (Store.empty strictCrates).replay strictCrates (bytes refusedRecord.toString ++ [10]) =
      abort := by
  have hdecode : AuditRecord.fromJson strictCrates.signatif refusedRecord = abort := rfl
  have hlines : lines (bytes refusedRecord.toString ++ [10]) = [bytes refusedRecord.toString] :=
    lines_cons (printed_no_control (by decide) _) (printed_no_control (by decide) _) []
  have hvalue : lineValue strictCrates (bytes refusedRecord.toString) = some refusedRecord := by
    obtain ⟨cs, hcs, -⟩ := render_obj_cons .compact 0 "body" _ [("op", .str "set-witnesses"),
      ("recorded_at", .str "1970-01-01T12:00:00Z"), ("seq", .u64 1)]
    have hblank := trim_brace (s := refusedRecord.toString) (String.toList_ofList.trans hcs)
    exact lineValue_printed Serde.reference_lawful canonical_refusedRecord (by simp [hblank])
  refine ⟨hdecode, ?_, ?_⟩
  · rw [hlines]
    intro line hline
    rw [List.mem_singleton.1 hline, fromUtf8_bytes]
    rfl
  · rewrite [Store.replay, hlines, Store.replayLines, readLine_abort hvalue hdecode]
    exact error_bind _ _

end UnidppTrust
