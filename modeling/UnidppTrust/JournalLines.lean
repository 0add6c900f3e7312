import UnidppTrust.Decoders
import UnidppTrust.Journal
import UnidppTrust.SeedLaws

namespace UnidppTrust
open Rust Json LineLog
set_option autoImplicit true

variable {V : Vocabulary} {C : Crates V} {S : Signatif V}

/-- What the service relies on in the crates it links. -/
structure Crates.Lawful (C : Crates V) : Prop where
  json : C.json.Lawful
  signatif : C.signatif.Lawful C.json.printed
  fixtures : C.fixtures.Lawful C.signatif

structure AuditRecord.Readable (S : Signatif V) (r : AuditRecord V) : Prop where
  op : r.op.WellFormed S
  recordedAt : OnClock S r.recordedAt

theorem record_text (r : AuditRecord V) :
    ∃ cs, (r.toJson C.signatif).toString.toList = '{' :: cs := by
  rw [record_fields, Value.toString, String.toList_ofList]
  obtain ⟨t, ht, -⟩ := render_obj_cons .compact 0 "body" (r.op.body C.signatif)
    [("op", .str r.op.name), ("recorded_at", .str (stampStr C.signatif r.recordedAt)),
      ("seq", .u64 r.seq)]
  exact ⟨_, ht⟩

theorem journal_text (r : AuditRecord V) :
    (journalFormat C).text r = bytes (r.toJson C.signatif).toString := by rw [journalFormat]

theorem journal_line (r : AuditRecord V) :
    (journalFormat C).file [r] = r.line C.signatif := by
  rw [Format.file, List.flatMap_singleton, journal_text, AuditRecord.line]

theorem journal_file_cons (r : AuditRecord V) (rs : List (AuditRecord V)) :
    (journalFormat C).file (r :: rs) = r.line C.signatif ++ (journalFormat C).file rs := by
  rw [← List.singleton_append, Format.file_append, journal_line]

theorem journal_read (b : Bytes) : (journalFormat C).read b = readLine C b := rfl

theorem journal_bytes (r : AuditRecord V) : ∃ b, (journalFormat C).text r = 123 :: b := by
  obtain ⟨cs, hcs⟩ := record_text (C := C) r
  have hb : String.utf8EncodeChar '{' = [123] := by decide
  refine ⟨utf8 cs, ?_⟩
  rw [journal_text, bytes, hcs, utf8_cons, hb, List.singleton_append]

theorem printed_no_control {b : UInt8} (hb : b.toNat < 32) (v : Value) : b ∉ bytes v.toString := by
  intro h
  rw [bytes] at h
  obtain ⟨c, hc, hn⟩ := (mem_utf8_ascii (by omega)).1 h
  rw [Value.toString, String.toList_ofList] at hc
  have hle := le_render 0 _ c hc
  omega

theorem journal_no_control {b : UInt8} (hb : b.toNat < 32) (r : AuditRecord V) :
    b ∉ (journalFormat C).text r := by
  rw [journal_text]
  exact printed_no_control hb _

theorem journal_oneLine (C : Crates V) (r : AuditRecord V) : (journalFormat C).OneLine r where
  no_newline := journal_no_control (by decide) r
  no_return := journal_no_control (by decide) r
  nonempty := by
    obtain ⟨b, hb⟩ := journal_bytes (C := C) r
    rw [hb]
    exact List.cons_ne_nil 123 b

theorem readLine_error (ht : fromUtf8 b = some s) (he : ∃ e, C.json.fromStr s = .error e) :
    readLine C b = .ok none := by
  obtain ⟨e, he⟩ := he
  rw [readLine, ht]
  dsimp only
  split
  · rfl
  · rw [he]

theorem trim_brace (hcs : s.toList = '{' :: cs) : (trim s).isEmpty = false := by
  have hlast : ∃ ds d, trimChars ('{' :: cs) = ds ++ [d] := by
    have hd : ('{' :: cs).dropWhile isWhitespace = '{' :: cs := by
      rw [List.dropWhile_cons_of_neg (by decide)]
    have hne : trimChars ('{' :: cs) ≠ [] := by
      rw [trimChars, hd, Ne, List.rdropWhile_eq_nil_iff]
      intro hall
      have hb := hall '{' List.mem_cons_self
      exact absurd hb (by decide)
    rw [← List.dropLast_append_getLast hne]
    exact ⟨_, _, rfl⟩
  obtain ⟨ds, d, hd⟩ := hlast
  rw [trim, hcs, hd, Bool.eq_false_iff, Ne, String.isEmpty_iff]
  intro h
  have hl := congrArg String.toList h
  rw [String.toList_ofList] at hl
  exact List.append_ne_nil_of_right_ne_nil ds (List.cons_ne_nil d []) hl

theorem trim_record (r : AuditRecord V) :
    (trim (r.toJson C.signatif).toString).isEmpty = false := by
  obtain ⟨cs, hcs⟩ := record_text (C := C) r
  exact trim_brace hcs

theorem readLine_record (hC : C.Lawful) (r : AuditRecord V) :
    readLine C ((journalFormat C).text r) =
      match AuditRecord.fromJson C.signatif (r.toJson C.signatif) with
      | .ok r => .ok (some r)
      | .error (.err _) => .ok none
      | .error .abort => abort := by
  have hparse := hC.json.round_trip _ (canonical_record hC.signatif r)
  rw [journal_text, readLine, fromUtf8_bytes]
  dsimp only
  rewrite [if_neg (by rw [trim_record]; exact Bool.false_ne_true), hparse]
  rfl

theorem returns_opBody (hS : S.Lawful P) (op : Op V) :
    Returns (opFromJson S op.name (op.body S)) := by
  have hbind {β : Type} {x : Outcome String β} {f : β → Op V} (h : Returns x) :
      Returns (x >>= fun a => .ok (f a)) := h.bind fun a _ => returns_ok _
  cases op with
  | registerNode node => exact hbind (returns_nodeFromValue _)
  | addEdge credential => exact hbind (returns_edgeFromValue _)
  | registerTrustList jurisdiction framework => exact returns_trustListFromJson _
  | upsertTrustEntry jurisdiction node notBefore supersededAt => exact returns_trustEntryFromJson _
  | setWitnesses m witnesses =>
    have hformed : (Op.setWitnesses m witnesses).WellFormed S := trivial
    rw [op_round_trip hS hformed]
    exact returns_ok _
  | upsertMasterEntry entry => exact hbind (returns_masterEntryFromValue _)
  | declareRevocation revocation => exact hbind (returns_revocationFromValue _)
  | registerEvidence evidence => exact returns_evidenceFromJson _
  | evidenceReleased id requester scope => exact returns_releaseFromJson _

/-- Replay does not stop at a record's line: at worst it drops the record. -/
theorem journal_passes (hC : C.Lawful) (r : AuditRecord V) : (journalFormat C).Passes r := by
  have hret : Returns (AuditRecord.fromJson C.signatif (r.toJson C.signatif)) := by
    rw [record_fromJson]
    apply (returns_inField _ (returns_tsParse _)).bind
    intro recordedAt _
    exact (returns_opBody hC.signatif r.op).bind fun op _ => returns_ok _
  rw [Format.Passes, journal_read, readLine_record hC]
  cases hr : AuditRecord.fromJson C.signatif (r.toJson C.signatif) with
  | ok r => exact ⟨_, rfl⟩
  | error e =>
    cases e with
    | err e => exact ⟨_, rfl⟩
    | abort => exact (hret hr).elim

theorem found_op (hC : C.Lawful) {r r' : AuditRecord V} (h : (journalFormat C).found r = some r') :
    opFromJson C.signatif r.op.name (r.op.body C.signatif) = .ok r'.op := by
  rw [Format.found, journal_read, readLine_record hC] at h
  cases hr : AuditRecord.fromJson C.signatif (r.toJson C.signatif) with
  | ok x =>
    rw [hr] at h
    cases h
    rw [record_fromJson] at hr
    obtain ⟨recordedAt, -, hr⟩ := bind_eq_ok hr
    obtain ⟨op, hop, hr⟩ := bind_eq_ok hr
    cases hr
    exact hop
  | error e =>
    rw [hr] at h
    cases e <;> cases h

theorem journal_reads (hC : C.Lawful) {r : AuditRecord V} (h : r.Readable C.signatif) :
    (journalFormat C).Reads r := by
  rw [Format.Reads, journal_read, readLine_record hC,
    record_round_trip hC.signatif h.op h.recordedAt]

theorem toList_of_bytes_append {q : Bytes} (h : bytes s = p ++ q) (hu : fromUtf8 p = some u) :
    ∃ t, s.toList = u.toList ++ t ∧ (q ≠ [] → t ≠ []) := by
  obtain ⟨t, ht⟩ := fromUtf8_prefix h hu
  refine ⟨t, ht.symm, fun hq ht₀ => hq ?_⟩
  rw [ht₀, List.append_nil, String.toList_inj] at ht
  rw [← ht, bytes_of_fromUtf8 hu, eq_comm, List.append_right_eq_self] at h
  exact h

theorem toList_ne_nil (hu : fromUtf8 p = some u) (hp : p ≠ []) : u.toList ≠ [] := by
  intro h
  apply hp
  rw [← bytes_of_fromUtf8 hu, bytes, h, utf8_nil]

/-- A torn record line is skipped, or cannot be read as text. -/
theorem readLine_torn (hC : C.Lawful) (r : AuditRecord V) {p q : Bytes}
    (h : (journalFormat C).text r = p ++ q) (hp : p ≠ []) (hq : q ≠ []) :
    readLine C p = if (fromUtf8 p).isSome then .ok none else fail .invalidData := by
  cases hu : fromUtf8 p with
  | none => rw [readLine, hu]; rfl
  | some u =>
    rw [journal_text] at h
    obtain ⟨t, ht, hne⟩ := toList_of_bytes_append h hu
    have he := hC.json.torn (marked_record r) (canonical_record (n := 0) hC.signatif r) ht
      (toList_ne_nil hu hp) (hne hq)
    rw [String.ofList_toList] at he
    rw [readLine_error hu he]
    rfl

/-- Nor is one that another record's line follows read as a record. -/
theorem journal_glueFree (hC : C.Lawful) (r f : AuditRecord V) :
    (journalFormat C).GlueFree r f := by
  intro p q h hp x hread
  rw [journal_read, journal_text] at hread
  rw [journal_text] at h
  cases hs : fromUtf8 (p ++ bytes (f.toJson C.signatif).toString) with
  | none =>
    rw [readLine, hs] at hread
    cases hread
  | some s =>
    obtain ⟨b, hb⟩ := journal_bytes (C := C) f
    rw [journal_text] at hb
    obtain ⟨u, hu, hcs⟩ := fromUtf8_append (by decide) hb hs
    obtain ⟨t, ht, -⟩ := toList_of_bytes_append h hu
    have he := hC.json.glued (marked_record r) (canonical_record (n := 0) hC.signatif r)
      (marked_record f) (canonical_record (n := 0) hC.signatif f) ht (toList_ne_nil hu hp)
    rw [← hcs, String.ofList_toList] at he
    rw [readLine_error hs he] at hread
    cases hread

end UnidppTrust
