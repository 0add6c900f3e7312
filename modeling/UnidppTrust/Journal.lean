import UnidppTrust.Store
import UnidppTrust.Seed
import UnidppTrust.SerdeJson
import UnidppTrust.LineLog

namespace UnidppTrust
open Rust Json LineLog
set_option autoImplicit true

/-- The crates a build of the service links. -/
structure Crates (V : Vocabulary) where
  signatif : Signatif V
  json : Serde
  fixtures : Fixtures V

/-- The `std::io::Error` kinds opening a store can return. -/
inductive IoError where
  | invalidData
  deriving DecidableEq

variable {V : Vocabulary} (C : Crates V)

def State.initial : State V where
  graph := C.signatif.graphNew
  trustLists := ∅
  frameworks := ∅
  master := C.signatif.masterNew 1 ∅
  ledger := C.signatif.ledgerNew
  evidence := ∅

def Store.empty : Store V := { State.initial C with log := [], journal := none }

/-- One journal line: a record, a line to skip (blank, or reported and dropped), or an error. -/
def readLine (line : Bytes) : Outcome IoError (Option (AuditRecord V)) :=
  match fromUtf8 line with
  | none => fail .invalidData
  | some text =>
    if (trim text).isEmpty then .ok none
    else
      match C.json.fromStr text with
      | .error _ => .ok none
      | .ok v =>
        match AuditRecord.fromJson C.signatif v with
        | .ok r => .ok (some r)
        | .error (.err _) => .ok none
        | .error .abort => abort

def journalFormat : Format IoError (AuditRecord V) where
  text r := bytes (r.toJson C.signatif).toString
  read := readLine C

/-- A failing application is reported; the record joins the log all the same. -/
def Store.replayRecord (s : Store V) (r : AuditRecord V) : Store V :=
  { s with toState := (applyOp C.signatif s.toState r.op).2, log := s.log ++ [r] }

def Store.replayLines (s : Store V) : List Bytes → Outcome IoError (Store V)
  | [] => .ok s
  | line :: rest => do
    let found ← readLine C line
    match found with
    | some r => (s.replayRecord C r).replayLines rest
    | none => s.replayLines rest

def Store.replay (s : Store V) (file : Bytes) : Outcome IoError (Store V) :=
  s.replayLines C (lines file)

def Store.recordAll (s : Store V) (ticks : Nat → Tick) : List (Op V) → Store V
  | [] => s
  | op :: ops => (s.record C.signatif (ticks 0) op).2.recordAll (fun i => ticks (i + 1)) ops

def Store.seedFixtures (s : Store V) (ticks : Nat → Tick) : Outcome IoError (Store V) := do
  let ops ← seedOps C.signatif C.fixtures
  .ok (s.recordAll C ticks ops)

/-- Open a store on a journal with these bytes, none for no journal; a missing file is an empty
one. -/
def Store.open_ (journal : Option Bytes) (seedWhenEmpty : Bool) (ticks : Nat → Tick) :
    Outcome IoError (Store V) := do
  let s ← match journal with
    | none => .ok (Store.empty C)
    | some file => do
      let s ← (Store.empty C).replay C file
      .ok { s with journal := some file }
  if seedWhenEmpty && s.log.isEmpty then s.seedFixtures C ticks else .ok s

def stateOf (log : List (AuditRecord V)) : State V :=
  log.foldl (fun st r => (applyOp C.signatif st r.op).2) (State.initial C)

theorem stateOf_concat (log : List (AuditRecord V)) (r : AuditRecord V) :
    stateOf C (log ++ [r]) = (applyOp C.signatif (stateOf C log) r.op).2 := by
  simp only [stateOf, List.foldl_append, List.foldl_cons, List.foldl_nil]

theorem foldl_replayRecord (rs : List (AuditRecord V)) (s : Store V) :
    rs.foldl (Store.replayRecord C) s =
      { toState := rs.foldl (fun st r => (applyOp C.signatif st r.op).2) s.toState
        log := s.log ++ rs
        journal := s.journal } := by
  induction rs generalizing s with
  | nil => rw [List.foldl_nil, List.foldl_nil, List.append_nil]
  | cons r rs ih =>
    rw [List.foldl_cons, ih]
    simp only [Store.replayRecord, List.foldl_cons, List.append_assoc, List.singleton_append]

theorem replayLines_eq (ls : List Bytes) (s : Store V) :
    s.replayLines C ls =
      ((journalFormat C).collect ls >>= fun rs => .ok (rs.foldl (Store.replayRecord C) s)) := by
  induction ls generalizing s with
  | nil => rfl
  | cons l ls ih =>
    rw [Store.replayLines, Format.collect]
    change _ = ((readLine C l >>= _) >>= _)
    cases readLine C l with
    | error e => rfl
    | ok found =>
      cases found with
      | none =>
        rw [ok_bind, ok_bind, ih]
        cases (journalFormat C).collect ls <;> rfl
      | some r =>
        change (s.replayRecord C r).replayLines C ls = _
        rw [ih]
        cases (journalFormat C).collect ls <;> rfl

/-- The store a log stands for, on a journal file. -/
def storeOf (log : List (AuditRecord V)) (file : Bytes) : Store V :=
  { toState := stateOf C log, log := log, journal := some file }

@[simp] theorem storeOf_log (log : List (AuditRecord V)) (file : Bytes) :
    (storeOf C log file).log = log := rfl

@[simp] theorem storeOf_toState (log : List (AuditRecord V)) (file : Bytes) :
    (storeOf C log file).toState = stateOf C log := rfl

@[simp] theorem storeOf_journal (log : List (AuditRecord V)) (file : Bytes) :
    (storeOf C log file).journal = some file := rfl

theorem record_storeOf (log : List (AuditRecord V)) (file : Bytes) (t : Tick) (op : Op V) :
    ((storeOf C log file).record C.signatif t op).2 =
      storeOf C (log ++ [((storeOf C log file).record C.signatif t op).1])
        (file ++ if t.written then
          ((storeOf C log file).record C.signatif t op).1.line C.signatif else []) := by
  cases hw : t.written with
  | false =>
    simp only [Store.record, storeOf, hw, stateOf_concat, Option.map_some, Bool.false_eq_true,
      if_false, List.append_nil]
  | true => simp only [Store.record, storeOf, hw, stateOf_concat, Option.map_some, if_true]

/-- Replay finds the file's records and folds them. -/
theorem open_eq (file : Bytes) (seed : Bool) (ticks : Nat → Tick) :
    Store.open_ C (some file) seed ticks = ((journalFormat C).recover file >>= fun log =>
      if seed && log.isEmpty then (storeOf C log file).seedFixtures C ticks
      else .ok (storeOf C log file)) := by
  simp only [Store.open_, Store.replay, replayLines_eq, Format.recover, foldl_replayRecord]
  cases (journalFormat C).collect (lines file) <;> rfl

theorem open_unseeded (file : Bytes) (ticks : Nat → Tick) :
    Store.open_ C (some file) false ticks =
      ((journalFormat C).recover file >>= fun log => .ok (storeOf C log file)) := by
  rw [open_eq]
  rfl

end UnidppTrust
