import UnidppTrust.CeremonyBodies
import UnidppTrust.Decoders
import UnidppTrust.FlagLine
import UnidppTrust.Http
import UnidppTrust.Httpc

namespace UnidppTrust.Ceremony
open Rust Json FlagLine
set_option autoImplicit true

/-- A slice of arguments, which is shorter than `isize::MAX`. -/
abbrev Args := { args : List String // args.length < 2 ^ 63 }

def Options.initial : Options where
  quorum := ""
  threshold := 0
  members := []
  signers := []
  subjectKind := ""
  subjectId := ""
  reason := ""
  detectedAt := none
  windowStart := ""
  windowEnd := none
  declaredAt := ""
  outDir := none

/-- The closure `value`: the cursor goes on to the next argument, which is taken. -/
def takeValue (checks : Bool) (args : List String) (i : Nat) (flag : String) :
    Outcome String (String × Nat) := do
  let i ← addUsize checks i 1
  let value ← okOr args[i]? (flag ++ " needs a value")
  .ok (value, i)

/-- The `match` of `parse` on the argument at the cursor. -/
def parseArg (checks : Bool) (args : List String) (i : Nat) (o : Options) (arg : String) :
    Outcome String (Options × Nat) :=
  let value := takeValue checks args i
  match arg with
  | "--quorum" => do
    let (v, i) ← value "--quorum"
    .ok ({ o with quorum := v }, i)
  | "--threshold" => do
    let (v, i) ← value "--threshold"
    let threshold ← okOr (parseUsize v) "bad --threshold"
    .ok ({ o with threshold := .ofNat threshold }, i)
  | "--member" => do
    let (v, i) ← value "--member"
    .ok ({ o with members := o.members ++ [v] }, i)
  | "--signer" => do
    let (v, i) ← value "--signer"
    .ok ({ o with signers := o.signers ++ [v] }, i)
  | "--subject-kind" => do
    let (v, i) ← value "--subject-kind"
    .ok ({ o with subjectKind := v }, i)
  | "--subject-id" => do
    let (v, i) ← value "--subject-id"
    .ok ({ o with subjectId := v }, i)
  | "--reason" => do
    let (v, i) ← value "--reason"
    .ok ({ o with reason := v }, i)
  | "--detected-at" => do
    let (v, i) ← value "--detected-at"
    .ok ({ o with detectedAt := some v }, i)
  | "--window-start" => do
    let (v, i) ← value "--window-start"
    .ok ({ o with windowStart := v }, i)
  | "--window-end" => do
    let (v, i) ← value "--window-end"
    .ok ({ o with windowEnd := some v }, i)
  | "--declared-at" => do
    let (v, i) ← value "--declared-at"
    .ok ({ o with declaredAt := v }, i)
  | "--out-dir" => do
    let (v, i) ← value "--out-dir"
    .ok ({ o with outDir := some v }, i)
  | "-h" => fail ""
  | "--help" => fail ""
  | other => fail ("unknown argument `" ++ other ++ "`")

def parseRound (checks : Bool) (args : List String) (i : Nat) (o : Options) :
    Outcome String (Options × Nat) := do
  let arg ← index args i
  let (o, i) ← parseArg checks args i o arg
  let i ← addUsize checks i 1
  .ok (o, i)

inductive Flag where
  | quorum
  | threshold
  | member
  | signer
  | subjectKind
  | subjectId
  | reason
  | detectedAt
  | windowStart
  | windowEnd
  | declaredAt
  | outDir
  deriving DecidableEq

def Flag.text : Flag → String
  | .quorum => "--quorum"
  | .threshold => "--threshold"
  | .member => "--member"
  | .signer => "--signer"
  | .subjectKind => "--subject-kind"
  | .subjectId => "--subject-id"
  | .reason => "--reason"
  | .detectedAt => "--detected-at"
  | .windowStart => "--window-start"
  | .windowEnd => "--window-end"
  | .declaredAt => "--declared-at"
  | .outDir => "--out-dir"

def Options.take (o : Options) (x : Occurrence Flag String) : Outcome String Options :=
  match x.flag with
  | .quorum => .ok { o with quorum := x.value }
  | .threshold => do
    let threshold ← okOr (parseUsize x.value) "bad --threshold"
    .ok { o with threshold := .ofNat threshold }
  | .member => .ok { o with members := o.members ++ [x.value] }
  | .signer => .ok { o with signers := o.signers ++ [x.value] }
  | .subjectKind => .ok { o with subjectKind := x.value }
  | .subjectId => .ok { o with subjectId := x.value }
  | .reason => .ok { o with reason := x.value }
  | .detectedAt => .ok { o with detectedAt := some x.value }
  | .windowStart => .ok { o with windowStart := x.value }
  | .windowEnd => .ok { o with windowEnd := some x.value }
  | .declaredAt => .ok { o with declaredAt := x.value }
  | .outDir => .ok { o with outDir := some x.value }

variable {checks : Bool} {args : List String}

theorem takeValue_eq (h : i + 1 < 2 ^ 64) (flag : String) : takeValue checks args i flag =
    okOr args[i + 1]? (flag ++ " needs a value") >>= fun v => .ok (v, i + 1) := by
  rw [takeValue, addUsize_eq h, ok_bind]

theorem parseArg_flag (f : Flag) (o : Options) : parseArg checks args i o f.text =
    takeValue checks args i f.text >>= fun x =>
      o.take ⟨f, x.1⟩ >>= fun o => .ok (o, x.2) := by
  cases f with
  | threshold =>
    have hmatch : parseArg checks args i o Flag.threshold.text =
        takeValue checks args i "--threshold" >>= fun x =>
          okOr (parseUsize x.1) "bad --threshold" >>= fun threshold =>
            .ok ({ o with threshold := .ofNat threshold }, x.2) := rfl
    rw [hmatch]
    simp only [Options.take, bind_assoc, ok_bind, Flag.text]
  | _ => rfl

theorem parseArg_other (h : ∀ f : Flag, arg ≠ f.text) (o : Options) :
    parseArg checks args i o arg = fail
      (if arg = "-h" ∨ arg = "--help" then "" else "unknown argument `" ++ arg ++ "`") := by
  unfold parseArg
  split
  · exact (h .quorum rfl).elim
  · exact (h .threshold rfl).elim
  · exact (h .member rfl).elim
  · exact (h .signer rfl).elim
  · exact (h .subjectKind rfl).elim
  · exact (h .subjectId rfl).elim
  · exact (h .reason rfl).elim
  · exact (h .detectedAt rfl).elim
  · exact (h .windowStart rfl).elim
  · exact (h .windowEnd rfl).elim
  · exact (h .declaredAt rfl).elim
  · exact (h .outDir rfl).elim
  · rfl
  · rfl
  · rename_i hhelp hlong
    rw [if_neg (not_or.2 ⟨hhelp, hlong⟩)]

theorem parseRound_flag {f : Flag} (hargs : args.length < 2 ^ 63)
    (h : args.drop i = f.text :: rest) (o : Options) : parseRound checks args i o =
      okOr rest.head? (f.text ++ " needs a value") >>= fun v =>
        o.take ⟨f, v⟩ >>= fun o => .ok (o, i + 2) := by
  have hi := lt_of_drop h
  have hnext : args[i + 1]? = rest.head? := by
    rw [← drop_succ h, List.head?_drop]
  rw [parseRound, index_of_drop h, ok_bind, parseArg_flag, takeValue_eq (by omega), hnext]
  cases rest.head? with
  | none => rfl
  | some v =>
    simp only [okOr_some, ok_bind, bind_assoc]
    rw [addUsize_eq (by omega)]
    rfl

theorem parseRound_other (h : args.drop i = a :: rest) (hno : ∀ f : Flag, a ≠ f.text)
    (o : Options) : parseRound checks args i o = fail
      (if a = "-h" ∨ a = "--help" then "" else "unknown argument `" ++ a ++ "`") := by
  rw [parseRound, index_of_drop h, ok_bind, parseArg_other hno]
  rfl

theorem parseRound_advances (hargs : args.length < 2 ^ 63)
    (h : parseRound checks args i o = .ok (o', j)) : j = i + 2 := by
  cases hd : args.drop i with
  | nil =>
    rw [parseRound, index_beyond hd] at h
    cases h
  | cons a rest =>
    by_cases hf : ∃ f : Flag, a = f.text
    · obtain ⟨f, rfl⟩ := hf
      rw [parseRound_flag hargs hd] at h
      obtain ⟨v, -, h⟩ := bind_eq_ok h
      obtain ⟨o'', -, h⟩ := bind_eq_ok h
      cases h
      rfl
    · rw [parseRound_other hd fun f hfa => hf ⟨f, hfa⟩] at h
      cases h

def parseFrom (checks : Bool) (args : Args) (i : Nat) (o : Options) : Outcome String Options :=
  if i < args.1.length then
    match _h : parseRound checks args.1 i o with
    | .error e => .error e
    | .ok (o, i) => parseFrom checks args i o
  else .ok o
termination_by args.1.length - i
decreasing_by
  have hnext := parseRound_advances args.2 _h
  omega

def parse (checks : Bool) (args : Args) : Outcome String Options :=
  parseFrom checks args 0 .initial

theorem parseFrom_end (args : Args) (h : args.1.length ≤ i) (o : Options) :
    parseFrom checks args i o = .ok o := by
  rw [parseFrom, if_neg (Nat.not_lt.2 h)]

theorem parseFrom_round (args : Args) (h : i < args.1.length) (o : Options) :
    parseFrom checks args i o = parseRound checks args.1 i o >>= fun x =>
      parseFrom checks args x.2 x.1 := by
  rw [parseFrom, if_pos h]
  split
  · rename_i hround
    rw [hround]
    rfl
  · rename_i hround
    rw [hround]
    rfl

theorem parseFrom_written (args : Args) (h : args.1.drop i = written Flag.text occs ++ rest)
    (o : Options) : parseFrom checks args i o =
      occs.foldlM Options.take o >>= parseFrom checks args (i + 2 * occs.length) := by
  induction occs generalizing i o with
  | nil => rfl
  | cons x occs ih =>
    rw [written_cons, List.cons_append, List.cons_append] at h
    have hrest : args.1.drop (i + 2) = written Flag.text occs ++ rest := drop_succ (drop_succ h)
    rw [parseFrom_round args (lt_of_drop h), parseRound_flag args.2 h, List.head?_cons, okOr_some,
      ok_bind, List.foldlM_cons, bind_assoc, bind_assoc]
    congr 1
    funext o'
    rw [ok_bind, ih hrest, List.length_cons, Nat.mul_succ, Nat.add_assoc, Nat.add_comm 2]

/-- A line of occurrences is parsed as they are taken. -/
theorem parse_written (args : Args) (h : args.1 = written Flag.text occs) :
    parse checks args = occs.foldlM Options.take .initial := by
  have hdrop : args.1.drop 0 = written Flag.text occs ++ [] := by
    rw [List.drop_zero, h, List.append_nil]
  have hend : args.1.length ≤ 0 + 2 * occs.length := by
    rw [h, length_written, Nat.zero_add]
  rw [parse, parseFrom_written args hdrop]
  have hrest (o : Options) : parseFrom checks args (0 + 2 * occs.length) o = .ok o :=
    parseFrom_end args hend o
  cases occs.foldlM Options.take Options.initial with
  | error e => rfl
  | ok o => exact hrest o

theorem take_cases (o : Options) (x : Occurrence Flag String) :
    (∃ o', o.take x = .ok o') ∨
    (o.take x = fail "bad --threshold" ∧ x.flag = .threshold ∧ parseUsize x.value = none) := by
  obtain ⟨flag, value⟩ := x
  cases flag with
  | threshold =>
    cases hn : parseUsize value with
    | none =>
      right
      rw [Options.take]
      dsimp only
      rw [hn]
      exact ⟨rfl, rfl, rfl⟩
    | some n =>
      left
      rw [Options.take]
      dsimp only
      rw [hn]
      exact ⟨_, rfl⟩
  | _ => exact .inl ⟨_, rfl⟩

theorem takeAll_cases (o : Options) (occs : List (Occurrence Flag String)) :
    (∃ o', occs.foldlM Options.take o = .ok o') ∨
    (occs.foldlM Options.take o = fail "bad --threshold" ∧
      ∃ x ∈ occs, x.flag = .threshold ∧ parseUsize x.value = none) := by
  induction occs generalizing o with
  | nil => exact .inl ⟨o, rfl⟩
  | cons x occs ih =>
    rw [List.foldlM_cons]
    rcases take_cases o x with ⟨o', htake⟩ | ⟨htake, hbad⟩
    · rw [htake, ok_bind]
      rcases ih o' with hok | ⟨hfail, y, hy, hbad⟩
      · exact .inl hok
      · exact .inr ⟨hfail, y, List.mem_cons_of_mem x hy, hbad⟩
    · rw [htake]
      exact .inr ⟨rfl, x, List.mem_cons_self, hbad⟩

/-- The options that occurrences state: all the members and signers in order, and of any other
flag the last value; there are none if the last threshold is not a number. -/
def Options.stated (occs : List (Occurrence Flag String)) : Option Options :=
  ((lastValue Flag.threshold occs).elim (some 0) parseUsize).map fun threshold => {
    quorum := (lastValue .quorum occs).getD ""
    threshold := .ofNat threshold
    members := values .member occs
    signers := values .signer occs
    subjectKind := (lastValue .subjectKind occs).getD ""
    subjectId := (lastValue .subjectId occs).getD ""
    reason := (lastValue .reason occs).getD ""
    detectedAt := lastValue .detectedAt occs
    windowStart := (lastValue .windowStart occs).getD ""
    windowEnd := lastValue .windowEnd occs
    declaredAt := (lastValue .declaredAt occs).getD ""
    outDir := lastValue .outDir occs }

theorem stated_concat (h : Options.stated occs = some o) (htake : o.take x = .ok o') :
    Options.stated (occs ++ [x]) = some o' := by
  obtain ⟨n, hn, rfl⟩ := Option.map_eq_some_iff.1 h
  obtain ⟨flag, value⟩ := x
  cases flag with
  | threshold =>
    obtain ⟨m, hm, htake⟩ := bind_eq_ok htake
    cases htake
    simp [Options.stated, okOr_eq_ok hm]
  | _ =>
    cases htake
    simp [Options.stated, hn]

theorem takeAll_stated (h : occs.foldlM Options.take .initial = .ok o) :
    Options.stated occs = some o := by
  induction occs using List.reverseRecOn generalizing o with
  | nil =>
    cases h
    rfl
  | append_singleton occs x ih =>
    rw [List.foldlM_append] at h
    obtain ⟨o', hocc, htake⟩ := bind_eq_ok h
    obtain ⟨o'', htake, h⟩ := bind_eq_ok htake
    cases h
    exact stated_concat (ih hocc) htake

theorem parse_fails (args : Args) (hline : args.1 = written Flag.text occs ++ a :: rest)
    (hround : ∀ i o, args.1.drop i = a :: rest → parseRound checks args.1 i o = fail e) :
    ∃ e, parse checks args = fail e := by
  have hdrop : args.1.drop 0 = written Flag.text occs ++ a :: rest := hline
  have hcursor : args.1.drop (0 + 2 * occs.length) = a :: rest :=
    drop_after hdrop (length_written Flag.text occs)
  rw [parse, parseFrom_written args hdrop]
  rcases takeAll_cases .initial occs with ⟨o, hok⟩ | ⟨hfail, -⟩
  · rw [hok, ok_bind, parseFrom_round args (lt_of_drop hcursor), hround _ o hcursor]
    exact ⟨e, rfl⟩
  · rw [hfail]
    exact ⟨_, rfl⟩

theorem parse_faulty (checks : Bool) (args : Args) (h : Faulty Flag.text args.1) :
    ∃ e, parse checks args = fail e := by
  generalize hline : args.1 = line at h
  cases h with
  | unknown occs rest hno =>
    exact parse_fails args hline fun i o hcursor => parseRound_other hcursor hno o
  | missing occs f =>
    have hround (i : Nat) (o : Options) (hcursor : args.1.drop i = [f.text]) :
        parseRound checks args.1 i o = fail (f.text ++ " needs a value") := by
      rw [parseRound_flag args.2 hcursor]
      rfl
    exact parse_fails args hline hround

/-- What parses is a line of occurrences, and the options are those they state. -/
theorem parse_ok {args : Args} (h : parse checks args = .ok o) :
    (∃ occs, args.1 = written Flag.text occs) ∧
      ∀ occs, args.1 = written Flag.text occs → Options.stated occs = some o := by
  constructor
  · rcases written_or_faulty Flag.text args.1 with hline | hfaulty
    · exact hline
    · obtain ⟨e, hfail⟩ := parse_faulty checks args hfaulty
      rw [hfail] at h
      cases h
  · intro occs hline
    rw [parse_written args hline] at h
    exact takeAll_stated h

theorem parse_numbers (checks : Bool) (args : Args) (hline : args.1 = written Flag.text occs)
    (hnumbers : ∀ x ∈ occs, x.flag = .threshold → (parseUsize x.value).isSome) :
    ∃ o, parse checks args = .ok o := by
  rw [parse_written args hline]
  rcases takeAll_cases .initial occs with hok | ⟨-, x, hx, hflag, hbad⟩
  · exact hok
  · have hnumber := hnumbers x hx hflag
    rw [hbad] at hnumber
    cases hnumber

theorem parse_returns (checks : Bool) (args : Args) : Returns (parse checks args) := by
  rcases written_or_faulty Flag.text args.1 with ⟨occs, hline⟩ | hfaulty
  · rw [parse_written args hline]
    rcases takeAll_cases .initial occs with ⟨o, hok⟩ | ⟨hfail, -⟩
    · rw [hok]
      exact returns_ok o
    · rw [hfail]
      exact returns_fail _
  · obtain ⟨e, hfail⟩ := parse_faulty checks args hfaulty
    rw [hfail]
    exact returns_fail e

/-- `&args[n..]`, which aborts beyond the end. -/
def argsFrom (args : Args) (n : Nat) : Outcome ε Args :=
  if n ≤ args.1.length then
    .ok ⟨args.1.drop n, Nat.lt_of_le_of_lt (List.length_drop ▸ Nat.sub_le _ _) args.2⟩
  else abort

/-- `run`, over what `declare` does with the options. -/
def run (checks : Bool) (declare : Options → Outcome String String) (args : Args) :
    Outcome String String := do
  let command := args.1.head?.getD ""
  let rest ← argsFrom args 1
  let options ← mapErr (fun e => if e.isEmpty then "" else e) (parse checks rest)
  match command with
  | "declare" => declare options
  | "" => fail ""
  | other => fail ("unknown command `" ++ other ++ "`")

theorem run_cons (checks : Bool) (declare : Options → Outcome String String) {args : Args}
    (h : args.1 = command :: rest) : ∃ tail : Args, tail.1 = rest ∧ run checks declare args =
      mapErr (fun e => if e.isEmpty then "" else e) (parse checks tail) >>= fun options =>
        match command with
        | "declare" => declare options
        | "" => fail ""
        | other => fail ("unknown command `" ++ other ++ "`") := by
  have hone : 1 ≤ args.1.length := by
    rw [h]
    exact Nat.le_add_left 1 _
  obtain ⟨line, hlen⟩ := args
  obtain rfl : line = command :: rest := h
  refine ⟨⟨rest, Nat.lt_of_succ_lt hlen⟩, rfl, ?_⟩
  rw [run, argsFrom, if_pos hone, ok_bind]
  rfl

/-- The arguments after the command are sliced before it is matched. -/
theorem run_empty (checks : Bool) (declare : Options → Outcome String String) {args : Args}
    (h : args.1 = []) : run checks declare args = abort := by
  have hno : ¬ 1 ≤ args.1.length := by
    rw [h]
    decide
  rw [run, argsFrom, if_neg hno]
  rfl

theorem returns_run_iff {declare : Options → Outcome String String}
    (hdeclare : ∀ o, Returns (declare o)) (args : Args) :
    Returns (run checks declare args) ↔ args.1 ≠ [] := by
  constructor
  · intro hreturns hempty
    exact hreturns (run_empty checks declare hempty)
  · intro hne
    obtain ⟨command, rest, h⟩ := List.exists_cons_of_ne_nil hne
    obtain ⟨tail, -, hrun⟩ := run_cons checks declare h
    rw [hrun]
    apply ((parse_returns checks tail).mapErr _).bind
    intro o _
    split
    · exact hdeclare o
    · exact returns_fail _
    · exact returns_fail _

theorem run_faulty (checks : Bool) (declare : Options → Outcome String String) (args : Args)
    (h : args.1 = command :: rest) (hfaulty : Faulty Flag.text rest) :
    ∃ e, run checks declare args = fail e := by
  obtain ⟨tail, htail, hrun⟩ := run_cons checks declare h
  rw [← htail] at hfaulty
  obtain ⟨e, hfail⟩ := parse_faulty checks tail hfaulty
  rw [hrun, hfail]
  exact ⟨_, rfl⟩

variable {V : Vocabulary} {S : Signatif V} {K : Confium V}

theorem returns_check (o : Options) : Returns o.check := by
  unfold Options.check
  split
  · exact returns_fail _
  split
  · exact returns_fail _
  split
  · exact returns_fail _
  split
  · exact returns_fail _
  split
  · exact returns_fail _
  · exact returns_okOr _ _

theorem returns_subject (o : Options) : Returns (o.subject S) := by
  unfold Options.subject
  split
  · exact (returns_revokedSubjectFromValue _).mapErr _
  · exact returns_fail _

theorem returns_revocation (o : Options) : Returns (o.revocation S) := by
  rw [Options.revocation]
  apply (returns_subject o).bind
  intro subject _
  apply ((returns_reasonFromValue _).mapErr _).bind
  intro reason _
  apply Returns.check
  intro _
  apply (((returns_tsParse o.declaredAt).mapErr _).mapErr _).bind
  intro declaredAt _
  apply ((returns_intervalFromValue _).mapErr _).bind
  intro window _
  apply ((returns_lift _).mapErr _).bind
  intro quorum _
  exact returns_ok _

theorem returns_nodeIds (flag : String) (ids : List String) : Returns (nodeIds S flag ids) :=
  returns_mapM ids fun _ _ => (returns_lift _).mapErr _

theorem returns_checkSigners (members signers : List V.NodeId) :
    Returns (checkSigners S members signers) := by
  induction signers with
  | nil => exact returns_ok _
  | cons signer signers ih =>
    rw [checkSigners]
    split
    · exact ih
    · exact returns_fail _

theorem returns_called (pre : String) (x : Except String α × σ) : Returns (called pre x) :=
  ((returns_lift _).mapErr _).bind fun _ _ => returns_ok _

theorem returns_turn (pre : String) (x : Except String α × σ)
    (submit : α × σ → Except String β × τ) (next : τ → Outcome String γ)
    (hnext : ∀ c, Returns (next c)) :
    Returns (called pre x >>= fun x => called pre (submit x) >>= fun y => next y.2) := by
  apply (returns_called pre x).bind
  intro given _
  apply (returns_called pre (submit given)).bind
  intro taken _
  exact hnext taken.2

theorem returns_roundOne (session : K.Session) (ceremony : K.Real) (signers : List V.NodeId) :
    Returns (roundOne S K session ceremony signers) := by
  induction signers generalizing ceremony with
  | nil => exact returns_ok _
  | cons signer signers ih => exact returns_turn _ _ _ _ ih

theorem returns_roundTwo (session : K.Session) (ceremony : K.Real) (signers : List V.NodeId) :
    Returns (roundTwo S K session ceremony signers) := by
  induction signers generalizing ceremony with
  | nil => exact returns_ok _
  | cons signer signers ih => exact returns_turn _ _ _ _ ih

theorem returns_ceremony (o : Options) (revocation : Revocation V) :
    Returns (o.ceremony S K revocation) := by
  apply (returns_nodeIds "--member" o.members).bind
  intro members _
  apply (returns_lift _).bind
  intro _ _
  apply (returns_called _ _).bind
  intro created _
  apply (returns_nodeIds "--signer" o.signers).bind
  intro signers _
  apply (returns_checkSigners members signers).bind
  intro _ _
  apply (returns_roundOne _ _ signers).bind
  intro committed _
  apply (returns_roundTwo _ _ signers).bind
  intro shared _
  apply ((returns_lift _).mapErr _).bind
  intro aggregated _
  apply ((returns_lift _).mapErr _).bind
  intro _ _
  apply ((returns_lift _).mapErr _).bind
  intro groupKey _
  apply ((returns_hexDecode _).mapErr _).bind
  intro raw _
  apply ((returns_lift _).mapErr _).bind
  intro groupPublic _
  exact returns_ok _

theorem returns_declare (H : Host) (o : Options) : Returns (declare S K H o).1 := by
  have hrun : Returns (o.run S K) := by
    apply (returns_check o).bind
    intro dir _
    apply (returns_revocation o).bind
    intro revocation _
    apply (returns_ceremony o revocation).bind
    intro completed _
    exact returns_ok _
  rw [declare]
  split
  · rename_i e he
    rw [he] at hrun
    intro ha
    cases ha
    exact hrun rfl
  · split
    · exact returns_fail _
    · exact returns_lift _

/-- Over a total `declare`, the program returns exactly if it is given arguments. The options that
parse are those of the occurrences on the line, of which each flag but `--member` and `--signer` has
its last value; and a line with an argument that is no flag, or with a flag that has no value, is
an error. -/
theorem command_line_total_iff (checks : Bool) (declare : Options → Outcome String String)
    (hdeclare : ∀ o, Returns (declare o)) :
    (∀ args : Args, Returns (run checks declare args) ↔ args.1 ≠ []) ∧
    (∀ (args : Args) (command : String) (rest : List String), args.1 = command :: rest →
      Faulty Flag.text rest → ∃ e, run checks declare args = fail e) ∧
    (∀ args : Args, Returns (parse checks args)) ∧
    (∀ (args : Args) (o : Options), parse checks args = .ok o →
      (∃ occs, args.1 = written Flag.text occs) ∧
        ∀ occs, args.1 = written Flag.text occs → Options.stated occs = some o) ∧
    (∀ (args : Args) (occs : List (Occurrence Flag String)), args.1 = written Flag.text occs →
      (∀ x ∈ occs, x.flag = .threshold → (parseUsize x.value).isSome) →
      ∃ o, parse checks args = .ok o) ∧
    (∀ args : Args, Faulty Flag.text args.1 → ∃ e, parse checks args = fail e) := by
  refine ⟨returns_run_iff hdeclare, fun args command rest => run_faulty checks declare args,
    parse_returns checks, fun args o => parse_ok, fun args occs => parse_numbers checks args,
    parse_faulty checks⟩

open Reference

def rehearsed (o : Options) : Outcome String String := (declare signatif rehearsal disk o).1

def misissuedLine : List (Occurrence Flag String) :=
  [⟨.reason, "--quorum"⟩, ⟨.quorum, "node-a"⟩, ⟨.threshold, "+2"⟩, ⟨.member, "a"⟩, ⟨.member, "b"⟩,
    ⟨.signer, "a"⟩, ⟨.member, "c"⟩, ⟨.signer, "b"⟩, ⟨.subjectKind, "node"⟩, ⟨.subjectId, "issuer"⟩,
    ⟨.outDir, "-h"⟩, ⟨.reason, "misissuance"⟩, ⟨.windowStart, "1970-01-02"⟩,
    ⟨.windowEnd, "1970-01-03"⟩, ⟨.declaredAt, "1970-01-04"⟩, ⟨.outDir, "out"⟩]

def misissuedArgs : Args := ⟨written Flag.text misissuedLine, by decide⟩

theorem command_line_total_misissued : parse true misissuedArgs = .ok misissued ∧
    Returns (run true rehearsed ⟨["declare", "--help"], by decide⟩) := by
  obtain ⟨htotal, -, -, hstated, hparses, -⟩ :=
    command_line_total_iff true rehearsed fun o => returns_declare disk o
  have hnumbers : ∀ x ∈ misissuedLine, x.flag = .threshold → (parseUsize x.value).isSome := by
    decide
  obtain ⟨o, hparse⟩ := hparses misissuedArgs misissuedLine rfl hnumbers
  have ho : Options.stated misissuedLine = some o := (hstated _ _ hparse).2 misissuedLine rfl
  have hmisissued : Options.stated misissuedLine = some misissued := by rfl
  rw [hmisissued] at ho
  cases ho
  exact ⟨hparse, (htotal _).2 (List.cons_ne_nil _ _)⟩

/-- Without arguments it aborts. -/
theorem command_line_aborts : run true rehearsed ⟨[], by decide⟩ = abort := rfl

end UnidppTrust.Ceremony
