import UnidppTrust.Http
import Mathlib.Data.List.Sort
import Mathlib.Data.List.Nodup
import Mathlib.Data.String.Basic

namespace Rust
set_option autoImplicit true

/-- The order in which hash maps are gone through, which is any. -/
structure HashOrder where
  entries : {β : Type} → Std.ExtTreeMap String β compare → List (String × β)
  perm : ∀ {β : Type} (m : Std.ExtTreeMap String β compare), (entries m).Perm m.toList

def HashOrder.ascending : HashOrder := ⟨fun m => m.toList, fun _ => .refl _⟩

def sortByKey (key : α → String) (l : List α) : List α :=
  l.insertionSort fun a b => key a ≤ key b

theorem sortByKey_perm (key : α → String) (l : List α) : (sortByKey key l).Perm l :=
  List.perm_insertionSort _ l

theorem sortByKey_pairwise (key : α → String) (l : List α) :
    (sortByKey key l).Pairwise fun a b => key a ≤ key b :=
  List.pairwise_insertionSort (fun a b => key a ≤ key b) l

/-- Under distinct keys the sorted list does not tell in what order the items came. -/
theorem sortByKey_congr {key : α → String} {l l' : List α} (h : l.Perm l')
    (hn : (l.map key).Nodup) : sortByKey key l = sortByKey key l' := by
  have hp : (sortByKey key l).Perm (sortByKey key l') :=
    (sortByKey_perm key l).trans (h.trans (sortByKey_perm key l').symm)
  refine hp.eq_of_pairwise ?_ (sortByKey_pairwise key l) (sortByKey_pairwise key l')
  intro a b ha hb hab hba
  have hmem : a ∈ l := (sortByKey_perm key l).mem_iff.1 ha
  have hmem' : b ∈ l := h.mem_iff.2 ((sortByKey_perm key l').mem_iff.1 hb)
  exact List.inj_on_of_nodup_map hn hmem hmem' (le_antisymm hab hba)

end Rust

namespace UnidppTrust
open Rust Json
set_option autoImplicit true

variable {V : Vocabulary} (S : Signatif V)

def Timestamp.toModel (t : Timestamp) : V.Time := S.timeFromSecs t.secs

def strOrNull (s : Option String) : Value := .ofOption (s.map .str)

def boolOrNull (b : Option Bool) : Value := .ofOption (b.map .bool)

def valuesOf (m : NodeMap V β) : List β := m.toList.map (·.2)

def textAt (key : String) (v : Value) : String := ((v.get key).bind Value.asStr).getD ""

def graphDoc (graph : V.TrustGraph) (asOf : Timestamp) : Value :=
  .object [("as_of", .str asOf.toString), ("node_count", .usize (S.graphNodeCount graph)),
    ("edge_count", .usize (S.graphEdgeCount graph)),
    ("nodes", .arr ((S.graphNodes graph).map (nodeToValue S))),
    ("edges", .arr ((S.graphEdges graph).map (edgeToValue S)))]

def entryFields (e : TrustListEntry V) : Fields :=
  [("node", .str (S.nodeIdStr e.node)), ("not_before", .str (S.timeStr e.notBefore)),
    ("superseded_at", strOrNull (e.supersededAt.map S.timeStr))]

def entryInForce (asOf : Timestamp) (e : TrustListEntry V) : Value :=
  .object (entryFields S e ++
    [("in_force_at_as_of", .bool (S.inForceAt e (asOf.toModel S)))])

def bundleWitness (w : V.NodeId × V.PublicKey) : Value :=
  .object (("node", .str (S.nodeIdStr w.1)) :: publicFields S w.2)

def bundleDoc (jur : String) (list : TrustList V) (master : MasterList V) (asOf : Timestamp) :
    Value :=
  let trustList := Value.object [("jurisdiction", .str list.jurisdiction),
    ("entries", .arr ((valuesOf list.entries).map fun e => .object (entryFields S e)))]
  let masterJson := Value.object [("m", .u64 master.m), ("k", .u64 master.k),
    ("witnesses", .arr (master.witnesses.toList.map (bundleWitness S))),
    ("entries", .arr ((valuesOf master.entries).map (masterEntryToValue S)))]
  .object [("as_of", .str asOf.toString), ("jurisdiction", .str jur),
    ("trust_lists", .arr [trustList]), ("master", masterJson)]

def listFields (list : TrustList V) (framework : Option String) (asOf : Timestamp) : Fields :=
  [("jurisdiction", .str list.jurisdiction), ("framework", strOrNull framework),
    ("entries", .arr ((valuesOf list.entries).map (entryInForce S asOf)))]

def State.frameworkOf (s : State V) (key : String) : Option String := s.frameworks[key]?.join

def listDoc (list : TrustList V) (framework : Option String) (asOf : Timestamp) : Value :=
  .object (("as_of", .str asOf.toString) :: listFields S list framework asOf)

structure ListFilter where
  framework : Option String
  jurisdiction : Option String

def listFilter (query : StringMap String) : ListFilter where
  framework := optQuery query "framework"
  jurisdiction := (optQuery query "jurisdiction").map toAsciiUppercase

def ListFilter.admits (f : ListFilter) (key : String) (framework : Option String) : Bool :=
  f.jurisdiction.all (key = ·) && f.framework.all fun x => framework = some x

/-- The lists that pass the filter, as the loop collects and then sorts them. -/
def listViews (order : HashOrder) (f : ListFilter) (s : State V) (asOf : Timestamp) :
    List Value :=
  sortByKey (textAt "jurisdiction")
    (((order.entries s.trustLists).filter fun l => f.admits l.1 (s.frameworkOf l.1)).map
      fun l => .object (listFields S l.2 (s.frameworkOf l.1) asOf))

def listsDoc (order : HashOrder) (f : ListFilter) (s : State V) (asOf : Timestamp) : Value :=
  let out := listViews S order f s asOf
  .object [("as_of", .str asOf.toString), ("count", .usize out.length),
    ("trust_lists", .arr out)]

def attestationView (a : WitnessAttestation V) (verified : Bool) : Value :=
  .object [("witness", .str (S.nodeIdStr a.witness)), ("at", .str (S.timeStr a.at_)),
    ("slot", slotToValue S a.slot), ("verified", .bool verified)]

def masterEntryView (master : MasterList V) (e : MasterListEntry V) : Value :=
  let verified := attestationsVerified S e master.witnesses
  .object [("node", .str (S.nodeIdStr e.node)),
    ("attestations", .arr (List.zipWith (attestationView S) e.attestations verified)),
    ("verified_witnesses", .usize (verified.count true)),
    ("quorate", .bool (masterEntryQuorate S e master.witnesses master.m)),
    ("threshold_required", .u64 master.m)]

def masterDoc (master : MasterList V) (asOf : Timestamp) : Value :=
  .object [("as_of", .str asOf.toString),
    ("m_of_k", .object [("m", .u64 master.m), ("k", .u64 master.k)]),
    ("witnesses", witnessesToValue S master),
    ("entries", .arr ((valuesOf master.entries).map (masterEntryView S master)))]

structure RevocationQuery where
  knownBy : Option Timestamp
  subject : Option String
  retroactive : Option Bool
  window : Option (Timestamp × Option Timestamp)

def parseInstant (label s : String) : Outcome Refusal Timestamp :=
  stated (mapErr (fun e => label ++ ": " ++ e.toString) (Timestamp.parse s))

def parseKnownBy (query : StringMap String) : Outcome Refusal (Option Timestamp) :=
  match optQuery query "known_by" with
  | none => .ok none
  | some s => (parseInstant "`known_by`" s).map some

def parseRetroactive (query : StringMap String) : Outcome Refusal (Option Bool) :=
  match (optQuery query "retroactive").map toAsciiLowercase with
  | none => .ok none
  | some s =>
    if s ∈ ["true", "1", "yes"] then .ok (some true)
    else if s ∈ ["false", "0", "no"] then .ok (some false)
    else fail (badRequest ("`retroactive` must be true/false: `" ++ s ++ "`"))

/-- `START..END` or `START,END`, where the end may be empty. -/
def parseWindowFilter (query : StringMap String) :
    Outcome Refusal (Option (Timestamp × Option Timestamp)) :=
  match optQuery query "window" with
  | none => .ok none
  | some raw =>
    match (splitOnce raw "..").or (splitOnce raw ",") with
    | none =>
      fail (badRequest ("`window` must be `START..END` or `START,END`: `" ++ raw ++ "`"))
    | some (a, b) => do
      let start ← parseInstant "window start" (trim a)
      if (trim b).isEmpty then .ok (some (start, none))
      else do
        let stop ← parseInstant "window end" (trim b)
        .ok (some (start, some stop))

def revocationQuery (query : StringMap String) : Outcome Refusal RevocationQuery := do
  let knownBy ← parseKnownBy query
  let retroactive ← parseRetroactive query
  let window ← parseWindowFilter query
  .ok ⟨knownBy, optQuery query "subject", retroactive, window⟩

/-- Whether an end of the filter lies in a window; an open window ends where it starts, and an
open filter meets the open windows. -/
def meetsWindow (i : Interval V) (start : Timestamp) (stop : Option Timestamp) : Bool :=
  let windowEnd := i.to_.getD i.from_
  let inside (t : V.Time) : Bool := i.from_ ≤ t && t ≤ windowEnd
  inside (start.toModel S) ||
    match stop with
    | some t => inside (t.toModel S)
    | none => i.to_.isNone

def RevocationQuery.admits (q : RevocationQuery) (r : Revocation V) : Bool :=
  (q.retroactive.all (S.isRetroactive r.reason == ·)) &&
    (q.subject.all fun s => S.subjectLabel r.subject = s || startsWith (S.subjectLabel r.subject) s)
    && q.window.all fun w => meetsWindow S r.window w.1 w.2

/-- The live verdict on a declaration; only retroactive ones are judged. -/
def revocationVerdict (graph : V.TrustGraph) (r : Revocation V) : Option QuorumVerdict :=
  if S.isRetroactive r.reason then r.quorum.map fun q => verdict S graph q (S.statementBytes r)
  else none

def quorumView (v : Option QuorumVerdict) (q : QuorumAttestation V) : Value :=
  .object [("quorum", .str (S.nodeIdStr q.quorum)), ("threshold", .u64 q.threshold),
    ("form", strOrNull (v.map fun v => v.form.token)),
    ("verified_count", .ofOption (v.map fun v => .usize v.memberVerified)),
    ("group_verified", boolOrNull (v.map (·.groupVerified))),
    ("quorate", .bool ((v.map (·.quorate)).getD false)),
    ("signatures", slotsToValue S q.signatures)]

def standing (voids retroactive : Bool) : String :=
  if !voids then "valid" else if retroactive then "void-ab-initio" else "suspended-from"

def ruleText (retroactive : Bool) : String :=
  if retroactive then
    "retroactive: artifacts dated inside the window are void ab initio; outside re-validated"
  else "prospective: acts dated before the window/open-end stand; from the effect moment " ++
    "onward, suspended"

def revocationView (graph : V.TrustGraph) (knownBy : Option Timestamp) (asOf : Timestamp)
    (seq : Nat) (r : Revocation V) : Value :=
  let retroactive := S.isRetroactive r.reason
  let known := knownBy.all fun cutoff => r.declaredAt ≤ cutoff.toModel S
  let voids := known && S.voids r (asOf.toModel S)
  .object [("seq", .usize seq), ("subject", revokedSubjectToValue S r.subject),
    ("reason", reasonToValue S r.reason), ("declared_at", .str (S.timeStr r.declaredAt)),
    ("declared_by", .str (S.nodeIdStr r.declaredBy)), ("window", intervalToValue S r.window),
    ("quorum", .ofOption (r.quorum.map (quorumView S (revocationVerdict S graph r)))),
    ("known_at_cutoff", .bool known), ("voids_at_as_of", .bool voids),
    ("standing_at_as_of", .str (standing voids retroactive)),
    ("verifications_at_stand", .bool !voids), ("rule", .str (ruleText retroactive))]

/-- The declarations that pass the filters, each with its position in the ledger. -/
def revocationViews (q : RevocationQuery) (s : State V) (asOf : Timestamp) : List Value :=
  (((S.ledgerRevocations s.ledger).zipIdx 1).filter fun r => q.admits S r.1).map
    fun r => revocationView S s.graph q.knownBy asOf r.2 r.1

def semanticsDoc : Value :=
  .object [("prospective_reasons", .arr (["key-compromise", "cessation", "supersession",
      "affiliation-change"].map .str)),
    ("retroactive_reasons",
      .arr (["misissuance", "fraudulent-issuance", "authority-compromised"].map .str)),
    ("rule", .str ("Prospective reasons keep prior as-of verifications valid. Retroactive " ++
      "reasons (misissuance/fraud) void ab initio within the explicit window and re-validate " ++
      "outside it."))]

def windowView (w : Timestamp × Option Timestamp) : Value :=
  .object [("start", .str w.1.toString), ("end", strOrNull (w.2.map Timestamp.toString))]

def revocationsDoc (at_ : Option Timestamp) (q : RevocationQuery) (s : State V)
    (asOf : Timestamp) : Value :=
  let out := revocationViews S q s asOf
  let knownBy := strOrNull (q.knownBy.map Timestamp.toString)
  .object [("as_of", .str asOf.toString), ("known_by", knownBy),
    ("query", .object [("at", strOrNull (at_.map Timestamp.toString)), ("known_by", knownBy),
      ("subject", strOrNull q.subject), ("retroactive", boolOrNull q.retroactive),
      ("window", .ofOption (q.window.map windowView))]),
    ("semantics", semanticsDoc), ("count", .usize out.length), ("revocations", .arr out)]

def operatorKey (k : RegisteredKey V) : Value :=
  .object [("key_id", .str (S.keyIdStr k.keyId)),
    ("suite", .str (S.suiteStr (S.publicSuite k.publicKey)))]

def membership (jur : String) (asOf : Timestamp) (e : TrustListEntry V) : Value :=
  .object [("jurisdiction", .str jur), ("not_before", .str (stampStr S e.notBefore)),
    ("superseded_at", strOrNull (e.supersededAt.map (stampStr S))),
    ("in_force_at_as_of", .bool (S.inForceAt e (asOf.toModel S)))]

def memberships (lists : List (String × TrustList V)) (node : V.NodeId) (asOf : Timestamp) :
    List Value :=
  lists.flatMap fun l =>
    ((valuesOf l.2.entries).filter (·.node = node)).map (membership S l.1 asOf)

def masterStanding (e : MasterListEntry V) : Value :=
  .object [("attested_by", .usize e.attestations.length),
    ("witnesses", .arr (e.attestations.map fun a => .str (S.nodeIdStr a.witness)))]

def namesNode (node : V.NodeId) (r : Revocation V) : Bool :=
  match r.subject with
  | .node n => n = node
  | _ => false

def operatorDoc (order : HashOrder) (s : State V) (dn : DelegationNode V) (node : V.NodeId)
    (asOf : Timestamp) : Value :=
  let edges := S.graphEdges s.graph
  .object [("operator", .str (S.nodeIdStr node)), ("kind", .str (S.kindDebug dn.kind)),
    ("keys", .arr (dn.keys.map (operatorKey S))),
    ("delegated_by", .arr ((edges.filter (·.child = node)).map (edgeToValue S))),
    ("delegates", .arr ((edges.filter fun e => e.child ≠ node ∧ e.parent = node).map
      (edgeToValue S))),
    ("trust_list_memberships", .arr (sortByKey (textAt "jurisdiction")
      (memberships S (order.entries s.trustLists) node asOf))),
    ("master_list", .ofOption (s.master.entries[node]?.map (masterStanding S))),
    ("revocations", .arr (((S.ledgerRevocations s.ledger).filter (namesNode node)).map
      (revocationToValue S))),
    ("as_of", .str asOf.toString)]

def evidenceListJson (order : HashOrder) (evidence : StringMap Evidence) : Value :=
  let items := sortByKey Evidence.id ((order.entries evidence).map (·.2))
  .object [("count", .usize items.length), ("items", .arr (items.map Evidence.metaJson))]

def logJson (log : List (AuditRecord V)) (limit offset : Nat) : Value :=
  .object [("total", .usize log.length), ("offset", .usize offset),
    ("records", .arr (((log.drop offset).take limit).map (AuditRecord.toJson S)))]

end UnidppTrust
