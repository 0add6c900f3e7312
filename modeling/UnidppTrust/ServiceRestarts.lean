import UnidppTrust.Reading
import UnidppTrust.Confidential
import UnidppTrust.Distinct
import UnidppTrust.Url

namespace UnidppTrust
open Rust Json Api
set_option autoImplicit true

variable {V : Vocabulary} {A : App V} {seed : Bool}

/-- What happens to a service: a request arrives, or it is started anew on its journal. -/
inductive Happening where
  | arrival (x : Arrival)
  | restart (ticks : Nat → Tick)

def serveAll (A : App V) (seed : Bool) (s : Store V) :
    List Happening → Outcome IoError (List (Outcome Empty Response) × Store V)
  | [] => .ok ([], s)
  | .arrival x :: es => do
    let rest ← serveAll A seed (respond A x s).2 es
    .ok ((respond A x s).1 :: rest.1, rest.2)
  | .restart ticks :: es => do
    let s ← Store.open_ A.crates s.journal seed ticks
    serveAll A seed s es

/-- Instants that are posted, and the clock, are of the years 0000 to 9999, and every line of the
journal is written. -/
def Happening.Admissible (A : App V) : Happening → Prop
  | .arrival x => ∀ c, Posted A x c → c.1.Instants (InYears A.crates.signatif) ∧
      c.2.now.InYears ∧ c.2.written = true
  | .restart _ => True

def Happening.arrival? : Happening → Option Arrival
  | .arrival x => some x
  | .restart _ => none

theorem decoded_ok {decode : Value → Outcome Refusal α} (h : decoded A req decode = .ok a) :
    ∃ v, decode v = .ok a := by
  obtain ⟨u, -, h⟩ := bind_eq_ok h
  obtain ⟨v, -, h⟩ := bind_eq_ok h
  exact ⟨v, h⟩

theorem decoded_stated {decode : Value → Outcome String α}
    (h : decoded A req (fun v => stated (decode v)) = .ok a) : ∃ v, decode v = .ok a := by
  obtain ⟨v, h⟩ := decoded_ok h
  exact ⟨v, mapErr_eq_ok h⟩

theorem Posts.decodable (h : Posts A req route op) : op.Decodable A.crates.signatif := by
  cases h with
  | evidence => trivial
  | node h => exact decoded_stated h
  | edge h => exact decoded_stated h
  | list => trivial
  | listEntry h hv he => exact ⟨_, he⟩
  | entry h => exact decoded_stated h
  | witnesses h =>
    obtain ⟨v, h⟩ := decoded_ok h
    obtain ⟨m, -, h⟩ := bind_eq_ok h
    obtain ⟨ws, -, h⟩ := bind_eq_ok h
    obtain ⟨witnesses, hwitnesses, h⟩ := bind_eq_ok h
    cases h
    exact ⟨.arr ws, mapErr_eq_ok hwitnesses⟩
  | masterEntry h => exact decoded_stated h
  | revocation h => exact decoded_stated h
  | release => trivial

theorem respondAll_one (A : App V) (s : Store V) (x : Arrival) :
    (respondAll A s [x]).2 = (respond A x s).2 := rfl

section Reaching
variable {s : Store V}

theorem Reached.mutateAll {P : Event V → Prop} {calls : List (Op V × Tick)}
    (h : Reached A.crates seed P s) (ha : ∀ c ∈ calls, P (.call c.1 c.2)) :
    Reached A.crates seed P (s.mutateAll A.crates.signatif calls) := by
  induction calls generalizing s with
  | nil => exact h
  | cons c calls ih =>
    have hnext : Reached A.crates seed P (s.mutate A.crates.signatif c.2 c.1).2 :=
      h.stepped (ha c List.mem_cons_self) rfl
    exact ih hnext fun d hd => ha d (List.mem_cons_of_mem c hd)

/-- A store that the service reaches is one that typed calls reach. -/
theorem Reached.respond {x : Arrival} (h : Reached A.crates seed (Event.Ordinary A.crates) s)
    (hx : (Happening.arrival x).Admissible A) :
    Reached A.crates seed (Event.Ordinary A.crates) (respond A x s).2 := by
  obtain ⟨calls, hposted, hstore, -⟩ := respond_served A x s
  rw [hstore]
  refine h.mutateAll fun c hc => ?_
  obtain ⟨hinstants, hnow, hwritten⟩ := hx c (hposted c hc)
  obtain ⟨route, req, -, -, hposts, -⟩ := hposted c hc
  exact ⟨⟨hposts.decodable, hinstants, hnow⟩, hwritten⟩

end Reaching

/-- Restarts are invisible: the service answers as one that is never stopped, and has the same
store in the end. -/
theorem restarts_invisible (A : App V) (hC : A.crates.Lawful) (seed : Bool) (s : Store V)
    (hs : Reached A.crates seed (Event.Ordinary A.crates) s) (es : List Happening)
    (hes : ∀ e ∈ es, e.Admissible A) :
    serveAll A seed s es = .ok (respondAll A s (es.filterMap Happening.arrival?)) ∧
      Reached A.crates seed (Event.Ordinary A.crates)
        (respondAll A s (es.filterMap Happening.arrival?)).2 := by
  induction es generalizing s with
  | nil => exact ⟨rfl, hs⟩
  | cons e es ih =>
    have hrest : ∀ e ∈ es, e.Admissible A := fun x hx => hes x (List.mem_cons_of_mem e hx)
    cases e with
    | arrival x =>
      obtain ⟨hserve, hreached⟩ := ih _ (hs.respond (hes _ List.mem_cons_self)) hrest
      refine ⟨?_, hreached⟩
      rw [serveAll, hserve]
      rfl
    | restart ticks =>
      obtain ⟨hserve, hreached⟩ := ih s hs hrest
      refine ⟨?_, hreached⟩
      rw [serveAll, hs.reopen hC, ok_bind, hserve]
      rfl

def pageQuery (limit offset : Nat) : StringMap String :=
  Std.ExtTreeMap.ofList [("limit", toString limit), ("offset", toString offset)] compare

def ReadsPage (A : App V) (limit offset : Nat) (s : Store V) (records : List Value) : Prop :=
  ∃ req doc, req.query = pageQuery limit offset ∧ Reads A .adminLog req s doc ∧
    (doc.get "records").bind Value.asArray = some records

/-- A client reads the log in pages, each from where the one before ended, while requests arrive
in between, and ends at a page that is not full. -/
inductive Pages (A : App V) (limit : Nat) : Store V → Nat → List Value → Store V → Prop where
  | last (h : ReadsPage A limit offset s vs) (hshort : vs.length < min limit 10000) :
      Pages A limit s offset vs s
  | next (h : ReadsPage A limit offset s vs) (xs : List Arrival)
      (hrest : Pages A limit (respondAll A s xs).2 (offset + vs.length) ws s') :
      Pages A limit s offset (vs ++ ws) s'

theorem pageQuery_read (hl : limit < 2 ^ 64) (ho : offset < 2 ^ 64) :
    logLimit (pageQuery limit offset) = min limit 10000 ∧
      logOffset (pageQuery limit offset) = offset := by
  have hkeys : ([("limit", toString limit), ("offset", toString offset)].map Prod.fst).Nodup := by
    change ["limit", "offset"].Nodup
    decide
  have hlimit : (pageQuery limit offset)["limit"]? = some (toString limit) :=
    (getElem?_ofList hkeys).2 List.mem_cons_self
  have hoffset : (pageQuery limit offset)["offset"]? = some (toString offset) :=
    (getElem?_ofList hkeys).2 (List.mem_cons_of_mem _ List.mem_cons_self)
  rw [logLimit, logOffset, hlimit, hoffset, Option.bind_some, Option.bind_some,
    parseUsize_toString hl, parseUsize_toString ho]
  exact ⟨rfl, rfl⟩

theorem logJson_records (S : Signatif V) (log : List (AuditRecord V)) (limit offset : Nat) :
    (logJson S log limit offset).get "records" =
      some (.arr (((log.drop offset).take limit).map (AuditRecord.toJson S))) := by
  rw [logJson, get_object, lookup_fieldsOf]
  rfl

theorem Pages.grows {s s' : Store V} (h : Pages A limit s offset vs s') : s.log <+: s'.log := by
  induction h with
  | last => exact List.prefix_rfl
  | next h xs hrest ih => exact (respondAll_grows A _ xs).trans ih

section Paging
variable (hC : A.crates.Lawful) (hA : A.Legible)
include hC hA

theorem ReadsPage.window {s : Store V} (h : ReadsPage A limit offset s vs) (hl : limit < 2 ^ 64)
    (ho : offset < 2 ^ 64) :
    vs = ((s.log.drop offset).take (min limit 10000)).map
      (AuditRecord.toJson A.crates.signatif) := by
  obtain ⟨req, doc, hq, hreads, hvs⟩ := h
  obtain ⟨hlimit, hoffset⟩ := pageQuery_read hl ho
  obtain ⟨order, m, d, hd, rfl⟩ := hreads.doc hA rfl (fun _ _ => rfl)
    (fun _ m => states_adminLog req m.now s) fun _ m d hd => by
      obtain ⟨u, -, hd⟩ := bind_eq_ok hd
      cases hd
      exact canonical_logJson hC.signatif _ _ _
  obtain ⟨u, -, hd⟩ := bind_eq_ok hd
  cases hd
  rw [logJson_records, hq, hlimit, hoffset] at hvs
  exact (Option.some.inj hvs).symm

theorem readsPage (req : Request) (hq : req.query = pageQuery limit offset)
    (hallowed : requireAdmin A req = .ok ()) (hl : limit < 2 ^ 64) (ho : offset < 2 ^ 64)
    (s : Store V) :
    ReadsPage A limit offset s (((s.log.drop offset).take (min limit 10000)).map
      (AuditRecord.toJson A.crates.signatif)) := by
  obtain ⟨hlimit, hoffset⟩ := pageQuery_read hl ho
  have hpage : adminLog A req ⟨0⟩ s = .ok ⟨200,
      logJson A.crates.signatif s.log (min limit 10000) offset, ⟨0⟩, .current⟩ := by
    rw [adminLog, hallowed, ok_bind, hq, hlimit, hoffset]
  have hreads : Reads A .adminLog req s _ := reads_doc (x := fun _ m => adminLog A req m.now s) hA
    rfl (fun _ _ => rfl) .ascending ⟨⟨0⟩, fun _ => ⟨⟨0⟩, true⟩⟩ hpage rfl
    (canonical_logJson hC.signatif _ _ _)
  refine ⟨req, _, hq, hreads, ?_⟩
  rw [logJson_records]
  rfl

/-- What the client reads from an offset on is the rest of the log that is there in the end. -/
theorem Pages.rest {s s' : Store V} (h : Pages A limit s offset vs s') (hl : limit < 2 ^ 64)
    (hfits : s'.log.length < 2 ^ 64) (ho : offset ≤ s.log.length) :
    vs = (s'.log.drop offset).map (AuditRecord.toJson A.crates.signatif) := by
  induction h with
  | last h hshort =>
    have hwindow := h.window hC hA hl (by omega)
    rw [hwindow, List.length_map, List.length_take] at hshort
    rw [hwindow, List.take_of_length_le (by omega)]
  | @next offset s vs ws s' h xs hrest ih =>
    have hgrows := respondAll_grows A s xs
    have hle := hgrows.length_le
    have hfinal := hrest.grows.length_le
    have hwindow := h.window hC hA hl (by omega)
    have hn : vs.length = min (min limit 10000) (s.log.length - offset) := by
      rw [hwindow, List.length_map, List.length_take, List.length_drop]
    have hws := ih hfits (by omega)
    -- the page is a first part of what is there in the end
    obtain ⟨rest, hpage⟩ := (List.take_prefix (min limit 10000) (s.log.drop offset)).trans
      ((hgrows.trans hrest.grows).drop offset)
    have hskip : s'.log.drop (offset + vs.length) = rest := by
      rw [← List.drop_drop, ← hpage, hwindow, List.length_map, List.drop_left]
    rw [hws, hskip, ← hpage, List.map_append, ← hwindow]

end Paging

/-- A client that pages through the audit log reads each record once and in order, whatever
arrives between its requests. -/
theorem log_paged (A : App V) (hC : A.crates.Lawful) (hA : A.Legible) (limit : Nat)
    (hl : limit < 2 ^ 64) (s s' : Store V) (hfits : s'.log.length < 2 ^ 64)
    (records : List Value) (h : Pages A limit s 0 records s') :
    records = s'.log.map (AuditRecord.toJson A.crates.signatif) :=
  h.rest hC hA hl hfits (Nat.zero_le _)

/-- The audit log tells everything: what is paged of it decodes to records whose operations rebuild
the state, and two services of which the same is read are in one state, journal included. -/
theorem log_rebuilds (A : App V) (hC : A.crates.Lawful) (hA : A.Legible) (limit : Nat)
    (hl : limit < 2 ^ 64) (s s' : Store V)
    (hs : Reached A.crates seed (Event.Ordinary A.crates) s') (hfits : s'.log.length < 2 ^ 64)
    (records : List Value) (h : Pages A limit s 0 records s') :
    (∃ rs, records.mapM (AuditRecord.fromJson A.crates.signatif) = .ok rs ∧
      stateOf A.crates rs = s'.toState) ∧
    ∀ seed' limit' t t', limit' < 2 ^ 64 →
      Reached A.crates seed' (Event.Ordinary A.crates) t' → t'.log.length < 2 ^ 64 →
      Pages A limit' t 0 records t' → t' = s' := by
  have hdecode {seed : Bool} {limit : Nat} {s s' : Store V} (hl : limit < 2 ^ 64)
      (hs : Reached A.crates seed (Event.Ordinary A.crates) s')
      (hfits : s'.log.length < 2 ^ 64) (h : Pages A limit s 0 records s') :
      records.mapM (AuditRecord.fromJson A.crates.signatif) = .ok s'.log := by
    rw [h.rest hC hA hl hfits (Nat.zero_le _), List.drop_zero]
    refine mapM_map_ok _ fun r hr => ?_
    have hreadable := (hs.sound hC).2.1 r hr
    exact record_round_trip hC.signatif hreadable.op hreadable.recordedAt
  have hlog := hdecode hl hs hfits h
  refine ⟨⟨_, hlog, (hs.sound hC).1.state.symm⟩, ?_⟩
  intro seed' limit' t t' hl' ht hfits' h'
  have hsame : t'.log = s'.log := Except.ok.inj ((hdecode hl' ht hfits' h').symm.trans hlog)
  rw [(hs.sound hC).1, (ht.sound hC).1, hsame]

open Reference

theorem listArrival_admissible : (Happening.arrival listArrival).Admissible app := by
  intro c hc
  obtain ⟨route, req, hroute, hreq, hposts, i, hi⟩ := hc
  obtain ⟨hnow, hwritten⟩ := noon_inYears i
  cases hroute
  rw [hi]
  refine ⟨?_, hnow, hwritten⟩
  generalize c.1 = op at hposts ⊢
  cases hposts with
  | list h => trivial
  | listEntry h hv he =>
    rw [decoded_listArrival hreq] at h
    cases h
    cases hv

/-- The list is there after a restart: registering it again is refused as before. -/
theorem restarts_invisible_list :
    serveAll app false (storeOf crates [] []) [.arrival listArrival, .restart noon,
      .arrival listArrival] = .ok (respondAll app (storeOf crates [] [])
        [listArrival, listArrival]) := by
  refine (restarts_invisible app crates_lawful false (storeOf crates [] [])
    (.opened noon (ordinary_restart noon_inYears) rfl)
    [.arrival listArrival, .restart noon, .arrival listArrival]
    fun e he => ?_).1
  rcases List.mem_cons.1 he with rfl | he
  · exact listArrival_admissible
  · rcases List.mem_cons.1 he with rfl | he
    · trivial
    · rw [List.mem_singleton.1 he]
      exact listArrival_admissible

theorem listPages :
    ∃ record, (respondAll app (storeOf crates [] []) [listArrival]).2.log = [record] ∧
      Pages app 2 (storeOf crates [] []) 0 ([] ++ [AuditRecord.toJson signatif record])
        (respondAll app (storeOf crates [] []) [listArrival]).2 := by
  obtain ⟨r, hr, -⟩ := listArrival_created
  have hlog : (respondAll app (storeOf crates [] []) [listArrival]).2.log =
      [((storeOf crates [] []).record signatif (noon 0) (.registerTrustList "EU" none)).1] := by
    rw [respondAll, hr]
    rfl
  have hfirst : ReadsPage app 2 0 (storeOf crates [] []) [] :=
    readsPage crates_lawful app_legible ⟨pageQuery 2 0, ∅, ""⟩ rfl rfl (by decide) (by decide) _
  have hsecond := readsPage crates_lawful app_legible ⟨pageQuery 2 0, ∅, ""⟩ rfl rfl
    (by decide) (by decide) (respondAll app (storeOf crates [] []) [listArrival]).2
  rw [hlog] at hsecond
  exact ⟨_, hlog, .next hfirst [listArrival] (.last hsecond (by decide))⟩

theorem log_paged_list :
    ∃ record, (respondAll app (storeOf crates [] []) [listArrival]).2.log = [record] ∧
      Pages app 2 (storeOf crates [] []) 0 ([] ++ [AuditRecord.toJson signatif record])
        (respondAll app (storeOf crates [] []) [listArrival]).2 ∧
      [] ++ [AuditRecord.toJson signatif record] =
        (respondAll app (storeOf crates [] []) [listArrival]).2.log.map
          (AuditRecord.toJson signatif) := by
  obtain ⟨record, hlog, hpages⟩ := listPages
  refine ⟨record, hlog, hpages, ?_⟩
  exact log_paged app crates_lawful app_legible 2 (by decide) _ _
    (by rw [hlog, List.length_singleton]; decide) _ hpages

theorem log_rebuilds_list :
    ∃ record, (respondAll app (storeOf crates [] []) [listArrival]).2.log = [record] ∧
      ∃ rs, [AuditRecord.toJson signatif record].mapM (AuditRecord.fromJson signatif) = .ok rs ∧
        stateOf crates rs = (respondAll app (storeOf crates [] []) [listArrival]).2.toState := by
  obtain ⟨record, hlog, hpages⟩ := listPages
  have hopened : Reached crates false (Event.Ordinary crates) (storeOf crates [] []) :=
    .opened noon (ordinary_restart noon_inYears) rfl
  have hreached : Reached crates false (Event.Ordinary crates)
      (respondAll app (storeOf crates [] []) [listArrival]).2 := by
    rw [respondAll_one]
    exact Reached.respond (A := app) hopened listArrival_admissible
  exact ⟨record, hlog, (log_rebuilds app crates_lawful app_legible 2 (by decide) _ _ hreached
    (by rw [hlog, List.length_singleton]; decide) _ hpages).1⟩

end UnidppTrust
