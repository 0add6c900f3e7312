import UnidppTrust.Declarations
import UnidppTrust.Mirroring
import UnidppTrust.Witnesses

namespace UnidppTrust
open Rust Json Api
set_option autoImplicit true

variable {V : Vocabulary} {S : Signatif V} {A : App V} {C : Crates V}

/-- A new master list has no entries, and an upsert concerns the entry of one node, which it puts in
where there is none. -/
structure Signatif.MasterEntries (S : Signatif V) : Prop where
  new : ∀ m ws, (S.masterNew m ws).entries = ∅
  absent : ∀ l e, l.entries[e.node]? = none →
    (S.masterUpsert l e).entries = l.entries.insert e.node e
  upserted : ∀ l e n x, (S.masterUpsert l e).entries[n]? = some x → l.entries[n]? = some x ∨
    (n = e.node ∧ x.node = n ∧ ∀ a ∈ x.attestations,
      a ∈ e.attestations ∨ ∃ y, l.entries[n]? = some y ∧ a ∈ y.attestations)

/-- What is shown of a master list can be posted. -/
structure MasterList.Publishable (S : Signatif V) (l : MasterList V) : Prop where
  k : l.k = UInt64.ofNat l.witnesses.size
  entry : ∀ (n : V.NodeId) (e : MasterListEntry V), l.entries[n]? = some e → e.node = n
  attested : ∀ (n : V.NodeId) (e : MasterListEntry V), l.entries[n]? = some e →
    ∀ a ∈ e.attestations, OnClock S a.at_ ∧ a.slot.Framed S

theorem publishable_masterNew (hM : S.Masters) (hE : S.MasterEntries) (m : UInt64)
    (ws : NodeMap V V.PublicKey) : (S.masterNew m ws).Publishable S := by
  have hnone (n : V.NodeId) : (S.masterNew m ws).entries[n]? = none := by
    rw [hE.new, Std.ExtTreeMap.getElem?_empty]
  refine ⟨?_, fun n e he => ?_, fun n e he => ?_⟩
  · rw [hM.k, hM.witnesses]
  · rw [hnone] at he
    cases he
  · rw [hnone] at he
    cases he

theorem applyOp_publishableMaster (hM : S.Masters) (hE : S.MasterEntries) {s : State V} {op : Op V}
    (h : s.master.Publishable S) (hop : op.WellFormed S) :
    (applyOp S s op).2.master.Publishable S := by
  cases op with
  | setWitnesses m ws =>
    simp only [applyOp]
    split
    · exact h
    split
    · exact h
    split
    · exact h
    · exact ⟨(publishable_masterNew hM hE m _).k, h.entry, h.attested⟩
  | upsertMasterEntry e =>
    simp only [applyOp]
    split
    · exact h
    · obtain ⟨-, hk, hwitnesses⟩ := hM.upsert s.master e
      refine ⟨?_, fun n x hx => ?_, fun n x hx a ha => ?_⟩
      · rw [hk, hwitnesses]
        exact h.k
      · rcases hE.upserted _ _ n x hx with hold | ⟨-, hnode, -⟩
        · exact h.entry n x hold
        · exact hnode
      · rcases hE.upserted _ _ n x hx with hold | ⟨-, -, hattestations⟩
        · exact h.attested n x hold a ha
        · rcases hattestations a ha with hnew | ⟨y, hy, hold⟩
          · exact hop a hnew
          · exact h.attested n y hy a hold
  | _ =>
    exact (congrArg (MasterList.Publishable S)
      ((applyOp_sameBut S s _).master fun h => by cases h)).mpr h

theorem stateOf_publishableMaster (hM : C.signatif.Masters) (hE : C.signatif.MasterEntries)
    {log : List (AuditRecord V)} (h : ∀ r ∈ log, r.op.WellFormed C.signatif) :
    (stateOf C log).master.Publishable C.signatif := by
  induction log using List.reverseRecOn with
  | nil => exact publishable_masterNew hM hE 1 ∅
  | append_singleton log r ih =>
    rw [stateOf_concat]
    exact applyOp_publishableMaster hM hE (ih fun x hx => h x (List.mem_append_left [r] hx))
      (h r (List.mem_append_right log List.mem_cons_self))

theorem Reached.publishableMaster (hC : C.Lawful) (hM : C.signatif.Masters)
    (hE : C.signatif.MasterEntries) {s : Store V} (h : Reached C seed (Event.Ordinary C) s) :
    s.master.Publishable C.signatif := by
  obtain ⟨hsound, hreadable, -⟩ := h.sound hC
  rw [hsound.state]
  exact stateOf_publishableMaster hM hE fun r hr => (hreadable r hr).op

def shownMaster (S : Signatif V) (l : MasterList V) : Value :=
  .object [("m", .u64 l.m), ("k", .u64 l.k),
    ("witnesses", .arr (l.witnesses.toList.map (bundleWitness S))),
    ("entries", .arr ((valuesOf l.entries).map (masterEntryToValue S)))]

theorem bundleDoc_master (jur : String) (list : TrustList V) (l : MasterList V)
    (asOf : Timestamp) : (bundleDoc S jur list l asOf).get "master" = some (shownMaster S l) := by
  rw [bundleDoc, get_object, lookup_fieldsOf]
  rfl

theorem witnessFromValue_shown (hS : S.Lawful P) (w : V.NodeId × V.PublicKey) :
    witnessFromValue S (bundleWitness S w) = .ok w := by
  have hp := publicFromValue_fields hS w.2 (("node", .str (S.nodeIdStr w.1)) :: publicFields S w.2)
    (by simp [publicFields, lookup_cons_ite]) (by simp [publicFields, lookup_cons_ite])
  simp only [witnessFromValue, bundleWitness, objectOf_object, ok_bind, hp]
  simp [publicFields, lookup_cons_ite, hS.nodeId]

/-- What is shown of a master list is decoded to the request for its witnesses. -/
theorem decodeWitnesses_shown (hS : A.crates.signatif.Lawful P) (l : MasterList V) :
    decodeWitnesses A (shownMaster A.crates.signatif l) = .ok ⟨l.m, l.witnesses.toList⟩ := by
  have hws : (l.witnesses.toList.map (bundleWitness A.crates.signatif)).mapM
      (witnessFromValue A.crates.signatif) = .ok l.witnesses.toList :=
    mapM_map_ok _ fun w _ => witnessFromValue_shown hS w
  simp [decodeWitnesses, shownMaster, lookup_cons_ite, witnessesFromValue, hws]

theorem handled_created {req : Request} {now : Timestamp} {s : Store V}
    {decode : Value → Outcome Refusal α}
    {call : α → Store V → Outcome Refusal (AuditRecord V) × Store V}
    {doc : α → AuditRecord V → Store V → Value} (hdecoded : decoded A req decode = .ok a)
    (hstates : States (call a s).1) :
    (Created (answer A now (handle A req now s decode call doc).1) ↔ ∃ r, (call a s).1 = .ok r) ∧
      (handle A req now s decode call doc).2 = (call a s).2 := by
  rw [handle_followed, hdecoded, followed_ok]
  cases hcall : call a s with
  | mk x s' =>
    cases x with
    | ok r => exact ⟨iff_of_true ⟨_, rfl, rfl⟩ ⟨r, rfl⟩, rfl⟩
    | error e =>
      rw [hcall] at hstates
      obtain ⟨f, rfl, hf⟩ := hstates e rfl
      refine ⟨iff_of_false ?_ ?_, rfl⟩
      · rintro ⟨r, hr, hstatus⟩
        have hrefused : f.status = r.status := congrArg Response.status (Except.ok.inj hr)
        rw [hrefused, hstatus] at hf
        exact absurd hf (by decide)
      · rintro ⟨r, hr⟩
        cases hr

theorem calling_returns {refuse : StoreError → Refusal}
    {x : Except StoreError (AuditRecord V) × Store V} :
    (∃ r, (calling refuse x).1 = .ok r) ↔ ∃ r, x.1 = .ok r := by
  obtain ⟨y, s⟩ := x
  cases y with
  | ok r => exact iff_of_true ⟨r, rfl⟩ ⟨r, rfl⟩
  | error e =>
    refine iff_of_false ?_ ?_
    · rintro ⟨r, hr⟩
      cases hr
    · rintro ⟨r, hr⟩
      cases hr

theorem satisfiable_iff {l : MasterList V} (hk : l.k = UInt64.ofNat l.witnesses.size) :
    l.Satisfiable ↔ ¬ (l.m = 0 ∨ l.witnesses.toList.isEmpty ∨
      l.m.toNat > l.witnesses.toList.length) := by
  have hpositive : 1 ≤ l.m.toNat ↔ l.m ≠ 0 := by
    rw [Nat.one_le_iff_ne_zero, Ne, Ne, ← UInt64.toNat_zero, UInt64.toNat_inj]
  rw [Std.ExtTreeMap.length_toList, List.isEmpty_iff_length_eq_zero,
    Std.ExtTreeMap.length_toList]
  constructor
  · rintro ⟨hpos, hreached, -⟩ (hm | hempty | hlt)
    · exact hpositive.1 hpos hm
    · omega
    · omega
  · intro h
    obtain ⟨hm, -, hle⟩ : l.m ≠ 0 ∧ l.witnesses.size ≠ 0 ∧ l.m.toNat ≤ l.witnesses.size := by
      simpa only [not_or, not_lt] using h
    exact ⟨hpositive.2 hm, hle, hk⟩

theorem ofList_toList (m : NodeMap V β) : Std.ExtTreeMap.ofList m.toList compare = m := by
  apply Std.ExtTreeMap.ext_getElem?
  intro n
  apply Option.ext
  intro v
  have hnodup : (m.toList.map Prod.fst).Nodup := by
    rw [Std.ExtTreeMap.map_fst_toList_eq_keys]
    exact Std.ExtTreeMap.nodup_keys
  rw [getElem?_ofList hnodup, Std.ExtTreeMap.mem_toList_iff_getElem?_eq_some]

def MasterList.rewitnessed (S : Signatif V) (l l' : MasterList V) : MasterList V :=
  { S.masterNew l'.m l'.witnesses with entries := l.entries }

theorem witnesses_created (hS : A.crates.signatif.Lawful P) {l : MasterList V}
    (hk : l.k = UInt64.ofNat l.witnesses.size) {x : Arrival}
    (h : Posting A .masterListWitnesses text x)
    (hread : A.crates.json.fromStr text = .ok (shownMaster A.crates.signatif l)) (s : Store V) :
    (Created (respond A x s).1 ↔ l.Satisfiable) ∧
    (l.Satisfiable → (respond A x s).2.toState =
      { s.toState with master := s.master.rewitnessed A.crates.signatif l }) := by
  obtain ⟨req, hreq, hdecoded⟩ := h.decoded (decodeWitnesses A) hread (decodeWitnesses_shown hS l)
  obtain ⟨hmethod, hpath, -⟩ := h
  have hroute : router x.method x.path = some .masterListWitnesses := by
    rw [hmethod, hpath]
    rfl
  rw [respond_routed hroute hreq (by rw [hmethod]; decide), serve, Api.setWitnesses, Prod.map]
  have hstates : States (calling storeError (s.setWitnesses A.crates.signatif (x.moment.records 0)
      l.m l.witnesses.toList)).1 := states_calling storeError_status _
  have hcall : l.Satisfiable → s.setWitnesses A.crates.signatif (x.moment.records 0) l.m
      l.witnesses.toList = s.recorded A.crates.signatif (x.moment.records 0)
        (.setWitnesses l.m l.witnesses.toList) := fun hl => by
    rw [Store.setWitnesses, if_neg ((satisfiable_iff hk).1 hl)]
  constructor
  · refine ((handled_created hdecoded hstates).1.trans calling_returns).trans ⟨fun h => ?_,
      fun hl => ?_⟩
    · obtain ⟨r, hr⟩ := h
      by_contra hl
      rw [Store.setWitnesses, if_pos (by_contra fun hc => hl ((satisfiable_iff hk).2 hc))] at hr
      cases hr
    · dsimp only
      rw [hcall hl]
      exact ⟨_, rfl⟩
  · intro hl
    refine (congrArg Store.toState (handled_created hdecoded hstates).2).trans ?_
    obtain ⟨hm, hempty, hlt⟩ := by simpa only [not_or] using (satisfiable_iff hk).1 hl
    dsimp only
    rw [hcall hl]
    simp only [calling, Store.recorded, Store.record, applyOp, if_neg hm, if_neg hempty,
      if_neg hlt, ofList_toList, MasterList.rewitnessed]

def MasterListEntry.Known (e : MasterListEntry V) (ws : NodeMap V V.PublicKey) : Prop :=
  ∀ a ∈ e.attestations, a.witness ∈ ws

theorem checkWitnesses_cases (l : MasterList V) (e : MasterListEntry V) :
    (e.Known l.witnesses ∧ checkWitnesses S l e = .ok ()) ∨
      (¬ e.Known l.witnesses ∧ ∃ f, checkWitnesses S l e = .error f) := by
  rw [checkWitnesses]
  cases hfind : e.attestations.find? fun a => !l.witnesses.contains a.witness with
  | none =>
    refine .inl ⟨fun a ha => ?_, rfl⟩
    have hknown := List.find?_eq_none.1 hfind a ha
    rwa [Bool.not_eq_true, Bool.not_eq_false', Std.ExtTreeMap.contains_iff_mem] at hknown
  | some a =>
    refine .inr ⟨fun h => ?_, _, rfl⟩
    have hunknown := List.find?_some hfind
    rw [Bool.not_eq_true', ← Bool.not_eq_true, Std.ExtTreeMap.contains_iff_mem] at hunknown
    exact hunknown (h a (List.mem_of_find?_eq_some hfind))

theorem entry_created (hS : A.crates.signatif.Lawful P) {e : MasterListEntry V}
    (he : ∀ a ∈ e.attestations, OnClock A.crates.signatif a.at_ ∧ a.slot.Framed A.crates.signatif)
    {x : Arrival} (h : Posting A .masterListEntries text x)
    (hread : A.crates.json.fromStr text = .ok (masterEntryToValue A.crates.signatif e))
    (s : Store V) :
    (Created (respond A x s).1 ↔ e.Known s.master.witnesses) ∧
    (e.Known s.master.witnesses → (respond A x s).2.toState =
      { s.toState with master := A.crates.signatif.masterUpsert s.master e }) := by
  obtain ⟨req, hreq, hdecoded⟩ := h.decoded (fun v =>
    stated (masterEntryFromValue A.crates.signatif v)) hread (by
      rw [masterEntry_round_trip hS he]
      rfl)
  obtain ⟨hmethod, hpath, -⟩ := h
  have hroute : router x.method x.path = some .masterListEntries := by
    rw [hmethod, hpath]
    rfl
  rw [respond_routed hroute hreq (by rw [hmethod]; decide), serve, Api.upsertMasterEntry, Prod.map]
  have hstates : States (calling storeError (s.upsertMasterEntry A.crates.signatif
      (x.moment.records 0) e)).1 := states_calling storeError_status _
  constructor
  · refine ((handled_created hdecoded hstates).1.trans calling_returns).trans ?_
    rw [Store.upsertMasterEntry]
    rcases checkWitnesses_cases (S := A.crates.signatif) s.master e with
      ⟨hknown, hcheck⟩ | ⟨hunknown, f, hcheck⟩
    · rw [hcheck]
      exact iff_of_true ⟨_, rfl⟩ hknown
    · rw [hcheck]
      refine iff_of_false ?_ hunknown
      rintro ⟨r, hr⟩
      cases hr
  · intro hknown
    have hcheck := (checkWitnesses_cases (S := A.crates.signatif) s.master e).resolve_right
      fun h => h.1 hknown
    refine (congrArg Store.toState (handled_created hdecoded hstates).2).trans ?_
    simp only [calling, Store.upsertMasterEntry, hcheck.2, Store.recorded, Store.record, applyOp]

theorem entries_created (hS : A.crates.signatif.Lawful P) (hM : A.crates.signatif.Masters)
    {es : List (MasterListEntry V)} (hes : ∀ e ∈ es, ∀ a ∈ e.attestations,
      OnClock A.crates.signatif a.at_ ∧ a.slot.Framed A.crates.signatif) {ys : List Arrival}
    (hys : List.Forall₂ (fun e y => ∃ text, Posting A .masterListEntries text y ∧
      A.crates.json.fromStr text = .ok (masterEntryToValue A.crates.signatif e)) es ys)
    (t : Store V) :
    ((∀ x ∈ (respondAll A t ys).1, Created x) ↔ ∀ e ∈ es, e.Known t.master.witnesses) ∧
    ((∀ e ∈ es, e.Known t.master.witnesses) → (respondAll A t ys).2.toState =
      { t.toState with master := es.foldl A.crates.signatif.masterUpsert t.master }) := by
  induction hys generalizing t with
  | nil => exact ⟨iff_of_true (List.forall_mem_nil _) (List.forall_mem_nil _), fun _ => rfl⟩
  | @cons e y es ys hy hys ih =>
    obtain ⟨text, hposting, hread⟩ := hy
    obtain ⟨hcreated, hstate⟩ := entry_created hS (hes e List.mem_cons_self) hposting hread t
    obtain ⟨hrest, hstates⟩ := ih (fun x hx => hes x (List.mem_cons_of_mem e hx)) (respond A y t).2
    have hwitnesses (hknown : e.Known t.master.witnesses) :
        (respond A y t).2.master.witnesses = t.master.witnesses := by
      rw [hstate hknown]
      exact (hM.upsert t.master e).2.2
    rw [respondAll, List.forall_mem_cons, List.forall_mem_cons, hcreated]
    refine ⟨and_congr_right fun hknown => ?_, fun hknown => ?_⟩
    · rw [hrest, hwitnesses hknown]
    · obtain ⟨hfirst, hlater⟩ := hknown
      dsimp only
      rw [hstates (by rwa [hwitnesses hfirst]), hstate hfirst]
      rfl

theorem canonical_shownMaster (l : MasterList V) : (shownMaster S l).Canonical P (n + 6) := by
  have hwitnesses : ∀ v ∈ l.witnesses.toList.map (bundleWitness S), v.Canonical P (n + 4) := by
    intro v hv
    obtain ⟨w, -, rfl⟩ := List.mem_map.1 hv
    exact canonical_fields (by simp [publicFields])
  have hentries : ∀ v ∈ (valuesOf l.entries).map (masterEntryToValue S),
      v.Canonical P (n + 4) := by
    intro v hv
    obtain ⟨e, -, rfl⟩ := List.mem_map.1 hv
    exact canonical_masterEntry e
  exact canonical_fields ⟨trivial, trivial, canonical_arr.2 hwitnesses, canonical_arr.2 hentries⟩

theorem canonical_bundleDoc (jur : String) (list : TrustList V) (l : MasterList V)
    (asOf : Timestamp) : (bundleDoc S jur list l asOf).Canonical P 127 := by
  have hlist : ∀ v ∈ (valuesOf list.entries).map fun e => Value.object (entryFields S e),
      v.Canonical P 123 := by
    intro v hv
    obtain ⟨e, -, rfl⟩ := List.mem_map.1 hv
    exact canonical_fields ⟨trivial, trivial, canonical_option fun _ _ => trivial⟩
  refine canonical_fields ⟨trivial, trivial, canonical_arr.2 fun v hv => ?_,
    canonical_shownMaster l⟩
  rw [List.mem_singleton.1 hv]
  exact canonical_fields ⟨trivial, canonical_arr.2 hlist⟩

theorem Reads.bundle (hA : A.Legible) {s : Store V} {doc : Value}
    (h : Reads A .anchorBundle req s doc) :
    doc.get "master" = some (shownMaster A.crates.signatif s.master) := by
  have hread {order : HashOrder} {at_ : Option Timestamp} {asOf : Timestamp} {d : Value}
      (hd : View.doc A order req.query s.toState at_ asOf .anchorBundle = .ok d) :
      ∃ jur list, d = bundleDoc A.crates.signatif jur list s.master asOf := by
    obtain ⟨jur, -, hd⟩ := bind_eq_ok hd
    obtain ⟨list, -, hd⟩ := bind_eq_ok hd
    cases hd
    exact ⟨jur, list, rfl⟩
  obtain ⟨order, at_, asOf, hd, -⟩ := h.viewed (v := .anchorBundle) hA rfl fun _ _ _ _ hd => by
    obtain ⟨jur, list, rfl⟩ := hread hd
    exact canonical_bundleDoc _ _ _ _
  obtain ⟨jur, list, hdoc⟩ := hread hd
  rw [hdoc, bundleDoc_master]

theorem canonical_masterDoc (l : MasterList V) (asOf : Timestamp) :
    (masterDoc S l asOf).Canonical P 127 := by
  have hviews : ∀ v ∈ (valuesOf l.entries).map (masterEntryView S l), v.Canonical P 125 := by
    intro v hv
    obtain ⟨e, -, rfl⟩ := List.mem_map.1 hv
    refine canonical_fields ⟨trivial, canonical_arr.2 fun v hv => ?_, trivial, trivial, trivial⟩
    rw [← List.map_uncurry_zip_eq_zipWith] at hv
    obtain ⟨a, -, rfl⟩ := List.mem_map.1 hv
    exact canonical_fields ⟨trivial, trivial, canonical_slot _, trivial⟩
  have hwitnesses : (witnessesToValue S l).Canonical P 126 := by
    refine canonical_arr.2 fun v hv => ?_
    obtain ⟨w, -, rfl⟩ := List.mem_map.1 hv
    exact canonical_fields (by simp [publicFields])
  exact canonical_fields ⟨trivial, canonical_fields ⟨trivial, trivial⟩, hwitnesses,
    canonical_arr.2 hviews⟩

theorem fills_upsert (hE : S.MasterEntries) :
    Refill.Fills (fun (l : MasterList V) n => l.entries[n]?) MasterListEntry.node
      S.masterUpsert := by
  intro l e hfree
  funext n
  dsimp only
  rw [hE.absent l e hfree, Std.ExtTreeMap.getElem?_insert]
  by_cases hn : e.node = n
  · subst hn
    rw [if_pos Std.compare_self, Function.update_self]
  · rw [if_neg fun h => hn (Std.compare_eq_iff_eq.1 h), Function.update_of_ne (Ne.symm hn)]

/-- A master list is what is shown of its entries, put in one with its witnesses. -/
theorem MasterList.Publishable.refilled (hM : S.Masters) (hE : S.MasterEntries)
    {l l' : MasterList V} (hl : l.Publishable S) (hempty : l'.entries = ∅) :
    (valuesOf l.entries).foldl S.masterUpsert (l'.rewitnessed S l) = l := by
  have hkept (es : List (MasterListEntry V)) (x : MasterList V) :
      (es.foldl S.masterUpsert x).m = x.m ∧ (es.foldl S.masterUpsert x).k = x.k ∧
        (es.foldl S.masterUpsert x).witnesses = x.witnesses := by
    induction es generalizing x with
    | nil => exact ⟨rfl, rfl, rfl⟩
    | cons e es ih =>
      obtain ⟨hm, hk, hws⟩ := hM.upsert x e
      obtain ⟨hm', hk', hws'⟩ := ih (S.masterUpsert x e)
      exact ⟨hm'.trans hm, hk'.trans hk, hws'.trans hws⟩
  have hentries : ((valuesOf l.entries).foldl S.masterUpsert (l'.rewitnessed S l)).entries =
      l.entries := by
    apply Std.ExtTreeMap.ext_getElem?
    refine (fills_upsert hE).values hl.entry fun n => ?_
    change l'.entries[n]? = none
    rw [hempty, Std.ExtTreeMap.getElem?_empty]
  obtain ⟨hm, hk, hws⟩ := hkept (valuesOf l.entries) (l'.rewitnessed S l)
  replace hm := hm.trans (hM.m l.m l.witnesses)
  replace hk := (hk.trans (hM.k l.m l.witnesses)).trans hl.k.symm
  replace hws := hws.trans (hM.witnesses l.m l.witnesses)
  generalize (valuesOf l.entries).foldl S.masterUpsert (l'.rewitnessed S l) = x
    at hm hk hws hentries ⊢
  obtain ⟨m, k, ws, entries⟩ := x
  cases hm
  cases hk
  cases hws
  cases hentries
  rfl

theorem reads_master_congr {B : App V} (hA : A.Legible) (hB : B.crates = A.crates) {s t : Store V}
    (hsame : t.master = s.master) {doc : Value} (h : Reads A .masterList req s doc) :
    Reads B .masterList req t doc := by
  refine reads_view_congr (v := .masterList) hA rfl (fun _ _ _ _ hd => ?_) hB (fun _ _ _ => ?_) h
  · cases hd
    exact canonical_masterDoc _ _
  · simp only [View.doc, Api.masterList, hsame, hB]

/-- Some set of the witnesses reaches the threshold, and all attestations are by witnesses. -/
def MasterList.Postable (l : MasterList V) : Prop :=
  l.Satisfiable ∧ ∀ (n : V.NodeId) (e : MasterListEntry V), l.entries[n]? = some e →
    e.Known l.witnesses

/-- What a service shows of its master list, posted to a service without entries (the witnesses,
and then each entry) is answered as created throughout exactly if some set of its witnesses reaches
its threshold and every attestation is by a witness of it. The other service then has the same
master list, and nothing else new, and both show it alike. -/
theorem master_mirrored (A B : App V) (hB : B.crates = A.crates) (hC : A.crates.Lawful)
    (hM : A.crates.signatif.Masters) (hE : A.crates.signatif.MasterEntries) (hA : A.Legible)
    (seed : Bool) (s : Store V) (hs : Reached A.crates seed (Event.Ordinary A.crates) s)
    (req : Request) (doc : Value) (hdoc : Reads A .anchorBundle req s doc) (master : Value)
    (hmaster : doc.get "master" = some master) (es : List Value)
    (hes : master.get "entries" = some (.arr es)) (t : Store V) (hempty : t.master.entries = ∅)
    (y : Arrival) (ys : List Arrival)
    (hy : ∃ text, Posting B .masterListWitnesses text y ∧ B.crates.json.fromStr text = .ok master)
    (hys : List.Forall₂ (fun v y => ∃ text, Posting B .masterListEntries text y ∧
      B.crates.json.fromStr text = .ok v) es ys) :
    let t' := (respondAll B t (y :: ys)).2
    ((∀ x ∈ (respondAll B t (y :: ys)).1, Created x) ↔ s.master.Postable) ∧
    (s.master.Postable → t'.master = s.master ∧ t.SameBut .master t'.toState ∧
      ∀ asked d, Reads B .masterList asked t' d ↔ Reads A .masterList asked s d) := by
  intro t'
  have hpublishable := hs.publishableMaster hC hM hE
  rw [hdoc.bundle hA] at hmaster
  cases hmaster
  have hshown : (shownMaster A.crates.signatif s.master).get "entries" =
      some (.arr ((valuesOf s.master.entries).map (masterEntryToValue A.crates.signatif))) := by
    rw [shownMaster, get_object, lookup_fieldsOf]
    rfl
  rw [hshown] at hes
  cases hes
  rw [← hB] at hC hM hE hpublishable hy hys
  obtain ⟨text, hposting, hread⟩ := hy
  obtain ⟨hfirst, hstate⟩ := witnesses_created hC.signatif hpublishable.k hposting hread t
  obtain ⟨hrest, hstates⟩ := entries_created hC.signatif hM (fun e he => by
    obtain ⟨n, hn⟩ := Refill.mem_values.1 he
    exact hpublishable.attested n e hn) (List.forall₂_map_left_iff.1 hys) (respond B y t).2
  have hwitnesses (hl : s.master.Satisfiable) :
      (respond B y t).2.master.witnesses = s.master.witnesses := by
    rw [hstate hl]
    exact hM.witnesses _ _
  have hknown : (∀ e ∈ valuesOf s.master.entries, e.Known s.master.witnesses) ↔
      ∀ (n : V.NodeId) (e : MasterListEntry V), s.master.entries[n]? = some e →
        e.Known s.master.witnesses :=
    ⟨fun h n e hn => h e (Refill.mem_values.2 ⟨n, hn⟩), fun h e he => by
      obtain ⟨n, hn⟩ := Refill.mem_values.1 he
      exact h n e hn⟩
  constructor
  · rw [respondAll, List.forall_mem_cons, hfirst]
    exact and_congr_right fun hl => by rw [hrest, hwitnesses hl, hknown]
  · rintro ⟨hl, hall⟩
    have hfinal : t'.toState = { t.toState with master := s.master } := by
      refine (hstates (by rw [hwitnesses hl]; exact hknown.2 hall)).trans ?_
      rw [hstate hl]
      dsimp only
      rw [hpublishable.refilled hM hE hempty]
    have hsame : t'.master = s.master := by
      rw [hfinal]
    refine ⟨hsame, ?_, fun asked d => ⟨reads_master_congr (hA.crates hB) hB.symm hsame.symm,
      reads_master_congr hA hB hsame⟩⟩
    rw [hfinal]
    exact ⟨fun _ => rfl, fun _ => ⟨rfl, rfl⟩, fun h => (h rfl).elim, fun _ => rfl, fun _ => rfl⟩

open Reference

theorem reference_masterEntries : signatif.MasterEntries where
  new _ _ := rfl
  absent _ _ _ := rfl
  upserted l e n x hx := by
    change (l.entries.insert e.node e)[n]? = some x at hx
    rw [Std.ExtTreeMap.getElem?_insert] at hx
    split at hx
    · rename_i hn
      cases hx
      exact .inr ⟨(Std.compare_eq_iff_eq.1 hn).symm, Std.compare_eq_iff_eq.1 hn,
        fun a ha => .inl ha⟩
    · exact .inl hx

def attestedCalls : List (Op vocabulary × Tick) :=
  [(.registerTrustList "EU" none, noon 0), (.setWitnesses 1 [("a", [7])], noon 1),
    (.upsertMasterEntry ⟨"root", []⟩, noon 2)]

def attestedStore : Store vocabulary := (storeOf crates [] []).mutateAll signatif attestedCalls

theorem master_attestedStore : attestedStore.master =
    ⟨1, 1, Std.ExtTreeMap.ofList [("a", [7])] compare,
      (∅ : NodeMap vocabulary _).insert "root" ⟨"root", []⟩⟩ := rfl

theorem reached_attestedStore :
    Reached crates false (Event.Ordinary crates) attestedStore := by
  have hordinary {op : Op vocabulary} (i : Nat) (hd : op.Decodable signatif)
      (hi : op.Instants (InYears signatif)) : (Event.call op (noon i)).Ordinary crates :=
    ⟨⟨hd, hi, (noon_inYears i).1⟩, (noon_inYears i).2⟩
  have hwitnesses : ∃ v, witnessesFromValue signatif v = .ok [("a", [7])] :=
    ⟨.arr ([("a", [7])].map (bundleWitness signatif)),
      mapM_map_ok _ fun w _ => witnessFromValue_shown crates_lawful.signatif w⟩
  have hentry : ∃ v, masterEntryFromValue signatif v = .ok ⟨"root", []⟩ :=
    ⟨_, masterEntry_round_trip crates_lawful.signatif fun a ha => by cases ha⟩
  refine Reached.mutateAll (A := app) (.opened noon (ordinary_restart noon_inYears) rfl) ?_
  exact List.forall_mem_cons.2 ⟨hordinary 0 trivial trivial, List.forall_mem_cons.2
    ⟨hordinary 1 hwitnesses trivial, List.forall_mem_singleton.2
      (hordinary 2 hentry fun a ha => by cases ha)⟩⟩

theorem postable_attestedStore : attestedStore.master.Postable := by
  rw [master_attestedStore]
  refine ⟨⟨by decide, by decide +kernel, by decide +kernel⟩, fun n e he => ?_⟩
  rw [Std.ExtTreeMap.getElem?_insert] at he
  split at he
  · cases he
    intro a ha
    cases ha
  · rw [Std.ExtTreeMap.getElem?_empty] at he
    cases he

def bundleRequest : Request := ⟨Std.ExtTreeMap.ofList [("jurisdiction", "EU")] compare, ∅, ""⟩

theorem reads_attestedStore : ∃ doc, Reads app .anchorBundle bundleRequest attestedStore doc := by
  refine ⟨_, reads_doc (A := app) (x := fun order m => readAt bundleRequest.query m.now
    fun at_ asOf => View.doc app order bundleRequest.query attestedStore.toState at_ asOf
      .anchorBundle) app_legible rfl (fun _ _ => rfl) .ascending ⟨⟨43200⟩, noon⟩ rfl rfl ?_⟩
  exact canonical_bundleDoc _ _ _ _

theorem shownMaster_attestedStore :
    (shownMaster signatif attestedStore.master).get "entries" =
      some (.arr [masterEntryToValue signatif ⟨"root", []⟩]) := rfl

/-- The witness and the entry stand on the second service as on the first. -/
theorem master_mirrored_attested :
    ∃ y z, y.path = .masterListWitnesses ∧ z.path = .masterListEntries ∧
      let t := respondAll app (storeOf crates [] []) [y, z]
      (∀ x ∈ t.1, Created x) ∧ t.2.master = attestedStore.master := by
  obtain ⟨doc, hdoc⟩ := reads_attestedStore
  have hwitnesses := posting_shown .masterListWitnesses
    (canonical_shownMaster (S := signatif) attestedStore.master)
  have hentry := posting_shown .masterListEntries
    (canonical_masterEntry (S := signatif) ⟨"root", []⟩)
  revert hwitnesses hentry
  generalize posted .masterListWitnesses _ = y
  generalize posted .masterListEntries _ = z
  intro hwitnesses hentry
  have hy : y.path = .masterListWitnesses := hwitnesses.choose_spec.1.2.1
  have hz : z.path = .masterListEntries := hentry.choose_spec.1.2.1
  obtain ⟨hcreated, hsame⟩ := master_mirrored app app rfl crates_lawful reference_masters
    reference_masterEntries app_legible false attestedStore reached_attestedStore bundleRequest doc
    hdoc _ (hdoc.bundle app_legible) _ shownMaster_attestedStore (storeOf crates [] []) rfl y [z]
    hwitnesses (.cons hentry .nil)
  exact ⟨y, z, hy, hz, hcreated.2 postable_attestedStore, (hsame postable_attestedStore).1⟩

end UnidppTrust
