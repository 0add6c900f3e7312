import UnidppTrust.Api
import UnidppTrust.Mutation
import UnidppTrust.JournalLines

namespace UnidppTrust
open Rust Json Api
set_option autoImplicit true

variable {V : Vocabulary} {A : App V}

@[simp] theorem followed_ok (a : α) (s : σ) (f : α → σ → Outcome ε β × σ) :
    followed (.ok a, s) f = f a s := rfl

@[simp] theorem followed_error (e : Fault ε) (s : σ) (f : α → σ → Outcome ε β × σ) :
    followed (.error e, s) f = (.error e, s) := rfl

@[simp] theorem calling_ok (refuse : StoreError → Refusal) (r : AuditRecord V) (s : Store V) :
    calling refuse (.ok r, s) = (.ok r, s) := rfl

@[simp] theorem stated_ok (a : α) : stated (.ok a) = .ok a := rfl

/-- What a mutation handler reads of its request: the token, and the decoded body. -/
def decoded (A : App V) (req : Request) (decode : Value → Outcome Refusal α) :
    Outcome Refusal α := do
  requireAdmin A req
  let v ← parseBody A req.body
  decode v

theorem handle_followed (A : App V) (req : Request) (now : Timestamp) (s : Store V)
    (decode : Value → Outcome Refusal α)
    (call : α → Store V → Outcome Refusal (AuditRecord V) × Store V)
    (doc : α → AuditRecord V → Store V → Value) :
    handle A req now s decode call doc =
      followed (decoded A req decode, s) fun a s => followed (call a s) fun r s =>
        (.ok ⟨201, doc a r s, now, .noStore⟩, s) := rfl

/-- All a mutation handler can do: refuse the request and leave the store, or make its call, and
answer what the call returns over the store it leaves. -/
theorem handle_cases (A : App V) (req : Request) (now : Timestamp) (s : Store V)
    (decode : Value → Outcome Refusal α)
    (call : α → Store V → Outcome Refusal (AuditRecord V) × Store V)
    (doc : α → AuditRecord V → Store V → Value) :
    (∃ f, decoded A req decode = .error f ∧ handle A req now s decode call doc = (.error f, s)) ∨
    ∃ a, decoded A req decode = .ok a ∧
      ((∃ f s', call a s = (.error f, s') ∧
          handle A req now s decode call doc = (.error f, s')) ∨
        ∃ r s', call a s = (.ok r, s') ∧
          handle A req now s decode call doc = (.ok ⟨201, doc a r s', now, .noStore⟩, s')) := by
  rw [handle_followed]
  cases hreq : decoded A req decode with
  | error f => exact .inl ⟨f, rfl, rfl⟩
  | ok a =>
    refine .inr ⟨a, rfl, ?_⟩
    change (∃ f s', _ ∧ followed (call a s) _ = _) ∨ ∃ r s', _ ∧ followed (call a s) _ = _
    cases hcall : call a s with
    | mk x s' =>
      cases x with
      | error f => exact .inl ⟨f, s', rfl, rfl⟩
      | ok r => exact .inr ⟨r, s', rfl, rfl⟩

theorem handle_ok {req : Request} {now : Timestamp} {s : Store V}
    {decode : Value → Outcome Refusal α}
    {call : α → Store V → Outcome Refusal (AuditRecord V) × Store V}
    {doc : α → AuditRecord V → Store V → Value} (hdecode : decoded A req decode = .ok a)
    (hcall : call a s = (.ok r, s')) :
    handle A req now s decode call doc = (.ok ⟨201, doc a r s', now, .noStore⟩, s') := by
  rw [handle_followed, hdecode, followed_ok, hcall, followed_ok]

theorem calling_eq_ok {x : Except StoreError (AuditRecord V) × Store V}
    (h : calling refuse x = (.ok r, s')) : x = (.ok r, s') := by
  obtain ⟨y, s⟩ := x
  rw [calling, Prod.mk.injEq] at h
  obtain ⟨hr, hs⟩ := h
  rw [Prod.mk.injEq]
  exact ⟨lift_eq_ok (mapErr_eq_ok hr), hs⟩

theorem calling_error {x : Except StoreError (AuditRecord V) × Store V} {op : Op V}
    (hx : Refused s x ∨ Recorded S s t op x) (h : calling refuse x = (.error f, s')) :
    s' = s := by
  rcases hx with ⟨e, rfl⟩ | ⟨-, r, rfl⟩
  · cases h
    rfl
  · cases h

theorem parseBody_toString (hC : A.crates.Lawful) {v : Value}
    (hv : v.Canonical A.crates.json.printed 127) : parseBody A v.toString = .ok v := by
  rw [parseBody, hC.json.round_trip v hv, lift_ok, mapErr_ok]
  rfl

def Preserved (A : App V) (p : Store V → Prop) : Prop :=
  ∀ s t op, p s → p (s.mutate A.crates.signatif t op).2

theorem followed_keeps {p : σ → Prop} {x : Outcome ε α × σ} {f : α → σ → Outcome ε β × σ}
    (hx : p x.2) (hf : ∀ a s, p s → p (f a s).2) : p (followed x f).2 := by
  obtain ⟨r, s⟩ := x
  cases r with
  | ok a => exact hf a s hx
  | error e => exact hx

theorem handle_keeps {p : Store V → Prop} (hs : p s) {req : Request} {now : Timestamp}
    {decode : Value → Outcome Refusal α}
    {call : α → Store V → Outcome Refusal (AuditRecord V) × Store V}
    {doc : α → AuditRecord V → Store V → Value} (hcall : ∀ a s, p s → p (call a s).2) :
    p (handle A req now s decode call doc).2 :=
  followed_keeps hs fun a _ hs => followed_keeps (hcall a _ hs) fun _ _ hs => hs

theorem applyEntries_keeps {p : Store V → Prop} (hp : Preserved A p) (hs : p s)
    (ticks : Nat → Tick) (jur : String) (vs : List Value) :
    p (applyEntries A s ticks jur vs).2 := by
  induction vs generalizing s ticks with
  | nil => exact hs
  | cons v vs ih =>
    apply followed_keeps hs
    intro entry s hs
    apply followed_keeps (hp s _ (.upsertTrustEntry jur entry.node entry.notBefore
      entry.supersededAt) hs)
    intro _ s hs
    exact ih hs _

theorem registerList_keeps {p : Store V → Prop} (hp : Preserved A p) (m : Moment)
    (l : ListRequest) (hs : p s) : p (registerList A m l s).2 := by
  apply followed_keeps (hp s _ (.registerTrustList l.jurisdiction l.framework) hs)
  intro r s hs
  apply followed_keeps (applyEntries_keeps hp hs _ _ _)
  intro _ s hs
  exact hs

theorem evidenceRelease_keeps {p : Store V → Prop} (hp : Preserved A p) (hs : p s) (id : String)
    (req : Request) (m : Moment) : p (evidenceRelease A id req m s).2 := by
  have hrelease := hp s (m.records 0) (.evidenceReleased id
    (presented req "requester" "x-unidpp-requester") (scopeOf req)) hs
  rw [Store.mutate, Prod.map_snd, id_eq] at hrelease
  unfold evidenceRelease
  split
  · rename_i h
    rw [h] at hrelease
    exact hrelease
  · rename_i h
    rw [h] at hrelease
    exact hrelease

/-- A handler changes the store by typed mutations alone. -/
theorem serve_keeps {p : Store V → Prop} (hp : Preserved A p) (hs : p s) (order : HashOrder)
    (req : Request) (m : Moment) (route : Route) : p (serve A order req m s route).2 := by
  cases route with
  | evidenceOne id => exact evidenceRelease_keeps hp hs id req m
  | adminEvidence =>
    change p (Api.registerEvidence A req m s).2
    apply handle_keeps hs
    intro e s hs
    exact hp s _ (.registerEvidence e) hs
  | nodes =>
    change p (Api.registerNode A req m s).2
    apply handle_keeps hs
    intro node s hs
    exact hp s _ (.registerNode node) hs
  | edges =>
    change p (Api.addEdge A req m s).2
    apply handle_keeps hs
    intro cred s hs
    exact hp s _ (.addEdge cred) hs
  | trustLists =>
    change p (Api.registerTrustList A req m s).2
    apply handle_keeps hs
    intro l s hs
    exact registerList_keeps hp m l hs
  | trustListEntries jur =>
    change p (Api.upsertTrustEntry A jur req m s).2
    apply handle_keeps hs
    intro e s hs
    exact hp s _ (.upsertTrustEntry jur e.node e.notBefore e.supersededAt) hs
  | masterListWitnesses =>
    change p (Api.setWitnesses A req m s).2
    apply handle_keeps hs
    intro w s hs
    exact hp s _ (.setWitnesses w.m w.witnesses) hs
  | masterListEntries =>
    change p (Api.upsertMasterEntry A req m s).2
    apply handle_keeps hs
    intro e s hs
    exact hp s _ (.upsertMasterEntry e) hs
  | revocations =>
    change p (Api.declareRevocation A req m s).2
    apply handle_keeps hs
    intro r s hs
    exact hp s _ (.declareRevocation r) hs
  | _ => exact hs

theorem respond_keeps {p : Store V → Prop} (hp : Preserved A p) (hs : p s) (x : Arrival) :
    p (respond A x s).2 := by
  unfold respond
  split
  · exact serve_keeps hp hs _ _ _ _
  · exact hs

theorem respondAll_keeps {p : Store V → Prop} (hp : Preserved A p) (hs : p s) (xs : List Arrival) :
    p (respondAll A s xs).2 := by
  induction xs generalizing s with
  | nil => exact hs
  | cons x xs ih => exact ih (respond_keeps hp hs x)

end UnidppTrust
