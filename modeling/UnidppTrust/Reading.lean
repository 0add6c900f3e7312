import UnidppTrust.Service
import UnidppTrust.CeremonyBodies

namespace UnidppTrust
open Rust Json Api
set_option autoImplicit true

variable {V : Vocabulary} {A : App V} {s : Store V}

/-- A service whose documents, printed indented, are read back by their readers, up to the depth
they take. -/
def App.Legible (A : App V) : Prop :=
  ∀ v : Value, v.Canonical A.crates.json.printed 127 →
    A.crates.json.fromStr v.toStringPretty = .ok v

theorem App.Legible.crates {B : App V} (hA : A.Legible) (hB : B.crates = A.crates) :
    B.Legible := by
  rw [App.Legible, hB]
  exact hA

theorem canonical_option {x : Option β} {f : β → Value} (h : ∀ b ∈ x, (f b).Canonical P n) :
    (Value.ofOption (x.map f)).Canonical P n := by
  cases x with
  | none => trivial
  | some b => exact h b rfl

/-- A client asks for a path, is answered 200, and reads the document off the body. -/
def Reads (A : App V) (path : Path) (req : Request) (s : Store V) (doc : Value) : Prop :=
  ∃ x r text, x.method = .get ∧ x.path = path ∧ x.request = some req ∧
    (respond A x s).1 = .ok r ∧ r.status = 200 ∧ r.body = bytes text ∧
    A.crates.json.fromStr text = .ok doc

section Documents
variable {x : HashOrder → Moment → Outcome Refusal Doc} (hA : A.Legible)
  (hroute : getRoute path = some route)
  (hserve : ∀ order m, (serve A order req m s route).1 = answer A m.now (x order m))
include hA hroute hserve

theorem Reads.doc {doc : Value} (h : Reads A path req s doc)
    (hstates : ∀ order m, States (x order m))
    (hcanonical : ∀ order m d, x order m = .ok d → d.doc.Canonical A.crates.json.printed 127) :
    ∃ order m d, x order m = .ok d ∧ d.doc = doc := by
  obtain ⟨y, r, text, hmethod, hpath, hreq, hr, hstatus, hbody, hdoc⟩ := h
  have hrouted : router y.method y.path = some route := by
    rw [hmethod, hpath]
    exact hroute
  rw [respond_routed hrouted hreq (by rw [hmethod]; decide), hserve] at hr
  rcases states_answer _ (hstates y.order y.moment) with
    ⟨d, hd, hanswer⟩ | ⟨f, hf, -, hanswer⟩
  · rw [hanswer] at hr
    rw [← Except.ok.inj hr, signed] at hbody
    rw [← bytes_injective hbody, hA _ (hcanonical _ _ d hd)] at hdoc
    exact ⟨_, _, d, hd, Except.ok.inj hdoc⟩
  · -- a stated error is not answered 200
    rw [hanswer] at hr
    have hrefused : f.status = r.status := congrArg Response.status (Except.ok.inj hr)
    rw [hrefused, hstatus] at hf
    exact absurd hf (by decide)

theorem reads_doc (order : HashOrder) (m : Moment) (h : x order m = .ok d)
    (hstatus : d.status = 200) (hcanonical : d.doc.Canonical A.crates.json.printed 127) :
    Reads A path req s d.doc := by
  have hserved : (respond A ⟨.get, path, some req, ⟨404, [], []⟩, order, m⟩ s).1 =
      .ok (signed A d.status d.doc d.asOf d.cache) := by
    have hrouted : router .get path = some route := hroute
    rw [respond_routed hrouted rfl Method.noConfusion, hserve, h, answer]
  exact ⟨_, _, _, rfl, rfl, rfl, hserved, hstatus, rfl, hA _ hcanonical⟩

end Documents

theorem readAt_ok {query : StringMap String}
    {x : Option Timestamp → Timestamp → Outcome Refusal Value} (h : readAt query now x = .ok d) :
    ∃ at_, parseAt query = .ok at_ ∧ x at_ (at_.getD now) = .ok d.doc ∧ d.status = 200 := by
  obtain ⟨at_, hat, h⟩ := bind_eq_ok h
  obtain ⟨v, hv, h⟩ := bind_eq_ok h
  cases h
  exact ⟨at_, hat, hv, rfl⟩

section Views
variable {v : View} {req : Request} (hA : A.Legible) (hroute : getRoute path = some (.view v))
  (hcanonical : ∀ order at_ asOf d, v.doc A order req.query s.toState at_ asOf = .ok d →
    d.Canonical A.crates.json.printed 127)
include hA hroute hcanonical

theorem Reads.view {doc : Value} (h : Reads A path req s doc) :
    ∃ (order : HashOrder) (m : Moment) (d : Doc), d.doc = doc ∧ d.status = 200 ∧
      readAt req.query m.now (fun at_ asOf => v.doc A order req.query s.toState at_ asOf) =
        .ok d := by
  obtain ⟨order, m, d, hd, hdoc⟩ := h.doc (x := fun order m => readAt req.query m.now
    fun at_ asOf => v.doc A order req.query s.toState at_ asOf) hA hroute (fun _ _ => rfl)
    (fun _ m => states_readAt fun at_ asOf => states_view _ _ _ _ _ _) fun order m d hd => by
      obtain ⟨at_, -, hv, -⟩ := readAt_ok hd
      exact hcanonical order at_ _ _ hv
  obtain ⟨at_, -, -, hstatus⟩ := readAt_ok hd
  exact ⟨order, m, d, hdoc, hstatus, hd⟩

/-- What a client reads is the view of the state, as of the instant it asked for. -/
theorem Reads.viewed {doc : Value} (h : Reads A path req s doc) :
    ∃ order at_ asOf, v.doc A order req.query s.toState at_ asOf = .ok doc ∧
      ∀ t, parseAt req.query = .ok (some t) → asOf = t := by
  obtain ⟨order, m, d, rfl, -, hd⟩ := h.view hA hroute hcanonical
  obtain ⟨at_, hat, hv, -⟩ := readAt_ok hd
  refine ⟨order, at_, _, hv, fun t ht => ?_⟩
  rw [hat] at ht
  cases ht
  rfl

theorem reads_view_congr {B : App V} (hB : B.crates = A.crates) {t : Store V}
    (hsame : ∀ order at_ asOf, v.doc B order req.query t.toState at_ asOf =
      v.doc A order req.query s.toState at_ asOf) {doc : Value} (h : Reads A path req s doc) :
    Reads B path req t doc := by
  obtain ⟨order, m, d, rfl, hstatus, hd⟩ := h.view hA hroute hcanonical
  obtain ⟨at_, -, hv, -⟩ := readAt_ok hd
  refine reads_doc (x := fun order m => readAt req.query m.now fun at_ asOf =>
    v.doc B order req.query t.toState at_ asOf) (hA.crates hB) hroute (fun _ _ => rfl) order m
    ?_ hstatus ?_
  · simp only [hsame]
    exact hd
  · rw [hB]
    exact hcanonical order at_ _ _ hv

end Views

def Posting (A : App V) (path : Path) (text : String) (x : Arrival) : Prop :=
  x.method = .post ∧ x.path = path ∧
    ∃ req, x.request = some req ∧ requireAdmin A req = .ok () ∧ req.body = text

theorem Posting.decoded {v : Value} {x : Arrival} (h : Posting A path text x)
    (decode : Value → Outcome Refusal α) (hread : A.crates.json.fromStr text = .ok v)
    (hdecode : decode v = .ok a) :
    ∃ req, x.request = some req ∧ decoded A req decode = .ok a := by
  obtain ⟨-, -, req, hreq, hallowed, rfl⟩ := h
  refine ⟨req, hreq, ?_⟩
  rw [UnidppTrust.decoded, hallowed, ok_bind, parseBody, hread]
  exact hdecode

open Reference

def posted (path : Path) (text : String) : Arrival :=
  ⟨.post, path, some ⟨∅, ∅, text⟩, ⟨404, [], []⟩, .ascending, ⟨⟨43200⟩, noon⟩⟩

theorem posting_posted (path : Path) (text : String) : Posting app path text (posted path text) :=
  ⟨rfl, rfl, _, rfl, rfl, rfl⟩

theorem app_legible : App.Legible app := rehearsal_sound.pretty

/-- What a service shows is posted to another as it stands. -/
theorem posting_shown (path : Path) {v : Value} (hv : v.Canonical crates.json.printed 127) :
    ∃ text, Posting app path text (posted path v.toStringPretty) ∧
      app.crates.json.fromStr text = .ok v :=
  ⟨v.toStringPretty, posting_posted path v.toStringPretty, app_legible v hv⟩

end UnidppTrust
