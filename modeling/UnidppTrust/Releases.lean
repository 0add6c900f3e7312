import UnidppTrust.Handlers
import UnidppTrust.Gating
import UnidppTrust.Instants

namespace UnidppTrust
open Rust Json Api
set_option autoImplicit true

variable {V : Vocabulary} {A : App V}

/-- What the service signs a body with: two signatures, and the ids of their keys, which are
header values. -/
structure Signing where
  ed25519 : Bytes → Bytes
  p256 : Bytes → Bytes
  ed25519KeyId : String
  p256KeyId : String
  ed25519KeyId_header : isHeaderValue ed25519KeyId = true
  p256KeyId_header : isHeaderValue p256KeyId = true

/-- The signatures are in hex, and the tag is cut from the first, which must be long enough. -/
def Signing.signHeaders (k : Signing) (body : Bytes) : Outcome Empty (List (String × String)) :=
  let edSig := hexEncode (k.ed25519 body)
  let pSig := hexEncode (k.p256 body)
  if edSig.length < 32 then abort
  else .ok [("x-sig-domain", "tree-head"), ("x-sig-ed25519", edSig),
    ("x-sig-key-id-ed25519", k.ed25519KeyId), ("x-sig-ecdsa-p256", pSig),
    ("x-sig-key-id-ecdsa-p256", k.p256KeyId),
    ("etag", String.ofList ('"' :: "sig-".toList ++ edSig.toList.take 32 ++ ['"']))]

def Signing.Signs (k : Signing) (A : App V) : Prop :=
  ∀ body, k.signHeaders body = .ok (A.signHeaders body)

/-- A document whose texts can stand in headers: none of their bytes is a control, but for the
tab. -/
def Evidence.InHeaders (e : Evidence) : Prop :=
  ∀ b ∈ bytes e.contentType ++ bytes e.requiredScope, (32 ≤ b ∧ b ≠ 127) ∨ b = 9

instance (e : Evidence) : Decidable e.InHeaders := List.decidableBAll _ _

theorem isHeaderValue_iff {s : String} :
    isHeaderValue s = true ↔ ∀ b ∈ bytes s, (32 ≤ b ∧ b ≠ 127) ∨ b = 9 := by
  simp [isHeaderValue]

theorem inHeaders_iff {e : Evidence} : e.InHeaders ↔
    isHeaderValue e.contentType = true ∧ isHeaderValue e.requiredScope = true := by
  rw [Evidence.InHeaders, List.forall_mem_append, isHeaderValue_iff, isHeaderValue_iff]

def Graphic (cs : List Char) : Prop := ∀ c ∈ cs, 32 ≤ c.toNat ∧ c.toNat < 127

instance (cs : List Char) : Decidable (Graphic cs) := List.decidableBAll _ cs

theorem graphic_append : Graphic (cs ++ ds) ↔ Graphic cs ∧ Graphic ds := List.forall_mem_append

theorem graphic_cons : Graphic (c :: cs) ↔ (32 ≤ c.toNat ∧ c.toNat < 127) ∧ Graphic cs :=
  List.forall_mem_cons

theorem graphic_zeroPad (w : Nat) (n : Int) : Graphic (zeroPad w n) := by
  rw [zeroPad, graphic_append, graphic_append]
  refine ⟨⟨?_, fun c hc => ?_⟩, fun c hc => ?_⟩
  · split
    · decide
    · intro c hc
      cases hc
  · rw [(List.mem_replicate.1 hc).2]
    decide
  · have hdigit := Nat.isDigit_of_mem_toDigits (by decide) (by decide) hc
    have hbounds : 48 ≤ c.toNat ∧ c.toNat ≤ 57 := by
      simpa [Char.isDigit, Char.le_def, UInt32.le_iff_toNat_le] using hdigit
    omega

theorem graphic_hexEncode (b : Bytes) : Graphic (hexEncode b).toList := by
  have hdigit : ∀ n : Fin 16, 32 ≤ n.val.digitChar.toNat ∧ n.val.digitChar.toNat < 127 := by decide
  intro c hc
  rw [hexEncode, String.toList_ofList] at hc
  obtain ⟨x, -, hc⟩ := List.mem_flatMap.1 hc
  have hx := x.toNat_lt
  simp only [List.mem_cons, List.not_mem_nil, or_false] at hc
  rcases hc with rfl | rfl
  · exact hdigit ⟨x.toNat / 16, by omega⟩
  · exact hdigit ⟨x.toNat % 16, by omega⟩

theorem Graphic.isHeaderValue {cs : List Char} (h : Graphic cs) :
    isHeaderValue (String.ofList cs) = true := by
  rw [isHeaderValue_iff, bytes, String.toList_ofList]
  intro b hb
  obtain ⟨c, hc, hb⟩ := List.mem_flatMap.1 hb
  obtain ⟨hlo, hhi⟩ := h c hc
  rw [utf8EncodeChar_ascii (by omega), List.mem_singleton] at hb
  have hn : b.toNat = c.toNat := by
    rw [hb, UInt8.toNat_ofNat']
    omega
  rw [UInt8.le_iff_toNat_le, ne_eq, ← UInt8.toNat_inj, hn]
  exact .inl ⟨hlo, Nat.ne_of_lt hhi⟩

theorem isHeaderValue_hexEncode (b : Bytes) : isHeaderValue (hexEncode b) = true := by
  have h := (graphic_hexEncode b).isHeaderValue
  rwa [String.ofList_toList] at h

theorem isHeaderValue_timestamp (t : Timestamp) : isHeaderValue t.toString = true := by
  apply Graphic.isHeaderValue
  simp only [graphic_append, graphic_cons, graphic_zeroPad, and_true, true_and]
  decide

theorem Signing.Signs.headers {k : Signing} (hk : k.Signs A) (body : Bytes) :
    ∀ h ∈ A.signHeaders body, isHeaderValue h.2 = true := by
  have hsigned := hk body
  unfold Signing.signHeaders at hsigned
  dsimp only at hsigned
  split at hsigned
  · cases hsigned
  · rw [← Except.ok.inj hsigned]
    have htag : Graphic ((hexEncode (k.ed25519 body)).toList.take 32) :=
      fun c hc => graphic_hexEncode _ c (List.mem_of_mem_take hc)
    have hetag : isHeaderValue (String.ofList ('"' :: "sig-".toList ++
        (hexEncode (k.ed25519 body)).toList.take 32 ++ ['"'])) = true := by
      apply Graphic.isHeaderValue
      rw [graphic_append, graphic_append]
      exact ⟨⟨by decide, htag⟩, by decide⟩
    simp only [List.forall_mem_cons, isHeaderValue_hexEncode, k.ed25519KeyId_header,
      k.p256KeyId_header, hetag, true_and]
    refine ⟨by decide, fun h hh => ?_⟩
    cases hh

/-- A released document is answered with its content exactly if its texts can stand in headers;
otherwise the builder fails. -/
theorem released_iff {k : Signing} (hk : k.Signs A) (now : Timestamp) (e : Evidence) :
    ((∃ headers, released A now e = .ok ⟨200, headers, e.content⟩) ↔ e.InHeaders) ∧
      (¬ e.InHeaders → released A now e = abort) := by
  have hvalid : ((([("content-type", e.contentType), ("x-as-of", now.toString),
      ("x-unidpp-scope", e.requiredScope)] ++ A.signHeaders e.content).all
        fun h => isHeaderValue h.2) = true) ↔ e.InHeaders := by
    rw [inHeaders_iff, List.all_eq_true, List.forall_mem_append]
    simp only [List.forall_mem_cons, isHeaderValue_timestamp, true_and]
    refine ⟨fun h => ⟨h.1.1, h.1.2.1⟩, fun h => ⟨⟨h.1, h.2, ?_⟩, hk.headers e.content⟩⟩
    intro x hx
    cases hx
  rw [released, build]
  refine ⟨⟨fun ⟨headers, h⟩ => ?_, fun h => ?_⟩, fun h => ?_⟩
  · by_contra hno
    rw [if_neg (mt hvalid.1 hno)] at h
    cases h
  · rw [if_pos (hvalid.2 h)]
    exact ⟨_, rfl⟩
  · rw [if_neg (mt hvalid.1 h)]

theorem preserved_document (A : App V) (id : String) (e : Evidence) :
    Preserved A fun s => s.evidence[id]? = some e := by
  intro s t op he
  rcases mutate_cases A.crates.signatif s t op with ⟨x, h⟩ | ⟨-, a, h⟩
  · rw [h]
    exact he
  · rw [h]
    change (applyOp A.crates.signatif s.toState op).2.evidence[id]? = some e
    cases hop : op.registers with
    | none => rw [(applyOp_sameBut _ s.toState op).evidence (registers_part hop), he]
    | some e' =>
      obtain rfl := registers_eq hop
      simp only [applyOp]
      split
      · exact he
      · rename_i hfree
        rw [Std.ExtTreeMap.getElem?_insert, if_neg, he]
        intro hid
        rw [compare_eq_iff_eq] at hid
        rw [Std.ExtTreeMap.contains_eq_isSome_getElem?, hid, he] at hfree
        exact hfree rfl

theorem registerEvidence_holds {post : Request} {m : Moment} {s : Store V} {d : Doc}
    (h : (registerEvidence A post m s).1 = .ok d) :
    ∃ e, decoded A post decodeEvidence = .ok e ∧
      (registerEvidence A post m s).2.evidence[e.id]? = some e := by
  rcases handle_cases A post m.now s decodeEvidence
    (fun e s => calling storeError (s.registerEvidence A.crates.signatif (m.records 0) e))
    (fun e r s => withSeq r.seq ((s.evidence[e.id]?.map Evidence.metaJson).getD (.obj []))) with
    ⟨f, -, hf⟩ | ⟨e, he, ⟨f, s', -, hf⟩ | ⟨r, s', hcall, hr⟩⟩
  · rw [registerEvidence, hf] at h
    cases h
  · rw [registerEvidence, hf] at h
    cases h
  · refine ⟨e, he, ?_⟩
    have hstore := calling_eq_ok hcall
    have hfree := (registerEvidence_accepts (congrArg Prod.fst hstore)).1
    have hcontains : s.evidence.contains e.id = false := by
      rw [Std.ExtTreeMap.contains_eq_isSome_getElem?, hfree]
      rfl
    rcases registerEvidence_cases (S := A.crates.signatif) (s := s) (t := m.records 0) e with
      ⟨x, hx⟩ | ⟨-, a, ha⟩
    · rw [hx] at hstore
      cases hstore
    · rw [ha] at hstore
      rw [registerEvidence, hr, ← congrArg Prod.snd hstore]
      change (applyOp A.crates.signatif s.toState (.registerEvidence e)).2.evidence[e.id]? = some e
      simp only [applyOp, hcontains, Bool.false_eq_true, if_false]
      exact Std.ExtTreeMap.getElem?_insert_self

theorem registerEvidence_accepted {post : Request} {m : Moment} {s : Store V} {e : Evidence}
    (hdecoded : decoded A post decodeEvidence = .ok e)
    (hfree : s.evidence.contains e.id = false) (hid : (trim e.id).isEmpty = false)
    (hscope : (trim e.requiredScope).isEmpty = false) (hcontent : e.content.isEmpty = false) :
    ∃ d, (registerEvidence A post m s).1 = .ok d := by
  have hcall : s.registerEvidence A.crates.signatif (m.records 0) e =
      s.recorded A.crates.signatif (m.records 0) (.registerEvidence e) := by
    simp only [Store.registerEvidence, hfree, hid, hscope, hcontent, Bool.false_eq_true, if_false]
  rw [Store.recorded] at hcall
  rw [registerEvidence, handle_ok hdecoded (congrArg (calling storeError) hcall)]
  exact ⟨_, rfl⟩

theorem serve_released {s : Store V} {e : Evidence} {get : Request}
    (h : s.evidence[e.id]? = some e) (hscope : scopeOf get = e.requiredScope) (order : HashOrder)
    (m : Moment) : (serve A order get m s (.evidenceOne e.id)).1 = released A m.now e := by
  have hout := (releaseEvidence_ok_iff (S := A.crates.signatif) s (m.records 0) e.id
    (presented get "requester" "x-unidpp-requester") (scopeOf get) e).2 ⟨h, hscope.symm⟩
  simp only [serve, evidenceRelease]
  split
  · rename_i hreleased
    rw [hreleased] at hout
    rw [Except.ok.inj hout]
  · rename_i hreleased
    rw [hreleased] at hout
    cases hout

/-- A document accepted at registration is released to every later request under its scope, also
after restarts, if and only if its content type and its scope can stand in headers. Where they
cannot, the handler aborts. -/
theorem released_headers_iff (A : App V) (hC : A.crates.Lawful) (k : Signing) (hk : k.Signs A) :
    (∀ (post : Request) (m : Moment) (s : Store V) (d : Doc),
      (registerEvidence A post m s).1 = .ok d →
      ∃ e, decoded A post decodeEvidence = .ok e ∧
        ∀ (xs : List Arrival) (order : HashOrder) (get : Request) (m' : Moment),
          scopeOf get = e.requiredScope →
          let s' := (respondAll A (registerEvidence A post m s).2 xs).2
          let response := (serve A order get m' s' (.evidenceOne e.id)).1
          ((∃ headers, response = .ok ⟨200, headers, e.content⟩) ↔ e.InHeaders) ∧
            (¬ e.InHeaders → response = abort)) ∧
    ∀ (seed : Bool) (s : Store V) (e : Evidence), Reached A.crates seed Event.Dated s →
      RegisteredOnce s.log e →
      ∀ (order : HashOrder) (get : Request) (m : Moment), scopeOf get = e.requiredScope →
        let response := (serve A order get m s (.evidenceOne e.id)).1
        ((∃ headers, response = .ok ⟨200, headers, e.content⟩) ↔ e.InHeaders) ∧
          (¬ e.InHeaders → response = abort) := by
  constructor
  · intro post m s d hok
    obtain ⟨e, he, hheld⟩ := registerEvidence_holds hok
    refine ⟨e, he, fun xs order get m' hscope => ?_⟩
    have hlater := respondAll_keeps (preserved_document A e.id e) hheld xs
    dsimp only
    rw [serve_released hlater hscope]
    exact released_iff hk m'.now e
  · intro seed s e hs honce order get m hscope
    obtain ⟨ws, hkept⟩ := hs.kept hC
    have hg := hkept.live
    have hheld := (hg.document e.id e).2 ⟨(registeredOnce_iff hg.once).1 honce, rfl⟩
    dsimp only
    rw [serve_released hheld hscope]
    exact released_iff hk m.now e

open Reference

def signingApp (k : Signing) : App vocabulary :=
  { app with signHeaders := fun body => (k.signHeaders body).toOption.getD [] }

theorem signs_signingApp {k : Signing} (h : ∀ body, 16 ≤ (k.ed25519 body).length) :
    k.Signs (signingApp k) := by
  intro body
  have hbody := h body
  have hlong : ¬ (hexEncode (k.ed25519 body)).length < 32 := by
    rw [length_hexEncode]
    omega
  have hsigned : ∃ headers, k.signHeaders body = .ok headers := by
    rw [Signing.signHeaders, if_neg hlong]
    exact ⟨_, rfl⟩
  obtain ⟨headers, hsigned⟩ := hsigned
  change k.signHeaders body = .ok ((k.signHeaders body).toOption.getD [])
  rw [hsigned]
  rfl

def constantKeys : Signing where
  ed25519 _ := List.replicate 64 7
  p256 _ := List.replicate 64 8
  ed25519KeyId := "ed-key"
  p256KeyId := "p256-key"
  ed25519KeyId_header := by decide
  p256KeyId_header := by decide

theorem constantKeys_signs : constantKeys.Signs (signingApp constantKeys) := by
  apply signs_signingApp
  intro body
  rw [constantKeys, List.length_replicate]
  decide

def posting (contentType : String) : Request :=
  ⟨∅, ∅, (Value.object [("id", .str "cert"), ("requiredScope", .str "audit"),
    ("contentType", .str contentType), ("contentHex", .str "0102")]).toString⟩

theorem decoded_posting (k : Signing) (contentType : String) :
    decoded (signingApp k) (posting contentType) decodeEvidence =
      .ok ⟨"cert", contentType, "", "audit", [1, 2]⟩ := by
  have hbody : parseBody (signingApp k) (posting contentType).body = .ok (.object [
      ("id", .str "cert"), ("requiredScope", .str "audit"), ("contentType", .str contentType),
      ("contentHex", .str "0102")]) :=
    parseBody_toString crates_lawful (canonical_fields ⟨trivial, trivial, trivial, trivial⟩)
  have hallowed : requireAdmin (signingApp k) (posting contentType) = .ok () := rfl
  rw [decoded, hallowed, ok_bind, hbody, ok_bind, decodeEvidence, asObject_object, okOr_some,
    ok_bind]
  simp only [lookup_fieldsOf]
  rfl

theorem registerEvidence_posting (k : Signing) (contentType : String) :
    ∃ d, (registerEvidence (signingApp k) (posting contentType) ⟨⟨43200⟩, noon⟩
      (Store.empty crates)).1 = .ok d := by
  have hid : (trim "cert").isEmpty = false := by decide
  have hscope : (trim "audit").isEmpty = false := by decide
  apply registerEvidence_accepted (decoded_posting k contentType) _ hid hscope rfl
  rw [Store.empty, State.initial, Std.ExtTreeMap.contains_empty]

def postedStore (k : Signing) (contentType : String) : Store vocabulary :=
  (registerEvidence (signingApp k) (posting contentType) ⟨⟨43200⟩, noon⟩ (Store.empty crates)).2

theorem postedStore_holds (k : Signing) (contentType : String) :
    (postedStore k contentType).evidence["cert"]? =
      some ⟨"cert", contentType, "", "audit", [1, 2]⟩ := by
  obtain ⟨d, hok⟩ := registerEvidence_posting k contentType
  obtain ⟨e, he, hheld⟩ := registerEvidence_holds hok
  rw [decoded_posting] at he
  rw [← Except.ok.inj he] at hheld
  rw [postedStore]
  exact hheld

def scopedGet : Request := ⟨Std.ExtTreeMap.ofList [("scope", "audit")] compare, ∅, ""⟩

theorem scopeOf_scopedGet : scopeOf scopedGet = "audit" := by rfl

/-- It is released to the second request as to the first. -/
theorem released_headers_certificate :
    ∃ headers, (serve (signingApp constantKeys) .ascending scopedGet ⟨⟨43201⟩, noon⟩
      (respondAll (signingApp constantKeys) (postedStore constantKeys "text/plain")
        [⟨.get, .evidenceOne "cert", some scopedGet, ⟨404, [], []⟩, .ascending, ⟨⟨43201⟩, noon⟩⟩]).2
      (.evidenceOne "cert")).1 = .ok ⟨200, headers, [1, 2]⟩ := by
  obtain ⟨d, hok⟩ := registerEvidence_posting constantKeys "text/plain"
  obtain ⟨e, he, hall⟩ := (released_headers_iff (signingApp constantKeys) crates_lawful
    constantKeys constantKeys_signs).1 _ _ _ _ hok
  rw [decoded_posting] at he
  rw [← Except.ok.inj he] at hall
  have hheaders : Evidence.InHeaders ⟨"cert", "text/plain", "", "audit", [1, 2]⟩ := by decide
  have hreleased := (hall
    [⟨.get, .evidenceOne "cert", some scopedGet, ⟨404, [], []⟩, .ascending, ⟨⟨43201⟩, noon⟩⟩]
    .ascending scopedGet ⟨⟨43201⟩, noon⟩ scopeOf_scopedGet).1.2 hheaders
  rw [postedStore]
  exact hreleased

/-- A content type that ends in a line feed is accepted, and its release aborts. -/
theorem released_aborts :
    (∃ d, (registerEvidence (signingApp constantKeys) (posting "text/plain\n") ⟨⟨43200⟩, noon⟩
      (Store.empty crates)).1 = .ok d) ∧
    decoded (signingApp constantKeys) (posting "text/plain\n") decodeEvidence =
      .ok ⟨"cert", "text/plain\n", "", "audit", [1, 2]⟩ ∧
    scopeOf scopedGet = "audit" ∧
    (serve (signingApp constantKeys) .ascending scopedGet ⟨⟨43201⟩, noon⟩
      (postedStore constantKeys "text/plain\n") (.evidenceOne "cert")).1 = abort := by
  let e : Evidence := ⟨"cert", "text/plain\n", "", "audit", [1, 2]⟩
  have hheaders : ¬ e.InHeaders := by decide
  have hheld := postedStore_holds constantKeys "text/plain\n"
  refine ⟨registerEvidence_posting _ _, decoded_posting _ _, scopeOf_scopedGet, ?_⟩
  generalize postedStore constantKeys "text/plain\n" = s at hheld ⊢
  have hserved := serve_released (A := signingApp constantKeys) (e := e) hheld scopeOf_scopedGet
    .ascending ⟨⟨43201⟩, noon⟩
  exact hserved.trans ((released_iff constantKeys_signs _ e).2 hheaders)

end UnidppTrust
