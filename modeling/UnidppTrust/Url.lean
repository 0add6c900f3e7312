import UnidppTrust.Http
import UnidppTrust.Httpc

namespace UnidppTrust
open Rust
set_option autoImplicit true

def parseU16 (s : String) : Option UInt16 :=
  (parseUsize s).bind fun n => if n < 2 ^ 16 then some (UInt16.ofNat n) else none

def eqIgnoreAsciiCase (s t : String) : Bool := toAsciiLowercase s = toAsciiLowercase t

def rsplitOnceChars (c : Char) : List Char → Option (List Char × List Char)
  | [] => none
  | d :: cs =>
    match rsplitOnceChars c cs with
    | some (a, b) => some (d :: a, b)
    | none => if d = c then some ([], cs) else none

def rsplitOnce (s : String) (c : Char) : Option (String × String) :=
  (rsplitOnceChars c s.toList).map fun (a, b) => (String.ofList a, String.ofList b)

/-- A request URL, whose path has its query string behind it. -/
structure Url where
  host : String
  port : UInt16
  pathAndQuery : String
  deriving DecidableEq

def Url.parseAuthority (s authority : String) : Outcome String (String × UInt16) :=
  match rsplitOnce authority ':' with
  | some (h, p) => do
    let port ← okOr (parseU16 p) ("bad port in `" ++ s ++ "`")
    .ok (h, port)
  | none => .ok (authority, 80)

def Url.parse (s : String) : Outcome String Url := do
  let (scheme, rest) ← okOr (splitOnce s "://") ("URL must be absolute: `" ++ s ++ "`")
  if eqIgnoreAsciiCase scheme "https" then
    fail ("https is not supported by this client: `" ++ s ++ "`")
  if !eqIgnoreAsciiCase scheme "http" then fail ("unsupported URL scheme `" ++ scheme ++ "`")
  let authority := rest.toList.takeWhile (· ≠ '/')
  let found := rest.toList.dropWhile (· ≠ '/')
  let path := if found.isEmpty then "/" else String.ofList found
  let (host, port) ← Url.parseAuthority s (String.ofList authority)
  if host.isEmpty then fail ("URL has no host: `" ++ s ++ "`")
  .ok ⟨host, port, path⟩

def isUnreserved (b : UInt8) : Bool :=
  (65 ≤ b && b ≤ 90) || (97 ≤ b && b ≤ 122) || (48 ≤ b && b ≤ 57) || b = 45 || b = 46 || b = 95 ||
    b = 126

def upperHexDigit (n : Nat) : Char := if n < 10 then Char.ofNat (n + 48) else Char.ofNat (n + 55)

def percentEncoded (b : UInt8) : List Char :=
  if isUnreserved b then [Char.ofNat b.toNat]
  else ['%', upperHexDigit (b.toNat / 16), upperHexDigit (b.toNat % 16)]

def Url.encodeQueryComponent (s : String) : String :=
  String.ofList ((bytes s).flatMap percentEncoded)

theorem splitOnceChars_eq {sep : List Char} (h : splitOnceChars sep cs = some (a, b)) :
    cs = a ++ (sep ++ b) := by
  induction cs generalizing a with
  | nil =>
    rw [splitOnceChars] at h
    split at h
    · rename_i hsep
      cases h
      rw [List.isEmpty_iff.1 hsep]
      rfl
    · cases h
  | cons c cs ih =>
    rw [splitOnceChars] at h
    split at h
    · rename_i hsep
      cases h
      exact (List.prefix_iff_eq_append.1 (List.isPrefixOf_iff_prefix.1 hsep)).symm
    · obtain ⟨⟨a', b'⟩, hsplit, h⟩ := Option.map_eq_some_iff.1 h
      cases h
      rw [ih hsplit, List.cons_append]

theorem splitOnceChars_first (h : c ∉ a) (sep b : List Char) :
    splitOnceChars (c :: sep) (a ++ (c :: sep ++ b)) = some (a, b) := by
  induction a with
  | nil =>
    have hsep : (c :: sep).isPrefixOf (c :: (sep ++ b)) = true :=
      List.isPrefixOf_iff_prefix.2 (List.prefix_append (c :: sep) b)
    rw [List.nil_append, List.cons_append, splitOnceChars, if_pos hsep, ← List.cons_append,
      List.drop_left]
  | cons d a ih =>
    obtain ⟨hd, ha⟩ := not_or.1 (mt List.mem_cons.2 h)
    have hsep : (c :: sep).isPrefixOf (d :: (a ++ (c :: sep ++ b))) = false := by
      rw [List.isPrefixOf_cons_cons, beq_eq_false_iff_ne.2 hd, Bool.false_and]
    rw [List.cons_append, splitOnceChars, hsep, if_neg Bool.false_ne_true, ih ha]
    rfl

theorem rsplitOnceChars_none {c : Char} {cs : List Char} :
    rsplitOnceChars c cs = none ↔ c ∉ cs := by
  induction cs with
  | nil => exact ⟨fun _ => List.not_mem_nil, fun _ => rfl⟩
  | cons d cs ih =>
    rw [rsplitOnceChars, List.mem_cons, not_or]
    cases hsplit : rsplitOnceChars c cs with
    | some ab =>
      have hc : ¬ c ∉ cs := fun hc => by
        rw [ih.2 hc] at hsplit
        cases hsplit
      exact ⟨fun h => (by cases h), fun h => (hc h.2).elim⟩
    | none =>
      by_cases hd : d = c
      · rw [if_pos hd]
        exact ⟨fun h => (by cases h), fun h => (h.1 hd.symm).elim⟩
      · rw [if_neg hd]
        exact ⟨fun _ => ⟨Ne.symm hd, ih.1 hsplit⟩, fun _ => rfl⟩

theorem rsplitOnceChars_append {c : Char} {b : List Char} (h : c ∉ b) (a : List Char) :
    rsplitOnceChars c (a ++ c :: b) = some (a, b) := by
  induction a with
  | nil => rw [List.nil_append, rsplitOnceChars, rsplitOnceChars_none.2 h, if_pos rfl]
  | cons d a ih => rw [List.cons_append, rsplitOnceChars, ih]

theorem rsplitOnceChars_eq {c : Char} {cs a b : List Char}
    (h : rsplitOnceChars c cs = some (a, b)) : cs = a ++ c :: b ∧ c ∉ b := by
  induction cs generalizing a with
  | nil => cases h
  | cons d cs ih =>
    rw [rsplitOnceChars] at h
    cases hsplit : rsplitOnceChars c cs with
    | some ab =>
      rw [hsplit] at h
      obtain ⟨a', b'⟩ := ab
      cases h
      obtain ⟨rfl, hb⟩ := ih hsplit
      exact ⟨rfl, hb⟩
    | none =>
      rw [hsplit] at h
      by_cases hd : d = c
      · rw [if_pos hd] at h
        cases h
        exact ⟨by rw [hd, List.nil_append], rsplitOnceChars_none.1 hsplit⟩
      · rw [if_neg hd] at h
        cases h

theorem parseUsize_eq_some : parseUsize s = some n ↔
    withoutPlus s.toList ≠ [] ∧ (∀ c ∈ withoutPlus s.toList, c.isDigit) ∧
      Nat.ofDigitChars 10 (withoutPlus s.toList) 0 = n ∧ n < 2 ^ 64 := by
  change (if (withoutPlus s.toList).isEmpty = true ∨
      (!(withoutPlus s.toList).all Char.isDigit) = true then none
    else if Nat.ofDigitChars 10 (withoutPlus s.toList) 0 < 2 ^ 64 then
      some (Nat.ofDigitChars 10 (withoutPlus s.toList) 0) else none) = some n ↔ _
  rw [Option.ite_none_left_eq_some, not_or, List.isEmpty_iff, Bool.not_eq_true', Bool.not_eq_false,
    List.all_eq_true, Option.ite_none_right_eq_some, Option.some.injEq, and_assoc]
  exact and_congr_right fun _ => and_congr_right fun _ =>
    ⟨fun h => ⟨h.2, h.2 ▸ h.1⟩, fun h => ⟨h.1.symm ▸ h.2, h.1⟩⟩

theorem parseU16_no_colon (h : parseU16 s = some n) : ':' ∉ s.toList := by
  obtain ⟨m, hm, -⟩ := Option.bind_eq_some_iff.1 h
  obtain ⟨-, hdigits, -⟩ := parseUsize_eq_some.1 hm
  intro hc
  generalize s.toList = cs at hc hdigits
  cases cs with
  | nil => cases hc
  | cons c cs =>
    by_cases hplus : c = '+'
    · subst hplus
      rcases List.mem_cons.1 hc with hc | hc
      · exact absurd hc (by decide)
      · exact absurd (hdigits ':' hc) (by decide)
    · rw [withoutPlus.eq_2 _ fun ds hds => hplus (List.cons.inj hds).1] at hdigits
      exact absurd (hdigits ':' hc) (by decide)

theorem parseUsize_toString {n : Nat} (h : n < 2 ^ 64) : parseUsize (toString n) = some n := by
  have hdigits : ∀ c ∈ Nat.toDigits 10 n, c.isDigit = true := fun c hc =>
    Nat.isDigit_of_mem_toDigits (by decide) (by decide) hc
  have hplus : ∀ ds, Nat.toDigits 10 n ≠ '+' :: ds := fun ds hds =>
    absurd (hdigits '+' (hds ▸ List.mem_cons_self)) (by decide)
  have htext : withoutPlus (toString n).toList = Nat.toDigits 10 n := by
    rw [Nat.toString_eq_repr, Nat.toList_repr, withoutPlus.eq_2 _ hplus]
  rw [parseUsize_eq_some, htext]
  exact ⟨Nat.toDigits_ne_nil, hdigits, Nat.ofDigitChars_ten_toDigits, h⟩

theorem parseU16_toString (n : UInt16) : parseU16 (toString n.toNat) = some n := by
  have hn : n.toNat < 2 ^ 16 := n.toNat_lt
  rw [parseU16, parseUsize_toString (by omega), Option.bind_some, if_pos hn, UInt16.ofNat_toNat]

/-- How an authority spells a host and a port. -/
inductive AuthorityText (host : String) (port : UInt16) : List Char → Prop
  | bare : ':' ∉ host.toList → port = 80 → AuthorityText host port host.toList
  | ported {p : String} : parseU16 p = some port →
      AuthorityText host port (host.toList ++ ':' :: p.toList)

/-- How a path is spelled, or left out. -/
inductive PathText (pathAndQuery : String) : List Char → Prop
  | absent : pathAndQuery = "/" → PathText pathAndQuery []
  | present {cs : List Char} : pathAndQuery.toList = '/' :: cs → PathText pathAndQuery ('/' :: cs)

/-- The texts of a URL, whose scheme may be in either case. -/
def UrlText (u : Url) (s : String) : Prop :=
  ∃ (scheme : String) (authority path : List Char),
    s.toList = scheme.toList ++ ("://".toList ++ (authority ++ path)) ∧
    toAsciiLowercase scheme = "http" ∧ AuthorityText u.host u.port authority ∧
    '/' ∉ authority ∧ PathText u.pathAndQuery path ∧ u.host ≠ ""

/-- The text with everything in it. -/
def Url.text (u : Url) : String :=
  "http://" ++ u.host ++ ":" ++ toString u.port.toNat ++ u.pathAndQuery

theorem parseAuthority_ok {s authority h : String} {p : UInt16} :
    Url.parseAuthority s authority = .ok (h, p) ↔ AuthorityText h p authority.toList := by
  rw [Url.parseAuthority, rsplitOnce]
  cases hsplit : rsplitOnceChars ':' authority.toList with
  | none =>
    have hcolon := rsplitOnceChars_none.1 hsplit
    rw [Option.map_none]
    constructor
    · intro hok
      cases hok
      exact .bare hcolon rfl
    · intro htext
      generalize hcs : authority.toList = cs at htext
      cases htext with
      | bare hno hport =>
        rw [hport, String.toList_inj.1 hcs]
      | ported hp =>
        rw [hcs] at hcolon
        exact (hcolon (List.mem_append_right _ List.mem_cons_self)).elim
  | some ab =>
    obtain ⟨a, b⟩ := ab
    obtain ⟨heq, hb⟩ := rsplitOnceChars_eq hsplit
    rw [Option.map_some, heq]
    constructor
    · intro hok
      obtain ⟨port, hport, hok⟩ := bind_eq_ok hok
      cases hok
      have htext : AuthorityText (String.ofList a) _ _ := .ported (okOr_eq_ok hport)
      rwa [String.toList_ofList, String.toList_ofList] at htext
    · intro htext
      generalize hcs : a ++ ':' :: b = cs at htext
      cases htext with
      | bare hno hport =>
        rw [← hcs] at hno
        exact (hno (List.mem_append_right _ List.mem_cons_self)).elim
      | ported hp =>
        have hsame := rsplitOnceChars_append hb a
        rw [hcs, rsplitOnceChars_append (parseU16_no_colon hp)] at hsame
        cases hsame
        dsimp only
        rw [String.ofList_toList, String.ofList_toList, hp]
        rfl

theorem path_begins {path : List Char} (h : PathText q path) {authority : List Char}
    (hslash : '/' ∉ authority) :
    (authority ++ path).takeWhile (· ≠ '/') = authority ∧
      (authority ++ path).dropWhile (· ≠ '/') = path := by
  have hall : ∀ c ∈ authority, decide (c ≠ '/') = true := fun c hc =>
    decide_eq_true fun heq => hslash (heq ▸ hc)
  rw [List.takeWhile_append_of_pos hall, List.dropWhile_append_of_pos hall]
  cases h with
  | absent => exact ⟨List.append_nil _, rfl⟩
  | present => exact ⟨List.append_nil _, rfl⟩

theorem pathText_ok {rest q : String} :
    PathText q (rest.toList.dropWhile (· ≠ '/')) ↔
      (if (rest.toList.dropWhile (· ≠ '/')).isEmpty then "/"
        else String.ofList (rest.toList.dropWhile (· ≠ '/'))) = q := by
  have hslash := List.head?_dropWhile_not (fun c => decide (c ≠ '/')) rest.toList
  generalize rest.toList.dropWhile (· ≠ '/') = path at hslash
  cases path with
  | nil =>
    constructor
    · intro h
      cases h with
      | absent hq => exact hq.symm
    · intro h
      exact .absent h.symm
  | cons c cs =>
    have hc : c = '/' := by simpa using hslash
    subst hc
    constructor
    · intro h
      cases h with
      | present hq => exact String.toList_inj.1 (by rw [hq]; exact String.toList_ofList)
    · intro h
      exact .present (by rw [← h]; exact String.toList_ofList)

theorem scheme_no_colon (h : toAsciiLowercase scheme = "http") : ':' ∉ scheme.toList := by
  intro hc
  have hmem : (':' : Char).toLower ∈ (toAsciiLowercase scheme).toList := by
    rw [toAsciiLowercase, String.toList_ofList]
    exact List.mem_map_of_mem hc
  rw [h] at hmem
  exact absurd hmem (by decide)

theorem Url.text_of_parse {s : String} {u : Url} (h : Url.parse s = .ok u) : UrlText u s := by
  obtain ⟨⟨scheme, rest⟩, hsplit, h⟩ := bind_eq_ok h
  obtain ⟨-, h⟩ := check_eq_ok h
  obtain ⟨hscheme, h⟩ := check_eq_ok h
  obtain ⟨⟨host, port⟩, hauthority, h⟩ := bind_eq_ok h
  obtain ⟨hhost, h⟩ := check_eq_ok h
  cases h
  obtain ⟨⟨a, b⟩, hab, heq⟩ := Option.map_eq_some_iff.1 (okOr_eq_ok hsplit)
  cases heq
  have hlower : toAsciiLowercase (String.ofList a) = "http" := by
    rw [Bool.not_eq_true, Bool.not_eq_false', eqIgnoreAsciiCase, decide_eq_true_eq] at hscheme
    exact hscheme.trans (by decide)
  have htext := parseAuthority_ok.1 hauthority
  rw [String.toList_ofList] at htext
  refine ⟨String.ofList a, _, _, ?_, hlower, htext, fun hmem => ?_, pathText_ok.2 rfl,
    fun hempty => hhost (String.isEmpty_iff.2 hempty)⟩
  · have hb : (String.ofList b).toList = b := String.toList_ofList
    rw [List.takeWhile_append_dropWhile, String.toList_ofList, hb]
    exact splitOnceChars_eq hab
  · exact absurd (List.mem_takeWhile_imp hmem) (by decide)

/-- The client takes every text of a URL. -/
theorem UrlText.parse {u : Url} {s : String} (h : UrlText u s) : Url.parse s = .ok u := by
  obtain ⟨scheme, authority, path, hs, hscheme, hauthority, hslash, hpath, hhost⟩ := h
  have hsplit : splitOnce s "://" = some (scheme, String.ofList (authority ++ path)) := by
    have hfirst := splitOnceChars_first (scheme_no_colon hscheme) ['/', '/'] (authority ++ path)
    rw [splitOnce, hs]
    refine (congrArg (Option.map _) hfirst).trans ?_
    rw [Option.map_some, Option.some.injEq]
    exact Prod.ext String.ofList_toList rfl
  have hhttp : eqIgnoreAsciiCase scheme "http" = true :=
    decide_eq_true (hscheme.trans (by decide))
  have hhttps : ¬ eqIgnoreAsciiCase scheme "https" = true := by
    rw [eqIgnoreAsciiCase, hscheme]
    decide
  obtain ⟨htake, hdrop⟩ := path_begins hpath hslash
  have hrest : (String.ofList (authority ++ path)).toList = authority ++ path :=
    String.toList_ofList
  have hq : PathText u.pathAndQuery
      ((String.ofList (authority ++ path)).toList.dropWhile (· ≠ '/')) := by
    rw [hrest, hdrop]
    exact hpath
  have hport : Url.parseAuthority s (String.ofList authority) = .ok (u.host, u.port) :=
    parseAuthority_ok.2 (by rw [String.toList_ofList]; exact hauthority)
  have hne : ¬ u.host.isEmpty = true := mt String.isEmpty_iff.1 hhost
  rw [Url.parse, hsplit, okOr_some, ok_bind]
  dsimp only
  rw [if_neg hhttps, hhttp, pathText_ok.1 hq, hrest, htake, hport]
  exact if_neg hne

/-- Every URL the client takes is taken again, the same, when it is written out in full. -/
theorem Url.parse_text {s : String} {u : Url} (h : Url.parse s = .ok u) :
    Url.parse u.text = .ok u := by
  obtain ⟨scheme, authority, path, -, -, hauthority, hslash, hpath, hhost⟩ := Url.text_of_parse h
  have hhostSlash : '/' ∉ u.host.toList := by
    cases hauthority with
    | bare => exact hslash
    | ported => exact fun hmem => hslash (List.mem_append_left _ hmem)
  have hportSlash : '/' ∉ (toString u.port.toNat).toList := by
    intro hmem
    rw [Nat.toString_eq_repr, Nat.toList_repr] at hmem
    exact absurd (Nat.isDigit_of_mem_toDigits (by decide) (by decide) hmem) (by decide)
  have hpresent : PathText u.pathAndQuery u.pathAndQuery.toList := by
    cases hpath with
    | absent hq =>
      rw [hq]
      exact .present rfl
    | present hq =>
      rw [hq]
      exact .present hq
  refine UrlText.parse ⟨"http", _, _, ?_, by decide, .ported (parseU16_toString u.port), ?_,
    hpresent, hhost⟩
  · simp only [Url.text, String.toList_append, List.append_assoc, List.cons_append]
    rfl
  · rw [List.mem_append, List.mem_cons, not_or, not_or]
    exact ⟨hhostSlash, by decide, hportSlash⟩

theorem url_text_exact (s : String) (u : Url) :
    (Url.parse s = .ok u ↔ UrlText u s) ∧
    (Url.parse s = .ok u → Url.parse u.text = .ok u) :=
  ⟨⟨Url.text_of_parse, UrlText.parse⟩, Url.parse_text⟩

/-- One form of the text of a URL that leaves its port and its path out. -/
theorem url_text_exact_example :
    (Url.parse "HTTP://example.org" = .ok ⟨"example.org", 80, "/"⟩ ↔
      UrlText ⟨"example.org", 80, "/"⟩ "HTTP://example.org") ∧
    (Url.parse "HTTP://example.org" = .ok ⟨"example.org", 80, "/"⟩ →
      Url.parse "http://example.org:80/" = .ok ⟨"example.org", 80, "/"⟩) :=
  url_text_exact "HTTP://example.org" ⟨"example.org", 80, "/"⟩

def percentDecode : List Char → Option Bytes
  | [] => some []
  | '%' :: h :: l :: cs =>
    (toDigit h).bind fun h => (toDigit l).bind fun l =>
      (percentDecode cs).map (UInt8.ofNat (16 * h + l) :: ·)
  | c :: cs => if c = '%' then none else (percentDecode cs).map (UInt8.ofNat c.toNat :: ·)

theorem percentDecode_cons {c : Char} (h : c ≠ '%') (cs : List Char) :
    percentDecode (c :: cs) = (percentDecode cs).map (UInt8.ofNat c.toNat :: ·) := by
  rw [percentDecode.eq_3 _ _ fun _ _ _ hc => (h hc).elim, if_neg h]

theorem toDigit_upperHexDigit {n : Nat} (h : n < 16) : toDigit (upperHexDigit n) = some n := by
  have hall : ∀ n : Fin 16, toDigit (upperHexDigit n.val) = some n.val := by decide
  exact hall ⟨n, h⟩

theorem percentEncoded_cases (b : UInt8) :
    (isUnreserved b = true ∧ ∃ c, percentEncoded b = [c] ∧ c ≠ '%' ∧ c.toNat = b.toNat) ∨
    (isUnreserved b = false ∧ percentEncoded b =
      ['%', upperHexDigit (b.toNat / 16), upperHexDigit (b.toNat % 16)]) := by
  cases hb : isUnreserved b with
  | false => exact .inr ⟨rfl, by rw [percentEncoded, hb, if_neg Bool.false_ne_true]⟩
  | true =>
    have hchar : ∀ n : Fin 256, isUnreserved (UInt8.ofNat n.val) = true →
        Char.ofNat n.val ≠ '%' ∧ (Char.ofNat n.val).toNat = n.val := by decide +kernel
    have hself : UInt8.ofNat b.toNat = b := UInt8.ofNat_toNat
    obtain ⟨hne, hval⟩ := hchar ⟨b.toNat, b.toNat_lt⟩ (by rw [hself]; exact hb)
    exact .inl ⟨rfl, _, by rw [percentEncoded, hb, if_pos rfl], hne, hval⟩

theorem percentDecode_encoded (b : UInt8) (cs : List Char) :
    percentDecode (percentEncoded b ++ cs) = (percentDecode cs).map (b :: ·) := by
  rcases percentEncoded_cases b with ⟨-, c, henc, hc, hval⟩ | ⟨-, henc⟩
  · rw [henc, List.singleton_append, percentDecode_cons hc, hval, UInt8.ofNat_toNat]
  · have hhigh : b.toNat / 16 < 16 := by
      have := b.toNat_lt
      omega
    have hbyte : UInt8.ofNat (16 * (b.toNat / 16) + b.toNat % 16) = b := by
      rw [Nat.div_add_mod, UInt8.ofNat_toNat]
    rw [henc, List.cons_append, List.cons_append, List.cons_append, List.nil_append,
      percentDecode, toDigit_upperHexDigit hhigh, toDigit_upperHexDigit (Nat.mod_lt _ (by decide)),
      Option.bind_some, Option.bind_some, hbyte]

def isComponentChar (c : Char) : Bool :=
  c = '%' || (decide (c.toNat < 128) && isUnreserved (UInt8.ofNat c.toNat))

theorem percentEncoded_chars (b : UInt8) : ∀ c ∈ percentEncoded b, isComponentChar c = true := by
  intro c hc
  rcases percentEncoded_cases b with ⟨hb, d, henc, -, hval⟩ | ⟨-, henc⟩
  · rw [henc, List.mem_singleton] at hc
    subst hc
    have hascii : ∀ n : Fin 256, isUnreserved (UInt8.ofNat n.val) = true → n.val < 128 := by
      decide +kernel
    have hself : UInt8.ofNat b.toNat = b := UInt8.ofNat_toNat
    have hlt := hascii ⟨b.toNat, b.toNat_lt⟩ (by rw [hself]; exact hb)
    rw [isComponentChar, hval, hself, hb, Bool.and_true, Bool.or_eq_true]
    exact .inr (decide_eq_true hlt)
  · have hdigit : ∀ n : Fin 16, isComponentChar (upperHexDigit n.val) = true := by decide
    have hhigh : b.toNat / 16 < 16 := by
      have := b.toNat_lt
      omega
    rw [henc] at hc
    rcases List.mem_cons.1 hc with rfl | hc
    · rfl
    rcases List.mem_cons.1 hc with rfl | hc
    · exact hdigit ⟨_, hhigh⟩
    · rw [List.mem_singleton.1 hc]
      exact hdigit ⟨_, Nat.mod_lt _ (by decide)⟩

theorem percentDecode_flatMap (b : Bytes) : percentDecode (b.flatMap percentEncoded) = some b := by
  induction b with
  | nil => rfl
  | cons b bs ih => rw [List.flatMap_cons, percentDecode_encoded, ih, Option.map_some]

/-- An encoded component spells the bytes of its text, in characters that neither end a component
nor a line. -/
theorem query_component_round_trip (s : String) :
    percentDecode (Url.encodeQueryComponent s).toList = some (bytes s) ∧
    ∀ c ∈ (Url.encodeQueryComponent s).toList, isComponentChar c = true := by
  rw [Url.encodeQueryComponent, String.toList_ofList]
  refine ⟨percentDecode_flatMap _, fun c hc => ?_⟩
  obtain ⟨b, -, hc⟩ := List.mem_flatMap.1 hc
  exact percentEncoded_chars b c hc

example : Url.encodeQueryComponent "2026-01-01T00:00:00Z" = "2026-01-01T00%3A00%3A00Z" := by decide

end UnidppTrust
