import UnidppTrust.ClientReads

namespace UnidppTrust
open Rust Incremental
set_option autoImplicit true

theorem lossyChars_utf8 (h : (utf8 cs).length ≤ n) : lossyChars n (utf8 cs) = cs := by
  induction n generalizing cs with
  | zero => rw [utf8_eq_nil.1 (List.length_eq_zero_iff.1 (Nat.le_zero.1 h)), lossyChars]
  | succ n ih =>
    rw [lossyChars]
    cases cs with
    | nil => rw [utf8_nil, if_pos rfl]
    | cons c cs =>
      have hchar : (utf8 (c :: cs)).toByteArray.utf8DecodeChar? 0 = some c := by
        rw [toByteArray_utf8, List.utf8DecodeChar?_utf8Encode_cons]
      have hsize : (String.utf8EncodeChar c).length = c.utf8Size := String.length_utf8EncodeChar c
      have hne : utf8 (c :: cs) ≠ [] := mt utf8_eq_nil.1 (List.cons_ne_nil c cs)
      rw [if_neg hne, hchar]
      dsimp only
      rw [utf8_cons, List.length_append, hsize] at h
      have hpos := c.utf8Size_pos
      rw [utf8_cons, List.drop_left' hsize, ih (by omega)]

@[simp] theorem fromUtf8Lossy_bytes (s : String) : fromUtf8Lossy (bytes s) = s := by
  rw [fromUtf8Lossy, bytes, lossyChars_utf8 (Nat.le_refl _), String.ofList_toList]

def IsLine (line : List Char) : Prop := line ≠ [] ∧ '\r' ∉ line ∧ '\n' ∉ line

def headText (lines : List (List Char)) : List Char :=
  lines.flatMap (· ++ ['\r', '\n']) ++ ['\r', '\n']

section Lines
variable {line : List Char} {lines : List (List Char)}

theorem headText_cons (line : List Char) (lines : List (List Char)) :
    headText (line :: lines) = line ++ '\r' :: '\n' :: headText lines := by
  rw [headText, headText, List.flatMap_cons, List.append_assoc, List.append_assoc]
  rfl

theorem splitCrlf_line (h : '\r' ∉ line) (rest : List Char) :
    splitCrlf (line ++ '\r' :: '\n' :: rest) = line :: splitCrlf rest := by
  induction line with
  | nil => rfl
  | cons c line ih =>
    obtain ⟨hc, hline⟩ := not_or.1 (mt List.mem_cons.2 h)
    rw [List.cons_append, splitCrlf.eq_3 _ _ fun _ hcr => (hc hcr.symm).elim, ih hline]

theorem splitCrlf_headText (h : ∀ line ∈ lines, IsLine line) :
    splitCrlf (headText lines) = lines ++ [[], []] := by
  induction lines with
  | nil => rfl
  | cons line lines ih =>
    have hline := (h line List.mem_cons_self).2.1
    rw [headText_cons, splitCrlf_line hline, ih fun l hl => h l (List.mem_cons_of_mem line hl),
      List.cons_append]

theorem IsLine.no_return (h : IsLine line) : 13 ∉ utf8 line := by
  intro hmem
  obtain ⟨c, hc, hval⟩ := (mem_utf8_ascii (by decide)).1 hmem
  have hcr : c = '\r' := Char.toNat_inj.1 hval
  exact h.2.1 (hcr ▸ hc)

theorem findSubslice_skip {line : Bytes} (h : 13 ∉ line) (rest : Bytes) :
    findSubslice headEnd (line ++ rest) = (findSubslice headEnd rest).map (· + line.length) := by
  induction line with
  | nil => exact Option.map_id'.symm
  | cons b line ih =>
    obtain ⟨hb, hline⟩ := not_or.1 (mt List.mem_cons.2 h)
    have hnot : headEnd.isPrefixOf (b :: (line ++ rest)) = false := by
      rw [headEnd, List.isPrefixOf_cons_cons, beq_eq_false_iff_ne.2 hb, Bool.false_and]
    rw [List.cons_append, findSubslice, hnot, if_neg Bool.false_ne_true, ih hline, Option.map_map]
    rfl

theorem findSubslice_line_end {b : UInt8} (h : b ≠ 13) (rest : Bytes) :
    findSubslice headEnd (13 :: 10 :: b :: rest) =
      (findSubslice headEnd (b :: rest)).map (· + 2) := by
  have hfirst : headEnd.isPrefixOf (13 :: 10 :: b :: rest) = false := by
    rw [headEnd, List.isPrefixOf_cons_cons, List.isPrefixOf_cons_cons, List.isPrefixOf_cons_cons,
      beq_eq_false_iff_ne.2 h.symm, Bool.false_and, Bool.and_false, Bool.and_false]
  have hsecond : headEnd.isPrefixOf (10 :: b :: rest) = false := rfl
  rw [findSubslice, hfirst, if_neg Bool.false_ne_true, findSubslice, hsecond,
    if_neg Bool.false_ne_true, Option.map_map]
  rfl

theorem findSubslice_headText (hne : lines ≠ []) (h : ∀ line ∈ lines, IsLine line)
    (rest : Bytes) : ∃ i, findSubslice headEnd (utf8 (headText lines) ++ rest) = some i ∧
      i + 4 = (utf8 (headText lines)).length := by
  induction lines with
  | nil => exact (hne rfl).elim
  | cons line lines ih =>
    have hskip := findSubslice_skip (h line List.mem_cons_self).no_return
    have hcrlf : utf8 ('\r' :: '\n' :: headText lines) = 13 :: 10 :: utf8 (headText lines) := rfl
    rw [headText_cons, utf8_append, List.append_assoc, hskip, hcrlf, List.length_append]
    cases lines with
    | nil => exact ⟨0 + (utf8 line).length, rfl, by rw [Nat.zero_add]; rfl⟩
    | cons next lines =>
      have hnext := h next (List.mem_cons_of_mem line List.mem_cons_self)
      obtain ⟨i, hi, hlen⟩ := ih (List.cons_ne_nil next lines)
        fun l hl => h l (List.mem_cons_of_mem line hl)
      obtain ⟨b, bs, hb⟩ := List.exists_cons_of_ne_nil (mt utf8_eq_nil.1 hnext.1)
      have hreturn : b ≠ 13 := fun heq =>
        hnext.no_return (by rw [hb, heq]; exact List.mem_cons_self)
      have hbegin : ∃ t, utf8 (headText (next :: lines)) ++ rest = b :: t := by
        rw [headText_cons, utf8_append, hb]
        exact ⟨_, rfl⟩
      obtain ⟨t, ht⟩ := hbegin
      refine ⟨i + 2 + (utf8 line).length, ?_, ?_⟩
      · rw [List.cons_append, List.cons_append, ht, findSubslice_line_end hreturn, ← ht, hi]
        rfl
      · rw [List.length_cons, List.length_cons, ← hlen]
        omega

theorem isLine_of_plain (hne : line ≠ []) (h : ∀ c ∈ line, c ≠ '\r' ∧ c ≠ '\n') : IsLine line :=
  ⟨hne, fun hc => (h _ hc).1 rfl, fun hc => (h _ hc).2 rfl⟩

end Lines

structure HeaderField where
  name : String
  value : String
  plain : ∀ c ∈ name.toList ++ value.toList, c ≠ '\r' ∧ c ≠ '\n'
  noColon : ':' ∉ name.toList
  trimmed : trim name = name ∧ trim value = value

def HeaderField.line (f : HeaderField) : List Char := f.name.toList ++ ':' :: ' ' :: f.value.toList

def HeaderField.pair (f : HeaderField) : String × String := (f.name, f.value)

theorem HeaderField.isLine (f : HeaderField) : IsLine f.line := by
  refine isLine_of_plain (List.append_ne_nil_of_right_ne_nil _ (List.cons_ne_nil _ _))
    fun c hc => ?_
  rcases List.mem_append.1 hc with hc | hc
  · exact f.plain c (List.mem_append_left _ hc)
  rcases List.mem_cons.1 hc with rfl | hc
  · decide
  rcases List.mem_cons.1 hc with rfl | hc
  · decide
  · exact f.plain c (List.mem_append_right _ hc)

theorem headerLine_line (f : HeaderField) : headerLine f.line = some f.pair := by
  have hsplit : splitOnce (String.ofList f.line) ":" =
      some (f.name, String.ofList (' ' :: f.value.toList)) := by
    have hfirst := splitOnceChars_first f.noColon [] (' ' :: f.value.toList)
    have hline : (String.ofList f.line).toList = f.line := String.toList_ofList
    rw [splitOnce, hline]
    refine (congrArg (Option.map _) hfirst).trans ?_
    rw [Option.map_some, Option.some.injEq]
    exact Prod.ext String.ofList_toList rfl
  have htrim : trim (String.ofList (' ' :: f.value.toList)) = trim f.value := by
    rw [trim, trim, String.toList_ofList]
    rfl
  have hne : ¬ f.line.isEmpty = true := mt List.isEmpty_iff.1 f.isLine.1
  rw [headerLine, if_neg hne, hsplit, Option.map_some]
  dsimp only
  rw [htrim, f.trimmed.1, f.trimmed.2, HeaderField.pair]

/-- How the body of a message stands in the stream. -/
inductive Framing (headers : List (String × String)) where
  | chunked (h : isChunked headers = true) (m : ChunkedBody)
  | sized (h : isChunked headers = false) (body : Bytes)
      (hlen : contentLength headers = some body.length)
  | untilClose (h : isChunked headers = false) (body : Bytes) (hlen : contentLength headers = none)

def Framing.wire : Framing headers → Bytes
  | .chunked _ m => m.encoded.1
  | .sized _ body _ => body
  | .untilClose _ body _ => body

def Framing.body : Framing headers → Bytes
  | .chunked _ m => m.body
  | .sized _ body _ => body
  | .untilClose _ body _ => body

structure Message where
  version : String
  status : UInt16
  reason : String
  fields : List HeaderField
  framing : Framing (fields.map HeaderField.pair)
  isWord : version ≠ "" ∧ ∀ c ∈ version.toList, isWhitespace c = false
  plain : ∀ c ∈ reason.toList, c ≠ '\r' ∧ c ≠ '\n'

def Message.statusLine (m : Message) : List Char :=
  m.version.toList ++ ' ' :: ((toString m.status.toNat).toList ++ ' ' :: m.reason.toList)

def Message.lines (m : Message) : List (List Char) :=
  m.statusLine :: m.fields.map HeaderField.line

def Message.head (m : Message) : Bytes := utf8 (headText m.lines)

def Message.encoded (m : Message) : Bytes := m.head ++ m.framing.wire

def Message.response (m : Message) : HttpResponse :=
  ⟨m.status, m.fields.map HeaderField.pair, m.framing.body⟩

theorem digit_plain (h : c ∈ (toString (n : Nat)).toList) : isWhitespace c = false := by
  rw [Nat.toString_eq_repr, Nat.toList_repr] at h
  have hdigit := Nat.isDigit_of_mem_toDigits (by decide) (by decide) h
  rw [Char.isDigit_iff_toNat] at hdigit
  change 48 ≤ c.toNat ∧ c.toNat ≤ 57 at hdigit
  simp [isWhitespace]
  omega

theorem plain_of_not_whitespace (h : isWhitespace c = false) : c ≠ '\r' ∧ c ≠ '\n' := by
  constructor
  · rintro rfl
    cases h
  · rintro rfl
    cases h

theorem Message.lines_isLine (m : Message) : ∀ line ∈ m.lines, IsLine line := by
  intro line hline
  rcases List.mem_cons.1 hline with rfl | hline
  · refine isLine_of_plain (List.append_ne_nil_of_right_ne_nil _ (List.cons_ne_nil _ _))
      fun c hc => ?_
    rcases List.mem_append.1 hc with hc | hc
    · exact plain_of_not_whitespace (m.isWord.2 c hc)
    rcases List.mem_cons.1 hc with rfl | hc
    · decide
    rcases List.mem_append.1 hc with hc | hc
    · exact plain_of_not_whitespace (digit_plain hc)
    rcases List.mem_cons.1 hc with rfl | hc
    · decide
    · exact m.plain c hc
  · obtain ⟨f, -, rfl⟩ := List.mem_map.1 hline
    exact f.isLine

theorem splitWhitespace_word {word : List Char} (hne : word ≠ [])
    (h : ∀ c ∈ word, isWhitespace c = false) (rest : List Char) :
    splitWhitespace (word ++ ' ' :: rest) = word :: splitWhitespace rest := by
  rw [splitWhitespace, List.splitOnP_append_cons_of_forall_mem h ' ' rfl, splitWhitespace,
    List.filter_cons_of_pos]
  cases word with
  | nil => exact (hne rfl).elim
  | cons c cs => rfl

theorem parseHead_head (m : Message) :
    parseHead m.head = .ok (m.status, m.fields.map HeaderField.pair) := by
  have htext : fromUtf8Lossy m.head = String.ofList (headText m.lines) := by
    have hbytes := fromUtf8Lossy_bytes (String.ofList (headText m.lines))
    rwa [bytes, String.toList_ofList] at hbytes
  have hversion : m.version.toList ≠ [] := fun h => m.isWord.1 (String.toList_inj.1 h)
  have hdigits : (toString m.status.toNat).toList ≠ [] := by
    rw [Nat.toString_eq_repr, Nat.toList_repr]
    exact Nat.toDigits_ne_nil
  have hwords : (splitWhitespace m.statusLine)[1]? = some (toString m.status.toNat).toList := by
    rw [Message.statusLine, splitWhitespace_word hversion m.isWord.2,
      splitWhitespace_word hdigits fun c hc => digit_plain hc]
    rfl
  have hfields : (m.fields.map HeaderField.line ++ [[], []]).filterMap headerLine =
      m.fields.map HeaderField.pair := by
    rw [List.filterMap_append, List.filterMap_map]
    have hnone : [[], []].filterMap headerLine = [] := rfl
    rw [hnone, List.append_nil, ← List.filterMap_eq_map]
    exact congrArg (List.filterMap · m.fields) (funext headerLine_line)
  rw [parseHead, htext, String.toList_ofList, splitCrlf_headText m.lines_isLine]
  simp only [Message.lines, List.cons_append, List.headD_cons, List.tail_cons, hwords,
    Option.bind_some, String.ofList_toList, parseU16_toString, okOr_some, ok_bind, hfields]

/-- The head of a message is read as it is meant, whatever is behind it. -/
theorem responseOf_head (checks : Bool) (m : Message) (b : Bytes) (e : Ending String) :
    responseOf checks (m.head ++ b) e =
      bodyOf checks (m.fields.map HeaderField.pair) b e >>= fun body =>
        .ok { m.response with body := body } := by
  have hne : m.lines ≠ [] := List.cons_ne_nil _ _
  obtain ⟨i, hi, hlen⟩ := findSubslice_headText hne m.lines_isLine b
  rw [← Message.head] at hi hlen
  rw [responseOf, hi]
  dsimp only
  rw [hlen, List.take_left' rfl, List.drop_left' rfl, parseHead_head]
  rfl

def Framing.untilEnd : Framing headers → Bool
  | .untilClose _ _ _ => true
  | _ => false

theorem chunkedOf_encoded (checks : Bool) (m : ChunkedBody) (extra : Bytes)
    (hfits : (m.encoded.1 ++ extra).length < 2 ^ 63) (e : Ending String) :
    chunkedOf checks (m.encoded.1 ++ extra) e = .ok m.body := by
  have hbody : decodeChunkedBody checks m.encoded = .ok m.body := by
    rcases decode_prefix checks m m.encoded List.prefix_rfl with h | ⟨-, h⟩
    · exact h
    · exact (h rfl).elim
  rw [chunkedOf, dif_pos hfits]
  have hpart : m.encoded.1 <+: (⟨_, hfits⟩ : Slice).1 := List.prefix_append _ _
  rcases decode_mono checks hpart with ⟨e, h⟩ | h
  · rw [hbody] at h
    cases h
  · rw [h, hbody]

theorem bodyOf_plain (h : isChunked headers = false) (b : Bytes) (e : Ending String) :
    bodyOf checks headers b e =
      match contentLength headers with
      | some n => if n ≤ b.length then .ok (b.take n) else endOfStream (.ok b) e
      | none => endOfStream (.ok b) e := if_neg (Bool.eq_false_iff.1 h)

theorem bodyOf_wire (checks : Bool) (f : Framing headers) (extra : Bytes)
    (hfits : (f.wire ++ extra).length < 2 ^ 63) (e : Ending String)
    (hend : f.untilEnd = true → extra = [] ∧ e = .closed) :
    bodyOf checks headers (f.wire ++ extra) e = .ok f.body := by
  cases f with
  | chunked h m =>
    rw [bodyOf, if_pos h]
    exact chunkedOf_encoded checks m extra hfits e
  | sized h body hlen =>
    have hle : body.length ≤ (body ++ extra).length := by
      rw [List.length_append]
      omega
    rw [bodyOf_plain h, hlen]
    exact (if_pos hle).trans (congrArg _ (List.take_left' rfl))
  | untilClose h body hlen =>
    obtain ⟨rfl, rfl⟩ := hend rfl
    rw [bodyOf_plain h, hlen, List.append_nil]
    rfl

theorem endOfStream_part {part body : Bytes} (h : part <+: body) (e : Ending String) :
    (∃ m : String, endOfStream (.ok part) e = fail m) ∨
      ∃ b, (endOfStream (.ok part) e : Outcome String Bytes) = .ok b ∧ b <+: body ∧
        (b = body ∨ e = .closed) := by
  cases e with
  | idle => exact .inl ⟨_, rfl⟩
  | failed m => exact .inl ⟨m, rfl⟩
  | closed => exact .inr ⟨part, rfl, h, .inr rfl⟩

/-- A part of a body: an error, or the body, or what a stream that is closed too early has of it,
where no chunks tell its end. -/
theorem bodyOf_part (checks : Bool) (f : Framing headers) {part : Bytes} (h : part <+: f.wire)
    (hfits : part.length < 2 ^ 63) (e : Ending String) :
    (∃ m, bodyOf checks headers part e = fail m) ∨
      ∃ b, bodyOf checks headers part e = .ok b ∧ b <+: f.body ∧
        (b = f.body ∨ isChunked headers = false ∧ e = .closed) := by
  cases f with
  | chunked hchunked m =>
    rw [bodyOf, if_pos hchunked, chunkedOf, dif_pos hfits]
    rcases decode_prefix checks m ⟨part, hfits⟩ h with hd | ⟨⟨x, hd⟩, -⟩
    · rw [hd]
      exact .inr ⟨m.body, rfl, List.prefix_rfl, .inl rfl⟩
    · rw [hd]
      cases e with
      | idle => exact .inl ⟨_, rfl⟩
      | failed m => exact .inl ⟨m, rfl⟩
      | closed => exact .inl ⟨_, rfl⟩
  | sized hn body hlen =>
    rw [bodyOf_plain hn, hlen, hn]
    dsimp only
    by_cases hle : body.length ≤ part.length
    · have hpart : part = body := h.eq_of_length_le hle
      rw [if_pos hle, hpart, List.take_length]
      exact .inr ⟨body, rfl, List.prefix_rfl, .inl rfl⟩
    · rw [if_neg hle]
      rcases endOfStream_part h e with hm | ⟨b, hb, hp, hb' | he⟩
      · exact .inl hm
      · exact .inr ⟨b, hb, hp, .inl hb'⟩
      · exact .inr ⟨b, hb, hp, .inr ⟨rfl, he⟩⟩
  | untilClose hn body hlen =>
    rw [bodyOf_plain hn, hlen, hn]
    rcases endOfStream_part h e with hm | ⟨b, hb, hp, hb' | he⟩
    · exact .inl hm
    · exact .inr ⟨b, hb, hp, .inl hb'⟩
    · exact .inr ⟨b, hb, hp, .inr ⟨rfl, he⟩⟩

/-- A message that arrives is the response, wherever the reads fall. -/
theorem message_received (checks : Bool) (m : Message) (reads : List Read) (extra : Bytes)
    (hfits : (m.encoded ++ extra).length < 2 ^ 63) (hbytes : received reads = m.encoded ++ extra)
    (hend : m.framing.untilEnd = true → extra = [] ∧ ending reads = .closed) :
    readResponse checks reads = .ok m.response := by
  rw [Message.encoded, List.append_assoc] at hfits hbytes
  have hwire : (m.framing.wire ++ extra).length < 2 ^ 63 := by
    rw [List.length_append] at hfits
    omega
  rw [readResponse_eq checks reads (hbytes ▸ hfits), hbytes, responseOf_head,
    bodyOf_wire checks m.framing extra hwire _ hend]
  rfl

theorem chars_plain {cs : List Char} (h : cs.all (fun c => c ≠ '\r' && c ≠ '\n') = true) :
    ∀ c ∈ cs, c ≠ '\r' ∧ c ≠ '\n' := by
  intro c hc
  rw [← Bool.and_eq_true_iff.trans (and_congr decide_eq_true_iff decide_eq_true_iff)]
  exact List.all_eq_true.1 h c hc

def okMessage : Message where
  version := "HTTP/1.1"
  status := 200
  reason := "OK"
  fields := [⟨"content-length", "2", chars_plain (by decide), by decide, by decide⟩]
  framing := .sized (by decide) (bytes "[]") (by decide)
  isWord := ⟨by decide, fun c hc => by
    have hall : "HTTP/1.1".toList.all (fun c => !isWhitespace c) = true := by decide
    simpa using List.all_eq_true.1 hall c hc⟩
  plain := chars_plain (by decide)

theorem message_received_example :
    readResponse true [.ok (bytes "HTTP/1.1 200 OK\r\ncontent-"),
        .ok (bytes "length: 2\r\n\r\n["), .ok (bytes "]")] =
      .ok ⟨200, [("content-length", "2")], bytes "[]"⟩ :=
  message_received true okMessage _ [] (by decide +kernel) (by decide +kernel)
    (fun h => by cases h)

/-- A message that is cut off is an error, or has the head it was sent with, and a part of its
body. -/
theorem message_cut (checks : Bool) (m : Message) (reads : List Read)
    (hfits : m.encoded.length < 2 ^ 63) (h : received reads <+: m.encoded) :
    (∃ e, readResponse checks reads = fail e) ∨
      ∃ b, readResponse checks reads = .ok { m.response with body := b } ∧ b <+: m.framing.body ∧
        (b = m.framing.body ∨
          isChunked m.response.headers = false ∧ ending reads = .closed) := by
  have hreads : (received reads).length < 2 ^ 63 := Nat.lt_of_le_of_lt h.length_le hfits
  rw [readResponse_eq checks reads hreads]
  cases hfound : findSubslice headEnd (received reads) with
  | none =>
    rw [responseOf, hfound]
    cases ending reads with
    | idle => exact .inl ⟨_, rfl⟩
    | failed e => exact .inl ⟨e, rfl⟩
    | closed => exact .inl ⟨_, rfl⟩
  | some i =>
    -- the head has come whole, since its end is found first in the whole message
    have hne : m.lines ≠ [] := List.cons_ne_nil _ _
    obtain ⟨j, hj, hlen⟩ := findSubslice_headText hne m.lines_isLine m.framing.wire
    rw [← Message.head] at hj hlen
    obtain ⟨r, hr⟩ := h
    have hwhole : findSubslice headEnd m.encoded = some i := by
      rw [← hr]
      exact findSubslice_append hfound r
    have hij : i = j := Option.some.inj (hwhole.symm.trans hj)
    have hbound := findSubslice_bound hfound (List.cons_ne_nil _ _)
    change i + 4 ≤ (received reads).length at hbound
    obtain ⟨heq, hpart⟩ := prefix_beyond (⟨r, hr⟩ : received reads <+: m.head ++ m.framing.wire)
      (by omega)
    have hdrop : ((received reads).drop m.head.length).length < 2 ^ 63 := by
      rw [List.length_drop]
      omega
    rw [heq, responseOf_head]
    rcases bodyOf_part checks m.framing hpart hdrop (ending reads) with ⟨e, he⟩ | ⟨b, hb, hcut⟩
    · rw [he]
      exact .inl ⟨e, rfl⟩
    · rw [hb]
      exact .inr ⟨b, rfl, hcut⟩

theorem message_cut_example :
    (∃ e, readResponse true [.ok (bytes "HTTP/1.1 200 OK\r\ncontent-length: 2\r\n\r\n["),
        .ok []] = fail e) ∨
      ∃ b, readResponse true [.ok (bytes "HTTP/1.1 200 OK\r\ncontent-length: 2\r\n\r\n["),
          .ok []] = .ok { okMessage.response with body := b } ∧ b <+: bytes "[]" ∧
        (b = bytes "[]" ∨ isChunked okMessage.response.headers = false ∧
          ending [.ok (bytes "HTTP/1.1 200 OK\r\ncontent-length: 2\r\n\r\n["), .ok []] =
            (.closed : Ending String)) :=
  message_cut true okMessage [.ok (bytes "HTTP/1.1 200 OK\r\ncontent-length: 2\r\n\r\n["),
    .ok []] (by decide +kernel) ⟨bytes "]", by decide +kernel⟩

def requestLines (method : String) (url : Url) (headers : List (String × String))
    (body : Option Bytes) : List String :=
  [method ++ " " ++ url.pathAndQuery ++ " HTTP/1.1", "Host: " ++ url.host, "Connection: close"] ++
    headers.map (fun h => h.1 ++ ": " ++ h.2) ++
    body.elim [] fun b => ["Content-Length: " ++ toString b.length]

theorem headers_toList (headers : List (String × String)) :
    (String.join (headers.map fun (k, v) => k ++ ": " ++ v ++ "\r\n")).toList =
      ((headers.map fun h => h.1 ++ ": " ++ h.2).map String.toList).flatMap
        (· ++ ['\r', '\n']) := by
  induction headers with
  | nil => rfl
  | cons h headers ih =>
    rw [List.map_cons, List.map_cons, List.map_cons, List.flatMap_cons, ← ih]
    simp only [String.join_cons, String.toList_append]
    rfl

theorem requestBytes_eq (method : String) (url : Url) (headers : List (String × String))
    (body : Option Bytes) : requestBytes method url headers body =
      utf8 (headText ((requestLines method url headers body).map String.toList)) ++
        body.getD [] := by
  have hlength : (body.elim "" fun b => "Content-Length: " ++ toString b.length ++ "\r\n").toList =
      ((body.elim [] fun b => ["Content-Length: " ++ toString b.length]).map
        String.toList).flatMap (· ++ ['\r', '\n']) := by
    cases body with
    | none => rfl
    | some b =>
      simp only [Option.elim_some, List.map_cons, List.map_nil, List.flatMap_singleton,
        String.toList_append]
      rfl
  rw [requestBytes, bytes, headText, requestLines, List.map_append, List.map_append,
    List.flatMap_append, List.flatMap_append, ← headers_toList, ← hlength]
  congr 2
  simp only [String.toList_append, List.append_assoc, List.map_cons, List.map_nil,
    List.flatMap_cons, List.flatMap_nil]
  rfl

def Plain (s : String) : Prop := ∀ c ∈ s.toList, c ≠ '\r' ∧ c ≠ '\n'

theorem Plain.append (hs : Plain s) (ht : Plain t) : Plain (s ++ t) := by
  intro c hc
  rw [String.toList_append] at hc
  rcases List.mem_append.1 hc with hc | hc
  · exact hs c hc
  · exact ht c hc

theorem plain_digits (n : Nat) : Plain (toString n) := fun _ hc =>
  plain_of_not_whitespace (digit_plain hc)

theorem plain_literal {l : String} (h : l.toList.all (fun c => c ≠ '\r' && c ≠ '\n') = true) :
    Plain l := chars_plain h

theorem isLine_around {l : String} (hne : l.toList ≠ [])
    (hl : l.toList.all (fun c => c ≠ '\r' && c ≠ '\n') = true) (hs : Plain s) (ht : Plain t) :
    IsLine (s ++ l ++ t).toList := by
  refine isLine_of_plain ?_ ((hs.append (plain_literal hl)).append ht)
  rw [String.toList_append, String.toList_append]
  exact List.append_ne_nil_of_left_ne_nil (List.append_ne_nil_of_right_ne_nil _ hne) _

theorem requestLines_isLine (hmethod : Plain method) (hpath : Plain url.pathAndQuery)
    (hhost : Plain url.host) (hheaders : ∀ h ∈ headers, Plain h.1 ∧ Plain h.2)
    (body : Option Bytes) :
    ∀ line ∈ (requestLines method url headers body).map String.toList, IsLine line := by
  have hempty : Plain "" := fun c hc => by cases hc
  intro line hline
  obtain ⟨text, htext, rfl⟩ := List.mem_map.1 hline
  simp only [requestLines, List.mem_append, List.mem_cons, List.not_mem_nil, or_false,
    List.mem_map, or_assoc] at htext
  rcases htext with rfl | rfl | rfl | ⟨h, hh, rfl⟩ | htext
  · have hline := isLine_around (l := " ") (by decide) (by decide) hmethod
      (hpath.append (plain_literal (l := " HTTP/1.1") (by decide)))
    rwa [← String.append_assoc] at hline
  · exact isLine_around (s := "") (l := "Host: ") (by decide) (by decide) hempty hhost
  · exact isLine_around (s := "") (l := "Connection: close") (t := "") (by decide) (by decide)
      hempty hempty
  · exact isLine_around (by decide) (by decide) (hheaders h hh).1 (hheaders h hh).2
  · cases body with
    | none => cases htext
    | some b =>
      rw [List.mem_singleton.1 htext]
      exact isLine_around (s := "") (l := "Content-Length: ") (by decide) (by decide) hempty
        (plain_digits _)

/-- Where no part of a request has a line end, its head has the lines that it is meant to have, and
no others, and ends where its body begins. -/
theorem request_lines (method : String) (url : Url) (headers : List (String × String))
    (body : Option Bytes) (hmethod : Plain method) (hpath : Plain url.pathAndQuery)
    (hhost : Plain url.host) (hheaders : ∀ h ∈ headers, Plain h.1 ∧ Plain h.2) :
    ∃ head i, requestBytes method url headers body = head ++ body.getD [] ∧
      findSubslice headEnd (requestBytes method url headers body) = some i ∧
      i + 4 = head.length ∧
      (splitCrlf (fromUtf8Lossy head).toList).map String.ofList =
        requestLines method url headers body ++ ["", ""] := by
  have hlines := requestLines_isLine hmethod hpath hhost hheaders body
  have hne : (requestLines method url headers body).map String.toList ≠ [] :=
    List.cons_ne_nil _ _
  obtain ⟨i, hi, hlen⟩ := findSubslice_headText hne hlines (body.getD [])
  rw [← requestBytes_eq] at hi
  refine ⟨_, i, requestBytes_eq method url headers body, hi, hlen, ?_⟩
  have htext := fromUtf8Lossy_bytes
    (String.ofList (headText ((requestLines method url headers body).map String.toList)))
  rw [bytes, String.toList_ofList] at htext
  rw [htext, String.toList_ofList, splitCrlf_headText hlines, List.map_append, List.map_map]
  refine congrArg (· ++ _) ((List.map_congr_left fun s _ => ?_).trans (List.map_id _))
  exact String.ofList_toList

theorem request_lines_example :
    ∃ head i, requestBytes "POST" ⟨"localhost", 8080, "/revocations"⟩
        [("Authorization", "Bearer t")] (some (bytes "{}")) = head ++ bytes "{}" ∧
      findSubslice headEnd (requestBytes "POST" ⟨"localhost", 8080, "/revocations"⟩
        [("Authorization", "Bearer t")] (some (bytes "{}"))) = some i ∧ i + 4 = head.length ∧
      (splitCrlf (fromUtf8Lossy head).toList).map String.ofList =
        ["POST /revocations HTTP/1.1", "Host: localhost", "Connection: close",
          "Authorization: Bearer t", "Content-Length: 2", "", ""] :=
  request_lines "POST" ⟨"localhost", 8080, "/revocations"⟩ [("Authorization", "Bearer t")]
    (some (bytes "{}")) (plain_literal (by decide)) (plain_literal (by decide))
    (plain_literal (by decide)) fun h hh => by
      rw [List.mem_singleton.1 hh]
      exact ⟨plain_literal (by decide), plain_literal (by decide)⟩

end UnidppTrust
