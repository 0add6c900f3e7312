import UnidppTrust.ChunkGrammar

namespace UnidppTrust
open Rust
set_option autoImplicit true

abbrev Extension := { s : String // ∀ c ∈ s.toList, c.toNat < 128 ∧ c ≠ '\r' ∧ c ≠ '\n' }

/-- A line that declares a size, printed in hex, before an extension if there is one. -/
structure SizeLine (size : Nat) where
  digits : List HexDigit
  nonempty : digits ≠ []
  spelled : spelledNumber digits = size
  extension : Option Extension

def SizeLine.printed (size : Nat) : SizeLine size where
  digits := if size = 0 then [⟨0, false⟩]
    else (Nat.digits 16 size).reverse.map fun d => ⟨Fin.ofNat 16 d, false⟩
  nonempty := by
    split
    · exact List.cons_ne_nil _ _
    · rename_i h
      intro hnil
      rw [List.map_eq_nil_iff, List.reverse_eq_nil_iff, Nat.digits_eq_nil_iff_eq_zero] at hnil
      exact h hnil
  spelled := by
    split
    · rename_i h
      subst h
      rfl
    · have hvalues : (Nat.digits 16 size).map (fun d => (Fin.ofNat 16 d).val) =
          Nat.digits 16 size := by
        apply (List.map_congr_left fun d hd => ?_).trans (List.map_id _)
        exact Nat.mod_eq_of_lt (Nat.digits_lt_base (by decide) hd)
      rw [spelledNumber, ← List.map_reverse, List.reverse_reverse, List.map_map]
      exact (congrArg (Nat.ofDigits 16) hvalues).trans (Nat.ofDigits_digits 16 size)
  extension := none

def extensionText : Option Extension → List Char
  | none => []
  | some e => ';' :: e.val.toList

def SizeLine.text (l : SizeLine size) : String :=
  String.ofList (l.digits.map HexDigit.char ++ extensionText l.extension)

def SizeLine.encoded (l : SizeLine size) : Bytes := bytes l.text ++ crlf

/-- A chunk, which is not empty, under a line that declares its length. -/
structure Chunk where
  data : Bytes
  nonempty : data ≠ []
  line : SizeLine data.length

def Chunk.encoded (c : Chunk) : Bytes := c.line.encoded ++ c.data ++ crlf

def encodeChunks (chunks : List Chunk) (last : SizeLine 0) : Bytes :=
  chunks.flatMap Chunk.encoded ++ last.encoded ++ crlf

/-- A chunked body whose encoding a slice holds. -/
structure ChunkedBody where
  chunks : List Chunk
  last : SizeLine 0
  fits : (encodeChunks chunks last).length < 2 ^ 63

def ChunkedBody.encoded (m : ChunkedBody) : Slice := ⟨encodeChunks m.chunks m.last, m.fits⟩

def ChunkedBody.body (m : ChunkedBody) : Bytes := m.chunks.flatMap Chunk.data

/-- The read loop of `request` for a chunked body: what is received is decoded after every read, and
the stream is read on an error. A read of no bytes is the end of the stream; after the reads that
the stream has to give, the request times out. -/
def readChunked (checks : Bool) (received : Slice) (reads : List (Except String Bytes)) :
    Outcome String Bytes :=
  match decodeChunkedBody checks received with
  | .ok decoded => .ok decoded
  | .error .abort => abort
  | .error (.err _) =>
    match reads with
    | [] => fail "http request timed out"
    | .error e :: _ => fail e
    | .ok buf :: reads =>
      if buf = [] then fail "connection closed mid-chunk"
      else if h : (received.1 ++ buf).length < 2 ^ 63 then
        readChunked checks ⟨received.1 ++ buf, h⟩ reads
      else abort

def bytesRead (reads : List (Except String Bytes)) : Bytes :=
  reads.flatMap fun read =>
    match read with
    | .ok buf => buf
    | .error _ => []

variable {checks : Bool} {raw : Bytes}

theorem declaredSize_line (l : SizeLine size) (hsize : size < 2 ^ 64) :
    declaredSize (bytes l.text) = .ok size := by
  have hnone : ∀ c ∈ ([] : List Char), isWhitespace c := fun c hc => by cases hc
  have hext : extensionText l.extension = [] ∨ ∃ cs, extensionText l.extension = ';' :: cs := by
    cases l.extension with
    | none => exact .inl rfl
    | some e => exact .inr ⟨_, rfl⟩
  refine declaredSize_iff.2 ⟨⟨l.text.toList, rfl, [], [], l.digits, [], extensionText l.extension,
    ?_,
    hnone, hnone, .inl rfl, l.nonempty, l.spelled, hext⟩, hsize⟩
  rw [SizeLine.text, String.toList_ofList, List.nil_append, List.nil_append, List.append_nil]

theorem SizeLine.text_plain (l : SizeLine size) : ∀ c ∈ l.text.toList, c ≠ '\r' ∧ c ≠ '\n' := by
  intro c hc
  rw [SizeLine.text, String.toList_ofList] at hc
  rcases List.mem_append.1 hc with hdigit | hext
  · obtain ⟨d, -, rfl⟩ := List.mem_map.1 hdigit
    obtain ⟨-, -, hend, -⟩ := d.plain
    exact hend
  · cases he : l.extension with
    | none =>
      rw [he] at hext
      cases hext
    | some e =>
      rw [he] at hext
      rcases List.mem_cons.1 hext with rfl | hmem
      · exact ⟨by decide, by decide⟩
      · exact (e.property c hmem).2

theorem SizeLine.no_line_end (l : SizeLine size) :
    13 ∉ bytes l.text ∧ 10 ∉ bytes l.text := by
  constructor
  · intro h
    obtain ⟨c, hc, hcode⟩ := (mem_utf8_ascii (by decide)).1 h
    exact (l.text_plain c hc).1 (Char.toNat_inj.1 hcode)
  · intro h
    obtain ⟨c, hc, hcode⟩ := (mem_utf8_ascii (by decide)).1 h
    exact (l.text_plain c hc).2 (Char.toNat_inj.1 hcode)

theorem findSubslice_none {b : Bytes} (h : 10 ∉ b) : findSubslice crlf b = none := by
  cases hi : findSubslice crlf b with
  | none => rfl
  | some i =>
    have hmem : (10 : UInt8) ∈ b.drop i := (findSubslice_some hi).mem (by decide)
    exact (h (List.mem_of_mem_drop hmem)).elim

theorem prefix_beyond {a p q : Bytes} (h : a <+: p ++ q) (hlen : p.length ≤ a.length) :
    a = p ++ a.drop p.length ∧ a.drop p.length <+: q := by
  obtain ⟨r, rfl⟩ := List.prefix_of_prefix_length_le (List.prefix_append p q) h hlen
  rw [List.drop_left]
  exact ⟨rfl, (List.prefix_append_right_inj p).1 h⟩

theorem line_arrives (l : SizeLine size) (hsize : size < 2 ^ 64)
    (h : raw.drop pos <+: l.encoded ++ rest) :
    (Header raw pos (pos + l.encoded.length) size ∧
      raw.drop pos = l.encoded ++ raw.drop (pos + l.encoded.length) ∧
      raw.drop (pos + l.encoded.length) <+: rest) ∨
    ((∀ start size, ¬ Header raw pos start size) ∧ raw.drop pos ≠ l.encoded ++ rest) := by
  have hlen : l.encoded.length = (bytes l.text).length + 2 := List.length_append
  rcases Nat.lt_or_ge (raw.drop pos).length l.encoded.length with hshort | hlong
  · right
    constructor
    · have hline : raw.drop pos <+: bytes l.text ++ [13] := by
        have hfirst : bytes l.text ++ [13] <+: l.encoded ++ rest :=
          ⟨10 :: rest, by rw [SizeLine.encoded, crlf]; simp⟩
        apply List.prefix_of_prefix_length_le h hfirst
        rw [List.length_append, List.length_singleton]
        omega
      have hno : 10 ∉ raw.drop pos := by
        intro hmem
        rcases List.mem_append.1 (hline.mem hmem) with hline | hend
        · exact l.no_line_end.2 hline
        · exact absurd (List.mem_singleton.1 hend) (by decide)
      rintro start size ⟨i, hi, -⟩
      rw [findSubslice_none hno] at hi
      cases hi
    · intro he
      rw [he, List.length_append] at hshort
      omega
  · left
    obtain ⟨hwhole, hrest⟩ := prefix_beyond h hlong
    rw [List.drop_drop] at hwhole hrest
    have hheader : Header raw pos (pos + l.encoded.length) size := by
      refine ⟨(bytes l.text).length, ?_, ?_, ?_⟩
      · rw [hwhole, SizeLine.encoded]
        exact findSubslice_line (fun hin => l.no_line_end.1 (hin.mem (by decide))) _
      · rw [hwhole, SizeLine.encoded, List.append_assoc, List.take_left]
        exact declaredSize_line l hsize
      · rw [hlen, Nat.add_assoc]
    exact ⟨hheader, hwhole, hrest⟩

/-- A chunk that arrives: a round of the loop takes it, and goes on to the rest, or fails on what is
not the whole stream. -/
theorem chunk_arrives (checks : Bool) (hraw : raw.length < 2 ^ 63) (hpos : pos ≤ raw.length)
    (c : Chunk) (hdata : c.data.length < 2 ^ 63) (h : raw.drop pos <+: c.encoded ++ rest) :
    (∃ next, nextChunk checks raw pos = .ok (some (c.data, next)) ∧ next ≤ raw.length ∧
      raw.drop pos = c.encoded ++ raw.drop next ∧ raw.drop next <+: rest) ∨
    ((∃ e, nextChunk checks raw pos = fail e) ∧ raw.drop pos ≠ c.encoded ++ rest) := by
  have hsplit : c.encoded ++ rest = c.line.encoded ++ (c.data ++ (crlf ++ rest)) := by
    rw [Chunk.encoded, List.append_assoc, List.append_assoc]
  rw [hsplit] at h ⊢
  rcases line_arrives c.line (by omega) h with ⟨hheader, hdrop, hrest⟩ | ⟨hno, hne⟩
  · obtain ⟨-, hstart, -⟩ := hheader.bounds
    have hround := nextChunk_header checks hraw hheader
    rw [if_neg fun h0 => c.nonempty (List.eq_nil_of_length_eq_zero h0)] at hround
    rcases chunkData_cases checks hraw hstart (by omega : c.data.length < 2 ^ 64) with
      ⟨hwhole, hdata'⟩ | ⟨hshort, -, e, hdata'⟩ | ⟨hlarge, -⟩
    · left
      have hlen : (c.data ++ crlf).length ≤ (raw.drop (pos + c.line.encoded.length)).length := by
        rw [List.length_append, List.length_drop]
        change c.data.length + 2 ≤ _
        omega
      rw [← List.append_assoc] at hrest
      obtain ⟨hall, hnext⟩ := prefix_beyond hrest hlen
      have hskip : pos + c.line.encoded.length + (c.data ++ crlf).length =
          pos + c.line.encoded.length + c.data.length + 2 := by
        rw [List.length_append, ← Nat.add_assoc]
        rfl
      rw [List.drop_drop, hskip] at hall hnext
      have htaken : (raw.drop (pos + c.line.encoded.length)).take c.data.length = c.data := by
        rw [hall, List.append_assoc, List.take_left]
      rw [hdata', htaken, ok_bind] at hround
      refine ⟨_, hround, hwhole, ?_, hnext⟩
      rw [hdrop, hall, Chunk.encoded, List.append_assoc, List.append_assoc, List.append_assoc]
    · right
      rw [hdata'] at hround
      refine ⟨⟨e, hround⟩, ?_⟩
      intro he
      have hlen := congrArg List.length he
      rw [List.length_drop, List.length_append, List.length_append, List.length_append] at hlen
      change _ = _ + (_ + (2 + _)) at hlen
      omega
    · omega
  · exact .inr ⟨nextChunk_no_header checks hraw hpos hno, hne⟩

theorem decodeFrom_chunks (raw : Slice) (chunks : List Chunk) (last : SizeLine 0)
    (hfits : (encodeChunks chunks last).length < 2 ^ 63) (hpos : pos ≤ raw.1.length)
    (h : raw.1.drop pos <+: encodeChunks chunks last) (out : Bytes) :
    decodeFrom checks raw pos out = .ok (out ++ chunks.flatMap Chunk.data) ∨
    ((∃ e, decodeFrom checks raw pos out = fail e) ∧
      raw.1.drop pos ≠ encodeChunks chunks last) := by
  induction chunks generalizing pos out with
  | nil =>
    have hnil : encodeChunks [] last = last.encoded ++ crlf := rfl
    rw [hnil] at h ⊢
    rcases line_arrives last (by omega) h with ⟨hheader, -⟩ | ⟨hno, hne⟩
    · have hround := nextChunk_header checks raw.2 hheader
      rw [if_pos rfl] at hround
      left
      rw [decodeFrom_eq, hround, List.flatMap_nil, List.append_nil]
    · obtain ⟨e, hround⟩ := nextChunk_no_header checks raw.2 hpos hno
      exact .inr ⟨⟨e, by rw [decodeFrom_eq, hround]; rfl⟩, hne⟩
  | cons c chunks ih =>
    have hcons : encodeChunks (c :: chunks) last = c.encoded ++ encodeChunks chunks last := by
      rw [encodeChunks, List.flatMap_cons, List.append_assoc, List.append_assoc, encodeChunks,
        List.append_assoc]
    rw [hcons] at h hfits ⊢
    rw [List.length_append, Chunk.encoded, List.length_append, List.length_append] at hfits
    rcases chunk_arrives checks raw.2 hpos c (by omega) h with
      ⟨next, hround, hnext, hdrop, hrest⟩ | ⟨⟨e, hround⟩, hne⟩
    · rw [decodeFrom_eq, hround, List.flatMap_cons, ← List.append_assoc]
      rcases ih (by omega) hnext hrest (out ++ c.data) with hall | ⟨hfail, hne⟩
      · exact .inl hall
      · right
        refine ⟨hfail, ?_⟩
        rw [hdrop]
        intro he
        exact hne (List.append_cancel_left he)
    · exact .inr ⟨⟨e, by rw [decodeFrom_eq, hround]; rfl⟩, hne⟩

/-- A prefix of a stream decodes to the whole body, unless it is proper and is refused. -/
theorem decode_prefix (checks : Bool) (m : ChunkedBody) (p : Slice) (h : p.1 <+: m.encoded.1) :
    decodeChunkedBody checks p = .ok m.body ∨
    ((∃ e, decodeChunkedBody checks p = fail e) ∧ p.1 ≠ m.encoded.1) :=
  decodeFrom_chunks p m.chunks m.last m.fits (Nat.zero_le _) h []

theorem readChunked_decoded (h : decodeChunkedBody checks received = .ok decoded)
    (reads : List (Except String Bytes)) : readChunked checks received reads = .ok decoded := by
  rw [readChunked.eq_def, h]

theorem readChunked_retry {received : Slice} (h : decodeChunkedBody checks received = fail e)
    (reads : List (Except String Bytes)) : readChunked checks received reads =
      match reads with
      | [] => fail "http request timed out"
      | .error e :: _ => fail e
      | .ok buf :: reads =>
        if buf = [] then fail "connection closed mid-chunk"
        else if h : (received.1 ++ buf).length < 2 ^ 63 then
          readChunked checks ⟨received.1 ++ buf, h⟩ reads
        else abort := by
  rw [readChunked.eq_def, h]
  rfl

theorem received_fits (m : ChunkedBody) (h : received ++ rest <+: m.encoded.1) :
    received.length < 2 ^ 63 := by
  have hle := h.length_le
  have hfits := m.encoded.2
  rw [List.length_append] at hle
  omega

/-- Wherever the reads fall in a stream that arrives whole, the loop gives the body. -/
theorem readChunked_whole (m : ChunkedBody) (received : Slice) (parts : List Bytes)
    (hne : ∀ buf ∈ parts, buf ≠ []) (h : received.1 ++ parts.flatten = m.encoded.1) :
    readChunked checks received (parts.map .ok) = .ok m.body := by
  induction parts generalizing received with
  | nil =>
    rw [List.flatten_nil, List.append_nil] at h
    rcases decode_prefix checks m received (h ▸ List.prefix_rfl) with hd | ⟨-, hproper⟩
    · exact readChunked_decoded hd _
    · exact (hproper h).elim
  | cons buf parts ih =>
    rcases decode_prefix checks m received (h ▸ List.prefix_append _ _) with
      hd | ⟨⟨e, hd⟩, -⟩
    · exact readChunked_decoded hd _
    · rw [List.flatten_cons, ← List.append_assoc] at h
      have hprefix : received.1 ++ buf ++ parts.flatten <+: m.encoded.1 := h ▸ List.prefix_rfl
      rw [List.map_cons, readChunked_retry hd]
      dsimp only
      rw [if_neg (hne buf List.mem_cons_self), dif_pos (received_fits m hprefix)]
      exact ih _ (fun b hb => hne b (List.mem_cons_of_mem buf hb)) h

/-- And whatever arrives of it, before the reads end or fail, it gives the body or an error. -/
theorem readChunked_prefix (m : ChunkedBody) (received : Slice)
    (reads : List (Except String Bytes)) (h : received.1 ++ bytesRead reads <+: m.encoded.1) :
    readChunked checks received reads = .ok m.body ∨
      ∃ e, readChunked checks received reads = fail e := by
  induction reads generalizing received with
  | nil =>
    rcases decode_prefix checks m received ((List.prefix_append _ _).trans h) with
      hd | ⟨⟨e, hd⟩, -⟩
    · exact .inl (readChunked_decoded hd _)
    · exact .inr ⟨_, readChunked_retry hd []⟩
  | cons read reads ih =>
    rcases decode_prefix checks m received ((List.prefix_append _ _).trans h) with
      hd | ⟨⟨e, hd⟩, -⟩
    · exact .inl (readChunked_decoded hd _)
    rw [readChunked_retry hd]
    cases read with
    | error e => exact .inr ⟨e, rfl⟩
    | ok buf =>
      rcases Decidable.em (buf = []) with hempty | hne
      · dsimp only
        rw [if_pos hempty]
        exact .inr ⟨_, rfl⟩
      · have hcons : bytesRead (.ok buf :: reads) = buf ++ bytesRead reads := rfl
        rw [hcons, ← List.append_assoc] at h
        dsimp only
        rw [if_neg hne, dif_pos (received_fits m h)]
        exact ih _ h

/-- Chunks decode to the concatenation of their data; what has come of them, to the same or to an
error; and the read loop gives that body wherever the reads fall in the stream, and never another,
in either build. -/
theorem chunks_decoded (checks : Bool) (m : ChunkedBody) :
    decodeChunkedBody checks m.encoded = .ok m.body ∧
    (∀ p : Slice, p.1 <+: m.encoded.1 →
      decodeChunkedBody checks p = .ok m.body ∨ ∃ e, decodeChunkedBody checks p = fail e) ∧
    (∀ (received : Slice) (parts : List Bytes), (∀ buf ∈ parts, buf ≠ []) →
      received.1 ++ parts.flatten = m.encoded.1 →
      readChunked checks received (parts.map .ok) = .ok m.body) ∧
    (∀ (received : Slice) (reads : List (Except String Bytes)),
      received.1 ++ bytesRead reads <+: m.encoded.1 →
      readChunked checks received reads = .ok m.body ∨
        ∃ e, readChunked checks received reads = fail e) := by
  refine ⟨?_, ?_, readChunked_whole m, readChunked_prefix m⟩
  · rcases decode_prefix checks m m.encoded List.prefix_rfl with hd | ⟨-, hproper⟩
    · exact hd
    · exact (hproper rfl).elim
  · intro p hp
    rcases decode_prefix checks m p hp with hd | ⟨hfail, -⟩
    · exact .inl hd
    · exact .inr hfail

def wikipedia : ChunkedBody where
  chunks := [
    { data := bytes "Wiki", nonempty := by decide, line := .printed _ },
    { data := bytes "pedia", nonempty := by decide, line := .printed _ }]
  last := .printed 0
  fits := by decide +kernel

theorem chunks_decoded_wikipedia :
    wikipedia.encoded.1 = bytes "4\r\nWiki\r\n5\r\npedia\r\n0\r\n\r\n" ∧
      decodeChunkedBody true wikipedia.encoded = .ok (bytes "Wikipedia") :=
  ⟨by decide +kernel, (chunks_decoded true wikipedia).1⟩

end UnidppTrust
