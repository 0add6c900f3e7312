import UnidppTrust.Client

namespace UnidppTrust
open Rust Incremental
set_option autoImplicit true

/-- The body of a chunked response, of all its bytes at once. -/
def chunkedOf (checks : Bool) (b : Bytes) (e : Ending String) : Outcome String Bytes :=
  if h : b.length < 2 ^ 63 then
    match decodeChunkedBody checks ⟨b, h⟩ with
    | .error (.err _) => endOfStream (fail "connection closed mid-chunk") e
    | x => x
  else abort

def bodyOf (checks : Bool) (headers : List (String × String)) (b : Bytes) (e : Ending String) :
    Outcome String Bytes :=
  if isChunked headers then chunkedOf checks b e
  else
    match contentLength headers with
    | some n => if n ≤ b.length then .ok (b.take n) else endOfStream (.ok b) e
    | none => endOfStream (.ok b) e

def responseOf (checks : Bool) (b : Bytes) (e : Ending String) : Outcome String HttpResponse :=
  match findSubslice headEnd b with
  | none => endOfStream (fail "connection closed before headers") e
  | some i => do
    let (status, headers) ← parseHead (b.take (i + 4))
    let body ← bodyOf checks headers (b.drop (i + 4)) e
    .ok ⟨status, headers, body⟩

theorem findSubslice_append {b : Bytes} (h : findSubslice needle b = some i) (r : Bytes) :
    findSubslice needle (b ++ r) = some i := by
  induction b generalizing i with
  | nil => cases h
  | cons x xs ih =>
    rw [findSubslice] at h
    rw [List.cons_append, findSubslice, ← List.cons_append]
    by_cases hp : needle.isPrefixOf (x :: xs) = true
    · have hlong := (List.isPrefixOf_iff_prefix.1 hp).trans (List.prefix_append (x :: xs) r)
      rw [if_pos hp] at h
      rw [if_pos (List.isPrefixOf_iff_prefix.2 hlong)]
      exact h
    · rw [if_neg hp] at h
      obtain ⟨j, hj, rfl⟩ := Option.map_eq_some_iff.1 h
      have hfits : needle.length ≤ (x :: xs).length := by
        have hlen := (findSubslice_some hj).length_le
        rw [List.length_drop] at hlen
        rw [List.length_cons]
        omega
      have hnot : ¬ needle.isPrefixOf (x :: xs ++ r) = true := fun hlong =>
        hp (List.isPrefixOf_iff_prefix.2 (List.prefix_of_prefix_length_le
          (List.isPrefixOf_iff_prefix.1 hlong) (List.prefix_append _ r) hfits))
      rw [if_neg hnot, ih hj]
      rfl

theorem findSubslice_bound {b : Bytes} (h : findSubslice needle b = some i) (hne : needle ≠ []) :
    i + needle.length ≤ b.length := by
  have hlen := (findSubslice_some h).length_le
  have hpos := List.length_pos_iff.2 hne
  rw [List.length_drop] at hlen
  omega

theorem Header.mono (h : Header raw pos start size) (hp : raw <+: whole) :
    Header whole pos start size := by
  obtain ⟨r, rfl⟩ := hp
  have hbounds := h.bounds
  obtain ⟨i, hi, hsize, rfl⟩ := h
  have hfits := findSubslice_crlf hi
  have hdrop : (raw ++ r).drop pos = raw.drop pos ++ r :=
    List.drop_append_of_le_length (by omega)
  refine ⟨i, ?_, ?_, rfl⟩
  · rw [hdrop]
    exact findSubslice_append hi r
  · rw [hdrop, List.take_append_of_le_length (by omega)]
    exact hsize

theorem nextChunk_mono (checks : Bool) (hw : whole.length < 2 ^ 63) (hp : raw <+: whole)
    (hpos : pos ≤ raw.length) :
    (∃ e, nextChunk checks raw pos = fail e) ∨
      nextChunk checks whole pos = nextChunk checks raw pos := by
  have hraw : raw.length < 2 ^ 63 := Nat.lt_of_le_of_lt hp.length_le hw
  by_cases hheader : ∃ start size, Header raw pos start size
  · obtain ⟨start, size, hheader⟩ := hheader
    obtain ⟨-, hstart, hsize⟩ := hheader.bounds
    rw [nextChunk_header checks hraw hheader, nextChunk_header checks hw (hheader.mono hp)]
    by_cases hzero : size = 0
    · rw [if_pos hzero, if_pos hzero]
      exact .inr rfl
    rw [if_neg hzero, if_neg hzero]
    rcases chunkData_cases checks hraw hstart hsize with
      ⟨hwhole, hdata⟩ | ⟨-, -, e, hdata⟩ | ⟨hover, hdata⟩
    · rcases chunkData_cases checks hw (Nat.le_trans hstart hp.length_le) hsize with
        ⟨-, hdata'⟩ | ⟨hshort, -⟩ | ⟨hover, -⟩
      · obtain ⟨r, rfl⟩ := hp
        have hsame : ((raw ++ r).drop start).take size = (raw.drop start).take size := by
          rw [List.drop_append_of_le_length hstart, List.take_append_of_le_length]
          rw [List.length_drop]
          omega
        rw [hdata, hdata', hsame]
        exact .inr rfl
      · have := hp.length_le
        omega
      · omega
    · exact .inl ⟨e, by rw [hdata]; rfl⟩
    · rcases chunkData_cases checks hw (Nat.le_trans hstart hp.length_le) hsize with
        ⟨hwhole, -⟩ | ⟨-, hfits, -⟩ | ⟨-, hdata'⟩
      · omega
      · omega
      · rw [hdata, hdata']
        exact .inr rfl
  · exact .inl (nextChunk_no_header checks hraw hpos fun start size h =>
      hheader ⟨start, size, h⟩)

theorem decodeFrom_mono (checks : Bool) {raw whole : Slice} (hp : raw.1 <+: whole.1)
    (hpos : pos ≤ raw.1.length) (out : Bytes) :
    (∃ e, decodeFrom checks raw pos out = fail e) ∨
      decodeFrom checks whole pos out = decodeFrom checks raw pos out := by
  induction hn : raw.1.length - pos using Nat.strongRecOn generalizing pos out with
  | _ n ih =>
    rw [decodeFrom_eq, decodeFrom_eq]
    rcases nextChunk_mono checks whole.2 hp hpos with ⟨e, h⟩ | hsame
    · rw [h]
      exact .inl ⟨e, rfl⟩
    rw [hsame]
    cases hround : nextChunk checks raw.1 pos with
    | error e => exact .inr rfl
    | ok found =>
      cases found with
      | none => exact .inr rfl
      | some found =>
        have hbounds := (nextChunk_advances raw.2 hround).bounds
        exact ih _ (by omega) hbounds.2 _ rfl

/-- What the decoder makes of a piece, unless it fails, it makes of the whole. -/
theorem decode_mono (checks : Bool) {raw whole : Slice} (hp : raw.1 <+: whole.1) :
    (∃ e, decodeChunkedBody checks raw = fail e) ∨
      decodeChunkedBody checks whole = decodeChunkedBody checks raw :=
  decodeFrom_mono checks hp (Nat.zero_le _) []

section Loop
variable {settle : Bytes → Option (Outcome String β)}
variable {got : Bytes} {reads : List Read}

theorem growing_eq (h : got.length < 2 ^ 63) : growing settle got = settle got :=
  if_neg (Nat.not_le.2 h)

theorem settles_growing (hs : Settles settle whole) (hfits : whole.length < 2 ^ 63) :
    Settles (growing settle) whole := by
  intro p b hp h
  rw [growing_eq (Nat.lt_of_le_of_lt hp.length_le hfits)] at h
  rw [growing_eq hfits]
  exact hs p b hp h

theorem readUntil_some (atClose : Bytes → Outcome String β)
    (hs : Settles settle (got ++ received reads))
    (hfits : (got ++ received reads).length < 2 ^ 63)
    (h : settle (got ++ received reads) = some (.ok b)) :
    ∃ got' rest, readUntil settle atClose got reads = .ok (b, got', rest) ∧
      settle got' = some (.ok b) ∧ got' ++ received rest = got ++ received reads ∧
      ending rest = ending reads := by
  obtain ⟨got', rest, hgather, hsettled, hbytes, hend⟩ :=
    gather_some (settles_growing hs hfits) ((growing_eq hfits).trans h)
  have hfits' : got'.length < 2 ^ 63 := by
    rw [← hbytes, List.length_append] at hfits
    omega
  rw [growing_eq hfits'] at hsettled
  refine ⟨got', rest, ?_, hsettled, hbytes, hend⟩
  rw [readUntil, hgather]
  rfl

theorem readUntil_none (atClose : Bytes → Outcome String β)
    (hs : Settles settle (got ++ received reads))
    (hfits : (got ++ received reads).length < 2 ^ 63)
    (h : settle (got ++ received reads) = none) :
    readUntil settle atClose got reads =
      endOfStream (atClose (got ++ received reads)) (ending reads) >>= fun b =>
        .ok (b, got ++ received reads, []) := by
  rw [readUntil, gather_none (settles_growing hs hfits) ((growing_eq hfits).trans h)]

end Loop

theorem readLength_eq {got : Bytes} {reads : List Read}
    (hfits : (got ++ received reads).length < 2 ^ 63) (n : Nat) :
    readLength n got reads =
      if n ≤ (got ++ received reads).length then .ok ((got ++ received reads).take n)
      else endOfStream (.ok (got ++ received reads)) (ending reads) := by
  have hs : Settles (fun got : Bytes => if n ≤ got.length then
      some (.ok (got.take n) : Outcome String Bytes) else none) (got ++ received reads) := by
    rintro p b ⟨r, hr⟩ h
    dsimp only at h ⊢
    rw [Option.ite_none_right_eq_some] at h
    obtain ⟨hn, h⟩ := h
    rw [← hr, if_pos (by rw [List.length_append]; omega), List.take_append_of_le_length hn, h]
  rw [readLength]
  by_cases hn : n ≤ (got ++ received reads).length
  · obtain ⟨got', rest, hread, -⟩ := readUntil_some _ hs hfits (if_pos hn)
    rw [hread, if_pos hn]
    rfl
  · have htake : (got ++ received reads).take n = got ++ received reads :=
      List.take_of_length_le (by omega)
    rw [readUntil_none _ hs hfits (if_neg hn), if_neg hn, htake]
    cases ending reads <;> rfl

theorem readToEnd_eq {got : Bytes} {reads : List Read}
    (hfits : (got ++ received reads).length < 2 ^ 63) :
    readToEnd got reads = endOfStream (.ok (got ++ received reads)) (ending reads) := by
  rw [readToEnd, readUntil_none _ (fun p b _ h => by cases h) hfits rfl]
  cases ending reads <;> rfl

theorem chunkedOf_fail {got : Slice} (h : decodeChunkedBody checks got = fail m)
    (e : Ending String) :
    chunkedOf checks got.1 e = endOfStream (fail "connection closed mid-chunk") e := by
  rw [chunkedOf, dif_pos got.2, h]
  rfl

theorem chunked_cases (checks : Bool) {got : Slice} {whole : Bytes} (hp : got.1 <+: whole)
    (hfits : whole.length < 2 ^ 63) :
    (∃ m, decodeChunkedBody checks got = fail m) ∨
      ∀ reads e, readChunked checks got reads = chunkedOf checks whole e := by
  have hwhole : got.1 <+: (⟨whole, hfits⟩ : Slice).1 := hp
  rcases decode_mono checks hwhole with h | h
  · exact .inl h
  cases hx : decodeChunkedBody checks got with
  | ok d =>
    refine .inr fun reads e => ?_
    rw [chunkedOf, dif_pos hfits, h, hx, readChunked_decoded hx]
  | error x =>
    cases x with
    | err m => exact .inl ⟨m, rfl⟩
    | abort =>
      refine .inr fun reads e => ?_
      rw [chunkedOf, dif_pos hfits, h, hx, readChunked.eq_def, hx]
      rfl

/-- The chunked loop, however its bytes come. -/
theorem readChunked_eq (checks : Bool) {got : Slice} {reads : List Read}
    (hfits : (got.1 ++ received reads).length < 2 ^ 63) :
    readChunked checks got reads = chunkedOf checks (got.1 ++ received reads) (ending reads) := by
  induction reads generalizing got with
  | nil =>
    rcases chunked_cases checks (List.prefix_append _ _) hfits with ⟨m, h⟩ | hdone
    · rw [readChunked_retry h, received, List.append_nil, chunkedOf_fail h]
      rfl
    · exact hdone _ _
  | cons read reads ih =>
    rcases chunked_cases checks (List.prefix_append _ _) hfits with ⟨m, h⟩ | hdone
    · rw [readChunked_retry h]
      cases read with
      | error e =>
        rw [received, List.append_nil, chunkedOf_fail h]
        rfl
      | ok buf =>
        by_cases hbuf : buf = []
        · subst hbuf
          rw [received, if_pos rfl, List.append_nil, chunkedOf_fail h]
          rfl
        · rw [received_cons hbuf, ← List.append_assoc] at hfits ⊢
          have hgot : (got.1 ++ buf).length < 2 ^ 63 := by
            rw [List.length_append] at hfits
            omega
          rw [ending_cons hbuf, ← @ih ⟨got.1 ++ buf, hgot⟩ hfits]
          exact (if_neg hbuf).trans (dif_pos hgot)
    · exact hdone _ _

theorem readBody_eq (checks : Bool) (headers : List (String × String)) {got : Bytes}
    {reads : List Read} (hfits : (got ++ received reads).length < 2 ^ 63) :
    readBody checks headers got reads =
      bodyOf checks headers (got ++ received reads) (ending reads) := by
  have hgot : got.length < 2 ^ 63 := by
    rw [List.length_append] at hfits
    omega
  rw [readBody, bodyOf, dif_pos hgot]
  by_cases hchunked : isChunked headers = true
  · rw [if_pos hchunked, if_pos hchunked]
    exact readChunked_eq checks hfits
  rw [if_neg hchunked, if_neg hchunked]
  cases contentLength headers with
  | some n => exact readLength_eq hfits n
  | none => exact readToEnd_eq hfits

/-- What the client makes of a stream depends on the bytes it gives and on how it ends, and not on
where the reads fall. -/
theorem readResponse_eq (checks : Bool) (reads : List Read)
    (hfits : (received reads).length < 2 ^ 63) :
    readResponse checks reads = responseOf checks (received reads) (ending reads) := by
  have hs : Settles (fun raw : Bytes => (findSubslice headEnd raw).map
      (Except.ok : Nat → Outcome String Nat)) ([] ++ received reads) := by
    rintro p b ⟨r, hr⟩ h
    obtain ⟨i, hi, rfl⟩ := Option.map_eq_some_iff.1 h
    dsimp only
    rw [← hr, findSubslice_append hi, Option.map_some]
  rw [readResponse, responseOf]
  cases hfound : findSubslice headEnd (received reads) with
  | none =>
    have hnone := readUntil_none (fun _ => fail "connection closed before headers")
      hs hfits (by rw [List.nil_append, hfound, Option.map_none])
    rw [hnone]
    cases ending reads <;> rfl
  | some i =>
    obtain ⟨raw, rest, hread, hsettled, hbytes, hend⟩ :=
      readUntil_some (fun _ => fail "connection closed before headers")
        hs hfits (by rw [List.nil_append, hfound, Option.map_some])
    obtain ⟨j, hj, hij⟩ := Option.map_eq_some_iff.1 hsettled
    cases hij
    have hbound : i + 4 ≤ raw.length := findSubslice_bound hj (by decide)
    have htake : (received reads).take (i + 4) = raw.take (i + 4) := by
      rw [← List.nil_append (received reads), ← hbytes, List.take_append_of_le_length hbound]
    have hdrop : (received reads).drop (i + 4) = raw.drop (i + 4) ++ received rest := by
      rw [← List.nil_append (received reads), ← hbytes, List.drop_append_of_le_length hbound]
    have hbody : (raw.drop (i + 4) ++ received rest).length < 2 ^ 63 := by
      rw [← hdrop, List.length_drop]
      omega
    rw [hread, ok_bind]
    dsimp only
    rw [htake, hdrop, ← hend]
    cases parseHead (raw.take (i + 4)) with
    | error e => rfl
    | ok head => rw [ok_bind, ok_bind, readBody_eq checks head.2 hbody]

/-- Two streams of the same bytes that end alike are the same response, and the one that all their
bytes at once are. -/
theorem response_by_bytes (checks : Bool) (reads reads' : List Read)
    (hfits : (received reads).length < 2 ^ 63) (hbytes : received reads' = received reads)
    (hend : ending reads' = ending reads) :
    readResponse checks reads' = readResponse checks reads ∧
      readResponse checks reads = responseOf checks (received reads) (ending reads) := by
  have hwhole := readResponse_eq checks reads hfits
  rw [readResponse_eq checks reads' (hbytes ▸ hfits), hbytes, hend]
  exact ⟨hwhole.symm, hwhole⟩

theorem response_by_bytes_example :
    readResponse true [.ok (bytes "HTTP/1.1 204\r"), .ok (bytes "\n\r\n"), .ok []] =
      readResponse true [.ok (bytes "HTTP/1.1 204\r\n\r\n"), .ok []] :=
  (response_by_bytes true [.ok (bytes "HTTP/1.1 204\r\n\r\n"), .ok []]
    [.ok (bytes "HTTP/1.1 204\r"), .ok (bytes "\n\r\n"), .ok []] (by decide +kernel)
    (by decide +kernel) rfl).1

end UnidppTrust
