import Mathlib.Data.List.Infix
import UnidppTrust.ChunkedStream
import UnidppTrust.Incremental
import UnidppTrust.Url

namespace UnidppTrust
open Rust Incremental
set_option autoImplicit true

def isSecondByte (first second : UInt8) : Bool :=
  if first = 0xE0 then 0xA0 ≤ second && second ≤ 0xBF
  else if first = 0xED then 0x80 ≤ second && second ≤ 0x9F
  else if first = 0xF0 then 0x90 ≤ second && second ≤ 0xBF
  else if first = 0xF4 then 0x80 ≤ second && second ≤ 0x8F
  else (0xE1 ≤ first && first ≤ 0xF3) && 0x80 ≤ second && second ≤ 0xBF

/-- How many bytes of an ill-formed sequence one replacement character stands for. -/
def illFormed : Bytes → Nat
  | first :: second :: rest =>
    if !isSecondByte first second then 1
    else
      match rest with
      | third :: _ => if 0xF0 ≤ first && 0x80 ≤ third && third ≤ 0xBF then 3 else 2
      | [] => 2
  | _ => 1

def lossyChars : Nat → Bytes → List Char
  | 0, _ => []
  | n + 1, b =>
    if b = [] then []
    else
      match b.toByteArray.utf8DecodeChar? 0 with
      | some c => c :: lossyChars n (b.drop c.utf8Size)
      | none => '\uFFFD' :: lossyChars n (b.drop (illFormed b))

/-- `String::from_utf8_lossy`. -/
def fromUtf8Lossy (b : Bytes) : String := String.ofList (lossyChars b.length b)

def splitCrlf : List Char → List (List Char)
  | [] => [[]]
  | '\r' :: '\n' :: cs => [] :: splitCrlf cs
  | c :: cs =>
    match splitCrlf cs with
    | line :: lines => (c :: line) :: lines
    | [] => [[c]]

def splitWhitespace (cs : List Char) : List (List Char) :=
  (cs.splitOnP isWhitespace).filter fun w => !w.isEmpty

structure HttpResponse where
  status : UInt16
  headers : List (String × String)
  body : Bytes
  deriving DecidableEq

def HttpResponse.header (r : HttpResponse) (name : String) : Option String :=
  (r.headers.find? fun h => eqIgnoreAsciiCase h.1 name).map (·.2)

def HttpResponse.bodyString (r : HttpResponse) : String := fromUtf8Lossy r.body

def requestBytes (method : String) (url : Url) (headers : List (String × String))
    (body : Option Bytes) : Bytes :=
  bytes (method ++ " " ++ url.pathAndQuery ++ " HTTP/1.1\r\nHost: " ++ url.host ++
      "\r\nConnection: close\r\n" ++
    String.join (headers.map fun (k, v) => k ++ ": " ++ v ++ "\r\n") ++
    body.elim "" (fun b => "Content-Length: " ++ toString b.length ++ "\r\n") ++ "\r\n") ++
  body.getD []

abbrev Read := Except String Bytes

def headEnd : Bytes := [13, 10, 13, 10]

/-- What comes of a stream that ends where more is expected: the request times out when nothing
more is read. -/
def endOfStream (atClose : Outcome String β) : Ending String → Outcome String β
  | .idle => fail "http request timed out"
  | .failed e => fail e
  | .closed => atClose

/-- A vector that grows beyond `isize::MAX` bytes aborts. -/
def growing (settle : Bytes → Option (Outcome String β)) (got : Bytes) :
    Option (Outcome String β) :=
  if 2 ^ 63 ≤ got.length then some abort else settle got

/-- A loop of reads that goes on until what is read settles it; what was read, and what was not,
with what it settles to. -/
def readUntil (settle : Bytes → Option (Outcome String β)) (atClose : Bytes → Outcome String β)
    (got : Bytes) (reads : List Read) : Outcome String (β × Bytes × List Read) :=
  match gather (growing settle) got reads with
  | .settled b got rest => b >>= fun b => .ok (b, got, rest)
  | .ended e got => endOfStream (atClose got) e >>= fun b => .ok (b, got, [])

def headerLine (line : List Char) : Option (String × String) :=
  if line.isEmpty then none
  else (splitOnce (String.ofList line) ":").map fun (k, v) => (trim k, trim v)

def parseHead (head : Bytes) : Outcome String (UInt16 × List (String × String)) := do
  let lines := splitCrlf (fromUtf8Lossy head).toList
  let statusLine := lines.headD []
  let status ← okOr ((splitWhitespace statusLine)[1]?.bind fun w => parseU16 (String.ofList w))
    ("bad status line `" ++ String.ofList statusLine ++ "`")
  .ok (status, lines.tail.filterMap headerLine)

def isChunked (headers : List (String × String)) : Bool :=
  headers.any fun (k, v) => eqIgnoreAsciiCase k "transfer-encoding" &&
    decide ("chunked".toList <:+: (toAsciiLowercase v).toList)

def contentLength (headers : List (String × String)) : Option Nat :=
  (headers.find? fun (k, _) => eqIgnoreAsciiCase k "content-length").bind
    fun (_, v) => parseUsize v

/-- The loop for a length: a stream that is closed too early gives what it has. -/
def readLength (n : Nat) (got : Bytes) (reads : List Read) : Outcome String Bytes :=
  readUntil (fun got => if n ≤ got.length then some (.ok (got.take n)) else none)
    (fun got => .ok (got.take n)) got reads >>= fun x => .ok x.1

def readToEnd (got : Bytes) (reads : List Read) : Outcome String Bytes :=
  readUntil (fun _ => none) .ok got reads >>= fun x => .ok x.1

def readBody (checks : Bool) (headers : List (String × String)) (got : Bytes)
    (reads : List Read) : Outcome String Bytes :=
  if isChunked headers then
    if h : got.length < 2 ^ 63 then readChunked checks ⟨got, h⟩ reads else abort
  else
    match contentLength headers with
    | some n => readLength n got reads
    | none => readToEnd got reads

def readResponse (checks : Bool) (reads : List Read) : Outcome String HttpResponse := do
  let (i, raw, reads) ← readUntil (fun raw => (findSubslice headEnd raw).map .ok)
    (fun _ => fail "connection closed before headers") [] reads
  let (status, headers) ← parseHead (raw.take (i + 4))
  let body ← readBody checks headers (raw.drop (i + 4)) reads
  .ok ⟨status, headers, body⟩

end UnidppTrust
