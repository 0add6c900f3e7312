import UnidppTrust.Journal

namespace UnidppTrust
open Rust Json
set_option autoImplicit true

inductive CachePolicy where
  | current
  | pointInTime
  | noStore
  deriving DecidableEq

def CachePolicy.headerValue : CachePolicy → String
  | .current => "public, max-age=30, must-revalidate"
  | .pointInTime => "public, max-age=86400, immutable"
  | .noStore => "no-store"

/-- What the handlers read of a request: the query, the headers whose value is text, under their
lower-case names, and the body. -/
structure Request where
  query : StringMap String
  headers : StringMap String
  body : String

structure Response where
  status : Nat
  headers : List (String × String)
  body : Bytes

/-- The service: its crates, the configured token, its documents that no store enters, and the
headers that sign a body. -/
structure App (V : Vocabulary) where
  crates : Crates V
  adminToken : Option String
  discovery : Value
  keyring : Fields
  contract : String
  signHeaders : Bytes → List (String × String)

/-- The readings of the clock one request makes: for its response, and for each record. -/
structure Moment where
  now : Timestamp
  records : Nat → Tick

structure Doc where
  status : Nat
  doc : Value
  asOf : Timestamp
  cache : CachePolicy

structure Refusal where
  status : Nat
  message : String

def badRequest (m : String) : Refusal := ⟨400, m⟩

def unauthorized : Refusal := ⟨401, "unauthorized"⟩

def forbidden (m : String) : Refusal := ⟨403, m⟩

def notFound (m : String) : Refusal := ⟨404, m⟩

def conflict (m : String) : Refusal := ⟨409, m⟩

def unprocessable (m : String) : Refusal := ⟨422, m⟩

def storeError : StoreError → Refusal
  | .conflict m => conflict m
  | .invalid m => badRequest m
  | .notFound m => notFound m

variable {V : Vocabulary} (A : App V)

def signed (status : Nat) (doc : Value) (asOf : Timestamp) (cache : CachePolicy) : Response :=
  let body := bytes doc.toStringPretty
  ⟨status, [("content-type", "application/json"), ("x-as-of", asOf.toString)] ++
    A.signHeaders body ++ [("cache-control", cache.headerValue)], body⟩

def errorResponse (r : Refusal) (now : Timestamp) : Response :=
  signed A r.status (.object [("error", .str r.message)]) now .noStore

/-- The response of a handler that answers with documents; the parts of its head are the service's
own, which the builder accepts. -/
def answer (now : Timestamp) : Outcome Refusal Doc → Outcome Empty Response
  | .ok d => .ok (signed A d.status d.doc d.asOf d.cache)
  | .error (.err r) => .ok (errorResponse A r now)
  | .error .abort => abort

/-- The bytes a header value may have. -/
def isHeaderValue (s : String) : Bool := (bytes s).all fun b => (32 ≤ b && b ≠ 127) || b = 9

/-- The response builder, which fails on a bad header value. -/
def build (status : Nat) (headers : List (String × String)) (body : Bytes) :
    Outcome Empty Response :=
  if headers.all fun h => isHeaderValue h.2 then .ok ⟨status, headers, body⟩ else abort

def stated (x : Outcome String α) : Outcome Refusal α := mapErr badRequest x

def parseBody (body : String) : Outcome Refusal Value :=
  stated (mapErr ("invalid JSON body: " ++ ·) (lift (A.crates.json.fromStr body)))

def reqStr (v : Value) (key : String) : Outcome Refusal String :=
  match (v.get key).bind Value.asStr with
  | some s => if (trim s).isEmpty then fail (badRequest ("`" ++ key ++ "` is required")) else .ok s
  | none => fail (badRequest ("`" ++ key ++ "` is required"))

def optStr (v : Value) (key : String) : Option String :=
  match (v.get key).bind Value.asStr with
  | some s => if (trim s).isEmpty then none else some (trim s)
  | none => none

def validateToken (s field : String) : Outcome Refusal Unit :=
  if s.isEmpty ∨ '/' ∈ s.toList ∨ s.toList.any isWhitespace ∨ (bytes s).length > 256 then
    fail (badRequest ("`" ++ field ++ "` must be 1-256 characters without `/` or whitespace"))
  else .ok ()

/-- `at`, or its alias; the empty text counts as absent. -/
def parseAt (query : StringMap String) : Outcome Refusal (Option Timestamp) :=
  match query["at"]?.or query["asof"]? with
  | none => .ok none
  | some s =>
    if s.isEmpty then .ok none
    else stated (mapErr (fun e => "invalid `at` parameter: " ++ e.toString)
      ((Timestamp.parse s).map some))

def optQuery (query : StringMap String) (key : String) : Option String :=
  (query[key]?.map trim).filter fun s => !s.isEmpty

def parseUsize (s : String) : Option Nat :=
  let digits := match s.toList with
    | '+' :: ds => ds
    | ds => ds
  if digits.isEmpty ∨ !digits.all Char.isDigit then none
  else
    let n := Nat.ofDigitChars 10 digits 0
    if n < 2 ^ 64 then some n else none

def requireAdmin (req : Request) : Outcome Refusal Unit :=
  match A.adminToken with
  | none => .ok ()
  | some token =>
    if req.headers["authorization"]?.bind (stripPrefix · "Bearer ") = some token then .ok ()
    else fail unauthorized

def cacheFor (at_ : Option Timestamp) : CachePolicy :=
  if at_.isSome then .pointInTime else .current

end UnidppTrust
