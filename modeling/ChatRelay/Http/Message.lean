import ChatRelay.Net.Url

/-!
# HTTP requests and replies

The parts of requests and replies that the relay and its callers look at. An exchange ends with a
reply, or the peer cannot be reached, or it does not answer in time.
-/

namespace ChatRelay.Http

/-- A request. -/
structure Request where
  method : String
  /-- Path and query, perhaps behind a scheme and an authority. -/
  target : String
  contentType : Option String
  body : List UInt8
  deriving DecidableEq, Repr

/-- A reply. -/
structure Reply where
  status : Nat
  body : List UInt8
  deriving DecidableEq, Repr

def Reply.isSuccess (r : Reply) : Bool :=
  200 ≤ r.status ∧ r.status < 300

/-- The body as text. -/
def Reply.text (r : Reply) : String :=
  Text.ofUtf8Lossy r.body

/-- How an exchange ends. -/
inductive Outcome where
  | reply (reply : Reply)
  | unreachable (reason : String)
  | timeout
  deriving DecidableEq, Repr

/-- The content type of JSON. -/
def jsonType : String := "application/json"

/-- A request target without the scheme and the authority that it may begin with. -/
def targetFromPath (target : List Char) : List Char :=
  match Text.splitOnce? ':' target with
  | some (scheme, '/' :: '/' :: rest) =>
    if scheme.all Net.isSchemeChar then rest.dropWhile fun c => !"/?#".toList.contains c else target
  | _ => target

/-- The path of a request target, which ends where a query or a fragment begins. -/
def targetPath (target : String) : List Char :=
  (targetFromPath target.toList).takeWhile fun c => c ≠ '?' ∧ c ≠ '#'

/-- A request that posts a JSON text. -/
def post (target json : String) : Request :=
  ⟨"POST", target, some jsonType, json.toUTF8.toList⟩

end ChatRelay.Http
