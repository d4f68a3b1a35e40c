import Bop.Api.Tokens
import Bop.Process

/-!
# Requests and Responses

What a handler sees of a request and what it answers, as far as the program
looks at either. A path is the list of its segments, decoded; a trailing slash
makes a last segment that is empty. A response carries the value that is
written as JSON rather than the text.

The middleware asks for a bearer token and compares hashes. `Request.bearer`
is the token it extracts, so a request without one is a request that carries
no token.

## Main definitions

* `Request`, `Response`, `Body`: A request and its answer.
* `Request.bearer`: The token a request carries.
* `authMiddleware`: A handler behind a list of token hashes.
* `unauthorized`: What a refused request is answered.

## Theorems

* `auth_refused`: A request without an accepted token is refused.
* `auth_passed`: A request with an accepted token reaches the handler.
-/

namespace Bop

namespace Api

/-- An HTTP request. -/
structure Request where
  method : Bytes
  path : List Bytes
  /-- The query parameters in order. -/
  query : List (Bytes × Bytes)
  /-- The header fields in order, under their canonical names. -/
  header : List (Bytes × Bytes)
  body : FileContent

/-- The first value under a key, or the empty string. -/
def first (kvs : List (Bytes × Bytes)) (key : Bytes) : Bytes :=
  match kvs.find? (fun kv => kv.1 = key) with
  | some kv => kv.2
  | none => []

/-- The API's view of a server. It leaves out the key file and the plugins'
    settings. -/
structure HostSummary where
  name : Bytes
  host : Bytes
  plugins : List Bytes
  schedule : Bytes

/-- The API's view of a job. -/
structure JobSummary where
  id : Bytes
  host : Bytes
  plugin : Bytes
  policy : Policy
  status : Bytes
  queuedAt : Time

/-- What a response is written from. `D` is what a plugin's configuration
    looks like on the wire. -/
inductive Body (D : Type)
  | error (msg : Bytes)
  | hosts (hosts : List HostSummary)
  | jobs (jobs : List JobSummary)
  | job (job : JobSummary)
  | snapshots (snaps : List Snapshot)
  | events (events : List Event)
  | config (dto : D)
  | page (content : Bytes)

/-- A status code and what the body is written from. -/
structure Response (D : Type) where
  status : Nat
  body : Body D

/-- `writeError`. -/
def writeError {D : Type} (status : Nat) (msg : Bytes) : Response D := ⟨status, .error msg⟩

/-- `strings.CutPrefix`. -/
def cutPrefix (s start : Bytes) : Option Bytes :=
  if start.isPrefixOf s then some (s.drop start.length) else none

/-- The token after `Bearer ` in the Authorization header, if there is one. -/
def Request.bearer (req : Request) : Option Bytes :=
  match cutPrefix (first req.header "Authorization") "Bearer " with
  | none => none
  | some token => if token = [] then none else some token

variable {S D Digest : Type} [DecidableEq Digest]

/-- `authMiddleware`: the handler runs when the token's hash is among the
    accepted ones. -/
def authMiddleware (sha256 : Bytes → Digest) (hashes : List Digest)
    (next : Proc S (Response D)) (req : Request) : Proc S (Response D) :=
  match req.bearer with
  | none => return writeError 401 "missing or malformed Authorization header"
  | some token =>
      if sha256 token ∈ hashes then next else return writeError 401 "invalid token"

/-- The refusal of a request. It depends on the request alone. -/
def unauthorized (req : Request) : Response D :=
  match req.bearer with
  | none => writeError 401 "missing or malformed Authorization header"
  | some _ => writeError 401 "invalid token"

theorem unauthorized_status (req : Request) : (unauthorized req : Response D).status = 401 := by
  unfold unauthorized
  split <;> rfl

/-- A request without an accepted token is refused, whatever the handler would
    have done. -/
theorem auth_refused (sha256 : Bytes → Digest) (hashes : List Digest) (req : Request)
    (h : ∀ token, req.bearer = some token → sha256 token ∉ hashes)
    (next : Proc S (Response D)) :
    authMiddleware sha256 hashes next req = return unauthorized req := by
  unfold authMiddleware unauthorized
  cases hb : req.bearer with
  | none => rfl
  | some token => simp only [h token hb, if_false]

/-- A request with an accepted token reaches the handler. -/
theorem auth_passed (sha256 : Bytes → Digest) (hashes : List Digest) (req : Request)
    (token : Bytes) (hb : req.bearer = some token) (h : sha256 token ∈ hashes)
    (next : Proc S (Response D)) : authMiddleware sha256 hashes next req = next := by
  simp only [authMiddleware, hb, h, if_true]

end Api

end Bop
