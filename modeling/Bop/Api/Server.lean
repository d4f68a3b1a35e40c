import Bop.Api.Handlers

/-!
# The Server

The routes and which token list guards each. A write token grants read access
as well, so the reading routes accept either list and the two writing routes
only the write list. Whatever matches no route goes to the web interface,
which serves fixed files, or to the router's own refusal.

## Main definitions

* `Seg`, `Entry`: A route's pattern, its guard and its handler.
* `Server`: What a server is built from.
* `Server.table`: The registered routes.
* `Server.serve`: What a request runs.
-/

namespace Bop

namespace Api

/-- A segment of a route's pattern: fixed, or matching any one segment. -/
inductive Seg
  | lit (s : Bytes)
  | wild

/-- The values a pattern's wildcards take on a path, if it matches. -/
def matchPath : List Seg → List Bytes → Option (List Bytes)
  | [], [] => some []
  | .lit s :: pat, seg :: path => if s = seg then matchPath pat path else none
  | .wild :: pat, seg :: path =>
      if seg = [] then none else (matchPath pat path).map (fun vs => seg :: vs)
  | _, _ => none

variable {S D Digest : Type}

/-- A registered route. -/
structure Entry (S D Digest : Type) where
  method : Bytes
  pattern : List Seg
  hashes : List Digest
  handler : Request → List Bytes → Proc S (Response D)

/-- A pattern for GET also matches HEAD. -/
def matchMethod (registered method : Bytes) : Bool :=
  registered = method || (registered = "GET" && method = "HEAD")

/-- The wildcard values of a request a route matches. -/
def Entry.matches (e : Entry S D Digest) (req : Request) : Option (List Bytes) :=
  if matchMethod e.method req.method then matchPath e.pattern req.path else none

/-- What `NewServer` is given. -/
structure Server (S D Digest : Type) where
  sha256 : Bytes → Digest
  readTokens : List Bytes
  writeTokens : List Bytes
  ctl : Controller S
  dtos : Bytes → Option (ConfigDTO D)
  /-- The web interface, if it is mounted. -/
  ui : Option (Request → Response D)

namespace Server

/-- A write token implicitly grants read access too. -/
def readHashes (s : Server S D Digest) : List Digest :=
  (s.readTokens ++ s.writeTokens).map s.sha256

def writeHashes (s : Server S D Digest) : List Digest := s.writeTokens.map s.sha256

/-- The routes `NewServer` registers. -/
def table (s : Server S D Digest) : List (Entry S D Digest) :=
  [⟨"GET", [.lit "v1", .lit "hosts"], s.readHashes,
      fun _ _ => return listHosts s.ctl.inventory⟩,
    ⟨"GET", [.lit "v1", .lit "jobs"], s.readHashes, fun req _ => listJobs req⟩,
    ⟨"GET", [.lit "v1", .lit "jobs", .wild], s.readHashes, fun _ vs => getJob (vs.getD 0 [])⟩,
    ⟨"GET", [.lit "v1", .lit "snapshots"], s.readHashes, fun req _ => listSnapshots req⟩,
    ⟨"GET", [.lit "v1", .lit "events"], s.readHashes, fun req _ => listEvents req⟩,
    ⟨"POST", [.lit "v1", .lit "backups"], s.writeHashes,
      fun req _ => triggerBackup s.ctl req.body⟩,
    ⟨"GET", [.lit "v1", .lit "hosts", .wild, .lit "plugins", .wild, .lit "config"],
      s.readHashes, fun _ vs => getPluginConfig s.dtos (vs.getD 0 []) (vs.getD 1 [])⟩,
    ⟨"PUT", [.lit "v1", .lit "hosts", .wild, .lit "plugins", .wild, .lit "config"],
      s.writeHashes, fun req vs => setPluginConfig s.dtos (vs.getD 0 []) (vs.getD 1 []) req⟩]

/-- The route of a request and its wildcard values. -/
def route (s : Server S D Digest) (req : Request) : Option (Entry S D Digest × List Bytes) :=
  s.table.findSome? (fun e => (e.matches req).map (fun vs => (e, vs)))

/-- What becomes of a request without a route. The router refuses a method it
    knows the path of, and a path it does not know. -/
def fallback (s : Server S D Digest) (req : Request) : Response D :=
  match s.ui with
  | some handler => handler req
  | none =>
      if s.table.any (fun e => (matchPath e.pattern req.path).isSome) then
        ⟨405, .page "Method Not Allowed\n"⟩
      else ⟨404, .page "404 page not found\n"⟩

variable [DecidableEq Digest]

/-- What a request runs. -/
def serve (s : Server S D Digest) (req : Request) : Proc S (Response D) :=
  match s.route req with
  | none => return s.fallback req
  | some (e, vs) => authMiddleware s.sha256 e.hashes (e.handler req vs) req

/-- Serving requests one after the other. -/
def serveAll (s : Server S D Digest) : List Request → Proc S (List (Response D))
  | [] => return []
  | req :: rest => do
      let resp ← s.serve req
      let resps ← s.serveAll rest
      return resp :: resps

end Server

end Api

end Bop
