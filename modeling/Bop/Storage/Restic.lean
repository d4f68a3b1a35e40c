import Bop.Effect.Interp
import Bop.Json.Decode
import Bop.Json.Dynamic
import Bop.Process
import Bop.Text.Lines

/-!
# The Restic Repository

The provider drives the `restic` binary: it builds an argument list, runs it
against its repository and reads the output. Running the binary is the one
operation below it. The runner puts the repository in front of the arguments
and the operator's extra arguments after them, whatever the command, so what
the binary is run with is not only what the provider asks for.

Snapshots are stored under the host and tagged with the plugin and the
resource, and retention is asked for with the same grouping.

## Main definitions

* `ResticProvider`: A repository and the extra arguments of its commands.
* `ResticProvider.fullArgs`: What restic is run with.
* `ResticOp`: Running restic, beside what the process does without it.
* `ResticProvider.store`, `verify`, `applyRetention`: The port's methods.
* `keepArgs`: The part of a policy that is passed on.
* `withRestic`: A process whose repositories are restic's.
-/

namespace Bop

open Prog (check)

/-- A repository that restic is run against, and the extra arguments of every
    command. -/
structure ResticProvider where
  repository : Bytes
  extraArgs : List Bytes
  deriving DecidableEq

/-- `fullArgs`: the arguments restic is run with. -/
def ResticProvider.fullArgs (p : ResticProvider) (args : List Bytes) : List Bytes :=
  (["--repo", p.repository] : List Bytes) ++ args ++ p.extraArgs

/-- Running restic with a list of arguments, and the operations that need no
    repository. -/
inductive ResticOp
  | run (fullArgs : List Bytes)
  | other (o : Op ResticProvider)

/-- A run answers with what the binary wrote, or fails. -/
abbrev ResticAns : ResticOp → Type
  | .run _ => Except Bytes Bytes
  | .other o => Ans o

/-- A program that runs restic. -/
abbrev ResticProc (α : Type) := Prog ResticOp ResticAns α

/-- `resticBackupMessage`. -/
structure ResticBackupMessage where
  messageType : Bytes
  snapshotID : Bytes

/-- Decoding one member of the message. -/
def ResticBackupMessage.member (key : Bytes) (v : Json) (msg : ResticBackupMessage) :
    Option ResticBackupMessage :=
  if Json.isField "message_type" key then
    (Json.decodeString v msg.messageType).map (fun s => { msg with messageType := s })
  else if Json.isField "snapshot_id" key then
    (Json.decodeString v msg.snapshotID).map (fun s => { msg with snapshotID := s })
  else some msg

/-- `json.Unmarshal` of one line of the output. -/
def ResticBackupMessage.decode (line : Bytes) : Option ResticBackupMessage := do
  let v ← Json.parse line
  Json.decodeObject ResticBackupMessage.member v ⟨[], []⟩

/-- The loop of `parseBackupSnapshotID`: the first summary decides, and lines
    that are not messages are skipped. -/
def summaryOf : List Bytes → Option (Except Bytes SnapshotID)
  | [] => none
  | line :: rest => match ResticBackupMessage.decode line with
    | none => summaryOf rest
    | some msg =>
        if msg.messageType = "summary" then
          if msg.snapshotID = [] then some (.error "summary message has no snapshot_id")
          else some (.ok msg.snapshotID)
        else summaryOf rest

/-- `parseBackupSnapshotID`. -/
def parseBackupSnapshotID (output : Bytes) : Except Bytes SnapshotID :=
  let scan := scanLines maxScanTokenSize output none
  match summaryOf scan.lines with
  | some r => r
  | none => match scan.err with
    | some err => .error ("scan backup output: " ++ err)
    | none => .error "no summary message in backup output"

/-- An option and its value, as two arguments. -/
def option (name value : Bytes) : List Bytes := [name, value]

/-- The options that select a policy, in the order they are passed. -/
def keepOptions (policy : Policy) : List (Bytes × Int) :=
  [("--keep-daily", policy.daily), ("--keep-weekly", policy.weekly),
    ("--keep-monthly", policy.monthly), ("--keep-yearly", policy.yearly)]

/-- The part of a policy that is passed on: the values that are positive. -/
def keepArgs (policy : Policy) : List Bytes :=
  ((keepOptions policy).filter (fun kv => 0 < kv.2)).flatMap (fun kv => option kv.1 (itoa kv.2))

/-- Some value of the policy is positive. -/
def hasPolicy (policy : Policy) : Bool := (keepOptions policy).any (fun kv => 0 < kv.2)

namespace ResticProvider

/-- `commandRunner.Run`. -/
abbrev run (p : ResticProvider) (args : List Bytes) : ResticProc (Except Bytes Bytes) :=
  Prog.op (ResticOp.run (p.fullArgs args))

/-- The arguments of a backup. -/
def storeArgs (a : Artifact) : List Bytes :=
  (["backup", a.path, "--json", "--group-by", "host,tags"] : List Bytes) ++
    (if a.host ≠ [] then option "--host" a.host else []) ++
    (if a.plugin ≠ [] then option "--tag" ("plugin:" ++ a.plugin) else []) ++
    (if a.resourceID ≠ [] then option "--tag" ("resource:" ++ a.resourceID) else [])

/-- `Store`. -/
def store (p : ResticProvider) (a : Artifact) : ResticProc (Except Bytes SnapshotID) :=
  check (p.run (storeArgs a)) ("restic backup: " ++ ·) fun out =>
  match parseBackupSnapshotID out with
  | .error err => return .error ("restic backup: " ++ err)
  | .ok id => return .ok id

/-- `Verify`: the snapshot is listed. -/
def verify (p : ResticProvider) (id : SnapshotID) : ResticProc (Except Bytes Unit) :=
  check (p.run ["snapshots", id, "--json"]) ("restic snapshots: " ++ ·) fun out =>
  match Json.parse out with
  | some (.arr (_ :: _)) => return .ok ()
  | some (.arr []) => return .error ("snapshot " ++ id ++ " not found")
  | some .null => return .error ("snapshot " ++ id ++ " not found")
  | _ => return .error ("parse restic snapshots output: " ++ Json.decodeError)

/-- The arguments of a retention. -/
def forgetArgs (host : Bytes) (policy : Policy) : List Bytes :=
  (["forget", "--group-by", "host,tags", "--prune"] : List Bytes) ++
    (if host ≠ [] then option "--host" host else []) ++ keepArgs policy

/-- `ApplyRetention`. A policy without a positive value is refused before
    anything is run. -/
def applyRetention (p : ResticProvider) (host : Bytes) (policy : Policy) :
    ResticProc (Except Bytes Unit) :=
  if hasPolicy policy = false then
    return .error ("restic forget: no retention policy specified for host " ++ quoteGo host)
  else
    check (p.run (forgetArgs host policy)) ("restic forget: " ++ ·) fun _ =>
    return .ok ()

end ResticProvider

/-- The operations of a process whose repositories are restic's. -/
def resticImpl : (o : Op ResticProvider) → ResticProc (Ans o)
  | .storeArtifact _ p a => p.store a
  | .verifySnapshot _ p id => p.verify id
  | .applyRetention _ p host policy => p.applyRetention host policy
  | o => Prog.op (ResticOp.other o)

/-- A program of such a process. -/
def withRestic {α : Type} (p : Proc ResticProvider α) : ResticProc α := Prog.interp resticImpl p

end Bop
