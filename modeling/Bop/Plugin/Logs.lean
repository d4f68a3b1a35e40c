import Bop.Plugin.Remote
import Bop.Plugin.Shellcmd
import Bop.Text.Timestamp

/-!
# The Logs Plugin

The journal of a host is a resource, and so is the log of each of its
containers. A backup captures what was logged within a window that ends now. A
resource that is neither is refused before anything is made.

Logs are not restored: a restore always fails.

## Main definitions

* `Config`: The plugin's configuration.
* `containerName`: The names containers may have.
* `logsCommand`: The command whose output is a resource's log.
* `backup`, `restore`, `verify`, `health`: The plugin.
-/

namespace Bop

namespace Logs

open Prog Remote

/-- The plugin's configuration. Durations are in nanoseconds. -/
structure Config where
  journal : Bool
  containers : List Bytes
  excludeContainers : List Bytes
  window : Int

/-- `journalResource`. -/
def journalResource : Bytes := "journal"

/-- `containerResourcePrefix`. -/
def containerResourcePrefix : Bytes := "container-"

/-- `[a-zA-Z0-9]`. -/
def nameStart (b : UInt8) : Bool := (97 ≤ b ∧ b ≤ 122) ∨ (65 ≤ b ∧ b ≤ 90) ∨ (48 ≤ b ∧ b ≤ 57)

/-- `[a-zA-Z0-9_.-]`. -/
def namePart (b : UInt8) : Bool := nameStart b ∨ b = 95 ∨ b = 46 ∨ b = 45

/-- `containerName.MatchString`. -/
def containerName : Bytes → Bool
  | [] => false
  | b :: rest => nameStart b && rest.all namePart

/-- The day and the clock of a time in UTC. -/
def utcDate (t : Time) : Bytes := dateText (civil (absoluteSecond t / 86400))

def utcClock (t : Time) : Bytes := clockText (absoluteSecond t % 86400)

/-- The journal from a time on. -/
def journalCommand (since : Time) : Bytes :=
  Shellcmd.build ["journalctl", "-q", "--no-pager", "-o", "short-iso-precise", "--since",
    utcDate since ++ " " ++ utcClock since ++ " UTC"]

/-- The log of a container from a time on. -/
def containerLogsCommand (name : Bytes) (since : Time) : Bytes :=
  Shellcmd.build ["sh", "-c", "exec docker logs --timestamps --since \"$1\" \"$2\" 2>&1", "sh",
    utcDate since ++ "T" ++ utcClock since ++ "Z", name]

/-- The command for a resource, unless it is unknown. -/
def logsCommand (since : Time) (id : Bytes) : Option Bytes :=
  let name := id.drop containerResourcePrefix.length
  if id = journalResource then some (journalCommand since)
  else if containerResourcePrefix.isPrefixOf id = true ∧ containerName name = true then
    some (containerLogsCommand name since)
  else none

/-- `Plugin.Backup`. -/
def backup (cfg : Config) (tempDir : Bytes) (res : Resource) : Proc (Except Bytes Artifact) := do
  let started ← op RemoteOp.now
  match logsCommand (started - cfg.window) res.id with
  | none => return .error ("logs: unknown resource " ++ quoteGo res.id)
  | some command =>
      backupInto "logs" tempDir ("logs-" ++ res.id ++ "-*") command
        (fun err => "logs: dump " ++ res.id ++ ": " ++ err) res

/-- `Plugin.Restore`. -/
def restore : Proc (Except Bytes Unit) :=
  return .error ("logs: logs cannot be restored in place - extract a snapshot to a file with " ++
    "`bop restore --snapshot <id> --target <file>`; do not enable verification on a server " ++
    "running the logs plugin")

/-- `Plugin.Verify`. An empty log is valid. -/
def verify (a : Artifact) : Proc (Except Bytes Unit) :=
  check (op (RemoteOp.stat a.path)) ("logs: verify: stat artifact: " ++ ·) fun _ => return .ok ()

/-- A command that may be needed for the configured logs. -/
def probe (needed : Bool) (command : Bytes) : Proc (Except Bytes Unit) :=
  if needed then run command none else return .ok ()

/-- `Plugin.Health`. -/
def health (cfg : Config) : Proc (Except Bytes Unit) :=
  check (probe cfg.journal "journalctl -q -n 0 --no-pager")
    (fun err => "logs: health check: journal not readable (is the SSH user in " ++
      "systemd-journal?): " ++ err) fun _ =>
  check (probe (cfg.containers ≠ []) "docker ps -q")
    (fun err => "logs: health check: docker not usable (is the SSH user in the docker " ++
      "group?): " ++ err) fun _ =>
  return .ok ()

example : journalCommand 0 =
    "'journalctl' '-q' '--no-pager' '-o' 'short-iso-precise' '--since' '1970-01-01 00:00:00 UTC'" :=
  by decide +kernel

end Logs

end Bop
