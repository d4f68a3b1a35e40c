import Bop.Core
import Bop.Effect.Handler
import Bop.Text.Lines

/-!
# Plugins over a Remote Shell

The plugins that reach their host by running commands on it. An executor takes
a command line, possibly something to feed it and somewhere to put its output,
and answers with an error or without one. Besides that a plugin only touches
the files of the machine it runs on.

The three plugins make an artifact the same way: a new file, one command whose
output goes into it, and the file is removed again if anything fails.

## Main definitions

* `RemoteOp`, `RemoteAns`: All such a plugin can do.
* `Proc`: A program of the plugin.
* `run`: Running a command whose output nobody reads.
* `backupInto`: One command's output as an artifact.
* `health`: The check that the host answers.

-/

namespace Bop

namespace Remote

open Prog

/-- All a plugin with a remote shell can do. -/
inductive RemoteOp
  | openFile (path : Bytes)
  | stat (path : Bytes)
  | createTemp (dir pattern : Bytes)
  | closeFile (path : Bytes)
  | removeFile (path : Bytes)
  /-- `Executor.Run`, with the file its output goes to if it is kept. -/
  | run (command : Bytes) (stdin : Option FileContent) (stdout : Option Bytes)
  | now

/-- What each of these answers. -/
abbrev RemoteAns : RemoteOp → Type
  | .openFile _ => Except Bytes FileContent
  | .stat _ => Except Bytes Int
  | .createTemp _ _ => Except Bytes Bytes
  | .closeFile _ => Except Bytes Unit
  | .removeFile _ => Except Bytes Unit
  | .run _ _ _ => Except Bytes Unit
  | .now => Time

/-- A program of the plugin. -/
abbrev Proc (α : Type) := Prog RemoteOp RemoteAns α

/-- What the plugin did, with the answers. -/
abbrev RemoteTrace := Prog.Trace RemoteOp RemoteAns

/-- Running a command whose output is discarded. -/
abbrev run (command : Bytes) (stdin : Option FileContent) : Proc (Except Bytes Unit) :=
  op (RemoteOp.run command stdin none)

/-- An artifact file that is given up: it is closed and then removed. -/
def discard (path : Bytes) : Proc Unit := do
  let _ ← op (RemoteOp.closeFile path)
  let _ ← op (RemoteOp.removeFile path)
  return ()

/-- `Plugin.Backup`, given the plugin's name, the pattern of its files, its
    command and how it reports that command's failure. -/
def backupInto (name tempDir pattern command : Bytes) (commandErr : Bytes → Bytes)
    (res : Resource) : Proc (Except Bytes Artifact) :=
  check (op (RemoteOp.createTemp tempDir pattern))
    (fun err => name ++ ": create artifact file: " ++ err) fun path => do
    match ← op (RemoteOp.run command none (some path)) with
    | .error err =>
        discard path
        return .error (commandErr err)
    | .ok _ => match ← op (RemoteOp.stat path) with
      | .error err =>
          discard path
          return .error (name ++ ": stat artifact: " ++ err)
      | .ok size => match ← op (RemoteOp.closeFile path) with
        | .error err =>
            let _ ← op (RemoteOp.removeFile path)
            return .error (name ++ ": close artifact: " ++ err)
        | .ok _ => do
            let createdAt ← op RemoteOp.now
            return .ok ⟨res.id, [], [], path, size, [], false, createdAt⟩

/-- `Plugin.Health`, given the plugin's name. -/
def health (name : Bytes) : Proc (Except Bytes Unit) :=
  check (run "echo ok" none) (fun err => name ++ ": health check: " ++ err) fun _ =>
  return .ok ()

end Remote

end Bop
