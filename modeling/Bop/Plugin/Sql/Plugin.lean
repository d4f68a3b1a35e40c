import Bop.Plugin.Remote

/-!
# The SQL Plugins

The postgres and the mariadb plugin are the same plugin over different command
lines: a dump client writes a database as a script of statements, and a client
reads the script back into a database. They differ in their names, in the
commands and in the words by which they recognise that a database exists.

A restore whose resource is marked as a test goes into a database of its own.
It is created first, the script is read into it, and it is dropped again,
whatever became of the script. If it cannot be created the restore stops there.

## Main definitions

* `SqlPlugin`: What the two differ in.
* `restore`: Reading an artifact's script into a database.
* `backup`: Writing a database as an artifact.
* `Session`: What a restore does.

## Theorems

* `restore_session`: Every restore is one of the sessions.
-/

namespace Bop

namespace Sql

open Prog Remote

/-- What the two plugins differ in, for one configuration. -/
structure SqlPlugin where
  name : Bytes
  /-- How an artifact file is named before the resource. -/
  fileLabel : Bytes
  dumpClient : Bytes
  /-- What the server says when the database to create exists. -/
  existsMarker : Bytes
  dumpCommand : Bytes → Bytes
  restoreCommand : Bytes → Bytes
  createDatabaseCommand : Bytes → Bytes
  dropDatabaseCommand : Bytes → Bytes

variable (p : SqlPlugin)

/-- `Plugin.dropScratchDatabase`. A failure is only logged. -/
def dropScratchDatabase (database : Bytes) : Proc Unit := do
  let _ ← run (p.dropDatabaseCommand database) none
  return ()

/-- `isAlreadyExistsError`. -/
def isAlreadyExistsError (err : Bytes) : Bool := p.existsMarker <:+: err

/-- The error of a test whose database could not be created. -/
def createError (database err : Bytes) : Bytes :=
  if isAlreadyExistsError p err then
    p.name ++ ": restore-test scratch database " ++ quoteGo database ++ " already exists - not " ++
      "created by this run, refusing to restore into or drop it; a previous restore-test may " ++
      "have crashed before cleanup, drop it manually to retry: " ++ err
  else p.name ++ ": create restore-test scratch database " ++ quoteGo database ++ ": " ++ err

/-- A restore's part once there is a database to restore into. -/
def restoreInto (a : Artifact) (f : FileContent) (isRestoreTest : Bool) :
    Proc (Except Bytes Unit) := do
  match ← run (p.restoreCommand a.resourceID) (some f) with
  | .error err =>
      if isRestoreTest then dropScratchDatabase p a.resourceID
      return .error (p.name ++ ": restore " ++ a.resourceID ++ ": " ++ err)
  | .ok _ =>
      if isRestoreTest then dropScratchDatabase p a.resourceID
      return .ok ()

/-- A restore from an artifact that was opened. -/
def restoreFrom (a : Artifact) (f : FileContent) : Proc (Except Bytes Unit) :=
  let isRestoreTest := hasSuffix a.resourceID restoreTestSuffix
  check (if isRestoreTest then run (p.createDatabaseCommand a.resourceID) none
      else return .ok ())
    (createError p a.resourceID) fun _ => restoreInto p a f isRestoreTest

/-- `Plugin.Restore`. -/
def restore (a : Artifact) : Proc (Except Bytes Unit) :=
  check (op (RemoteOp.openFile a.path)) (fun err => p.name ++ ": open artifact: " ++ err)
    fun f => restoreFrom p a f

/-- `Plugin.Backup`. -/
def backup (tempDir : Bytes) (res : Resource) : Proc (Except Bytes Artifact) :=
  backupInto p.name tempDir (p.fileLabel ++ "-" ++ res.id ++ "-*") (p.dumpCommand res.id)
    (fun err => p.name ++ ": " ++ p.dumpClient ++ " " ++ res.id ++ ": " ++ err) res

/-- What a restore does, with the answers, and what it returns. -/
inductive Session (a : Artifact) : RemoteTrace → Except Bytes Unit → Prop
  /-- The artifact does not open. -/
  | unopened (err msg : Bytes) : Session a [⟨.openFile a.path, .error err⟩] (.error msg)
  /-- A test's database cannot be created. -/
  | refused (f : FileContent) (err msg : Bytes)
      (htest : hasSuffix a.resourceID restoreTestSuffix = true) :
      Session a [⟨.openFile a.path, .ok f⟩,
        ⟨.run (p.createDatabaseCommand a.resourceID) none none, .error err⟩] (.error msg)
  /-- A test: its database is created, restored into and dropped. -/
  | tested (f : FileContent) (x y r : Except Bytes Unit)
      (htest : hasSuffix a.resourceID restoreTestSuffix = true) (hr : r.isOk = x.isOk) :
      Session a [⟨.openFile a.path, .ok f⟩,
        ⟨.run (p.createDatabaseCommand a.resourceID) none none, .ok ()⟩,
        ⟨.run (p.restoreCommand a.resourceID) (some f) none, x⟩,
        ⟨.run (p.dropDatabaseCommand a.resourceID) none none, y⟩] r
  /-- A real restore. -/
  | restored (f : FileContent) (x r : Except Bytes Unit)
      (hreal : hasSuffix a.resourceID restoreTestSuffix = false) (hr : r.isOk = x.isOk) :
      Session a [⟨.openFile a.path, .ok f⟩,
        ⟨.run (p.restoreCommand a.resourceID) (some f) none, x⟩] r

/-- Reading the dump in, and dropping a test's database after it. -/
theorem restoreInto_runs (a : Artifact) (f : FileContent) (isRestoreTest : Bool)
    (tr : RemoteTrace) (r : Except Bytes Unit)
    (h : Runs (restoreInto p a f isRestoreTest) tr r) :
    ∃ x, r.isOk = Except.isOk x ∧
      ((isRestoreTest = false ∧
        tr = [⟨.run (p.restoreCommand a.resourceID) (some f) none, x⟩]) ∨
      (isRestoreTest = true ∧ ∃ y,
        tr = [⟨.run (p.restoreCommand a.resourceID) (some f) none, x⟩,
          ⟨.run (p.dropDatabaseCommand a.resourceID) none none, y⟩])) := by
  rcases (runs_call_iff _ _ _ _).mp h with ⟨x, tr', rfl, hrest⟩
  -- Whatever the client said, the drop follows in a test and nothing otherwise.
  have hend : ∀ r' : Except Bytes Unit, Runs (do
        if isRestoreTest then dropScratchDatabase p a.resourceID
        return r' : Proc (Except Bytes Unit)) tr' r →
      r = r' ∧ ((isRestoreTest = false ∧ tr' = []) ∨ (isRestoreTest = true ∧
        ∃ y, tr' = [⟨.run (p.dropDatabaseCommand a.resourceID) none none, y⟩])) := by
    intro r' hr
    cases isRestoreTest with
    | false =>
        rcases (runs_ret_iff _ _ _).mp hr with ⟨rfl, rfl⟩
        exact ⟨rfl, Or.inl ⟨rfl, rfl⟩⟩
    | true =>
        rcases (runs_call_iff _ _ _ _).mp hr with ⟨y, tr'', rfl, hret⟩
        rcases (runs_ret_iff _ _ _).mp hret with ⟨rfl, rfl⟩
        exact ⟨rfl, Or.inr ⟨rfl, y, rfl⟩⟩
  cases x with
  | error err =>
      rcases hend _ hrest with ⟨rfl, ⟨htest, rfl⟩ | ⟨htest, y, rfl⟩⟩
      · exact ⟨.error err, rfl, Or.inl ⟨htest, rfl⟩⟩
      · exact ⟨.error err, rfl, Or.inr ⟨htest, y, rfl⟩⟩
  | ok u =>
      rcases hend _ hrest with ⟨rfl, ⟨htest, rfl⟩ | ⟨htest, y, rfl⟩⟩
      · exact ⟨.ok u, rfl, Or.inl ⟨htest, rfl⟩⟩
      · exact ⟨.ok u, rfl, Or.inr ⟨htest, y, rfl⟩⟩

/-- Every restore is one of the sessions. -/
theorem restore_session (a : Artifact) (tr : RemoteTrace) (r : Except Bytes Unit)
    (h : Runs (restore p a) tr r) : Session p a tr r := by
  rcases (runs_call_iff _ _ _ _).mp h with ⟨opened, tr', rfl, hopened⟩
  rcases opened with err | f
  · rcases (runs_ret_iff _ _ _).mp hopened with ⟨rfl, rfl⟩
    exact Session.unopened err _
  · change Runs (restoreFrom p a f) tr' r at hopened
    unfold restoreFrom at hopened
    -- The suffix of the resource decides between a test and a restore.
    by_cases htest : hasSuffix a.resourceID restoreTestSuffix = true
    · simp only [htest, if_true] at hopened
      rcases (runs_call_iff _ _ _ _).mp hopened with ⟨created, tr'', rfl, hcreated⟩
      rcases created with err | u
      · rcases (runs_ret_iff _ _ _).mp hcreated with ⟨rfl, rfl⟩
        exact Session.refused f err _ htest
      · rcases restoreInto_runs p a f true tr'' r hcreated with
          ⟨x, hr, ⟨habsurd, _⟩ | ⟨_, y, rfl⟩⟩
        · cases habsurd
        · exact Session.tested f x y r htest hr
    · rw [Bool.not_eq_true] at htest
      simp only [htest, Bool.false_eq_true, if_false] at hopened
      rcases restoreInto_runs p a f false tr' r hopened with
        ⟨x, hr, ⟨_, rfl⟩ | ⟨habsurd, _⟩⟩
      · exact Session.restored f x r htest hr
      · cases habsurd

end Sql

end Bop
