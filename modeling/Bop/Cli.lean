import Bop.Controller.RunJob

/-!
# The Commands

What `bop controller` does before it accepts work, and what `bop backup` does
altogether. The controller first fails the jobs a previous run left in
progress and then enqueues the ones still queued; it looks at the store once,
before any consumer or producer exists. The one-shot command creates its job
and runs it in its own process.

## Main definitions

* `Cli.reconcileQueuedJobs`: Enqueueing what is stored as queued.
* `Cli.startup`: The recovery a controller makes when it starts.
* `Cli.backup`: The one-shot command.
-/

namespace Bop

open Prog (check forEach)

variable {S : Type}

namespace Cli

/-- `reconcileQueuedJobs`. A job the queue refuses is only logged. -/
def reconcileQueuedJobs : Proc S (Except Bytes Unit) :=
  check (store .caller (.listJobsByStatus .queued)) ("list queued jobs: " ++ ·) fun jobs => do
  forEach jobs (fun job => do
    let _ ← call (.enqueue job)
    return ())
  return .ok ()

/-- The recovery at the head of `newControllerCmd`. -/
def startup : Proc S (Except Bytes Unit) :=
  check (store .caller .failOrphanedJobs) ("fail orphaned jobs: " ++ ·) fun _ =>
  check reconcileQueuedJobs ("reconcile queued jobs: " ++ ·) fun _ =>
  return .ok ()

/-- `newBackupCmd`, once the application is built. -/
def backup (c : Controller S) (host pluginName : Bytes) : Proc S (Except Bytes Unit) :=
  if host = [] ∨ pluginName = [] then return .error "--host and --plugin are required"
  else match c.inventory.servers.lookup host with
    | none => return .error ("host " ++ quoteGo host ++ " not found in inventory")
    | some srv => do
        let job ← createNewJob host pluginName srv.retention
        check (store .caller (.createJob job)) ("create job: " ++ ·) fun _ =>
        check (c.runJob job) ("backup failed: " ++ ·) fun _ =>
        return .ok ()

end Cli

end Bop
