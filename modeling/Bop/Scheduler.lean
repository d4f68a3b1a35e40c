import Bop.Process

/-!
# The Scheduler

What a schedule does when it fires: one job for every plugin of the server,
each persisted before it is enqueued. A job that cannot be persisted is
skipped, and one that cannot be enqueued stays in the store as queued. The
plugins are visited in whatever order the range over the map takes.

## Main definitions

* `Scheduler.dispatch`: The jobs of one tick.
-/

namespace Bop

variable {S : Type}

namespace Scheduler

/-- `Scheduler.dispatch`, given the order in which it visits the plugins. -/
def dispatch (host : Bytes) (srv : Server) : List Bytes → Proc S Unit
  | [] => return ()
  | pluginName :: rest => do
      let job ← createNewJob host pluginName srv.retention
      match ← store .background (.createJob job) with
      | .error _ => dispatch host srv rest
      | .ok _ =>
          publish .background ⟨.backupRequested, job.id, host, pluginName, [], [], 0⟩
          -- A full queue is only logged: the row is still there.
          let _ ← call (.enqueue job)
          dispatch host srv rest

end Scheduler

end Bop
