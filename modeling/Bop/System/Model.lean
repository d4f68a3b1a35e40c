import Bop.Api.Server
import Bop.Cli
import Bop.Daemon
import Bop.Scheduler

/-!
# A Controller and Its Store

A controller process as a transition system. The store outlives everything.
The process, when there is one, is first in its startup recovery and then runs
any number of producers, the schedules that fire and the requests that are
served, beside one consumer, which takes jobs from the queue and runs them one
at a time. Every thread is what is left of its program, and one step of the
system is one operation of one thread, answered in any way the world allows.
A crash is possible between any two steps. It takes the process and the queue
with it and leaves the store.

The pipeline of a job begins with the operation that looks up the plugin's
stored settings, and the system notes the jobs whose pipeline was begun. The
note survives crashes, so it is about the whole history.

## Main definitions

* `Threads`: The threads of a running process.
* `Sys`: The store, the queue, the process and the history.
* `Producer`: The programs that may be started beside the consumer.
* `Step`: One step.
* `Sys.initial`: No process, over a given store.
-/

namespace Bop

variable {S D Digest : Type} [DecidableEq Digest]

/-- The threads of a controller process. -/
structure Threads (S : Type) where
  /-- What is left of the startup recovery. -/
  boot : Option (Proc S (Except Bytes Unit))
  /-- What is left of each schedule that fired and each request served. -/
  producers : List (Proc S Unit)
  /-- The job being run and what is left of `RunJob`. -/
  consumer : Option (Job × Proc S (Except Bytes Unit))

/-- A store and the controller process over it. -/
structure Sys (S : Type) where
  shared : Shared
  threads : Option (Threads S)
  /-- The jobs whose pipeline was begun, over all processes so far. -/
  begun : List Bytes

/-- The system with no process, over a given store. -/
def Sys.initial (store : Store) : Sys S := ⟨⟨store, Memory.new queueCapacity⟩, none, []⟩

/-- The stored status of a job. -/
abbrev Sys.status (s : Sys S) (id : Bytes) : Option JobStatus := s.shared.store.status id

/-- The programs that run beside the consumer: a schedule that fires, visiting
    the plugins in some order, and a request being served. -/
inductive Producer (api : Api.Server S D Digest) : Proc S Unit → Prop
  | dispatch (host : Bytes) (srv : Server) (order : List Bytes) :
      Producer api (Scheduler.dispatch host srv order)
  | serve (req : Api.Request) : Producer api (do let _ ← api.serve req; return ())

/-- The operation a pipeline begins with. -/
def Op.beginsPipeline : Op S → Bool
  | .store _ (.getPluginSettings _ _) => true
  | _ => false

/-- One step of the system. `c` is the controller of the process and `api` the
    server it exposes. -/
inductive Step (c : Controller S) (api : Api.Server S D Digest) : Sys S → Sys S → Prop
  /-- The process starts. -/
  | boot (s : Sys S) (h : s.threads = none) :
      Step c api s { s with
        shared := { s.shared with queue := Memory.new queueCapacity }
        threads := some ⟨some Cli.startup, [], none⟩ }
  /-- The startup recovery makes a step. -/
  | bootCall (s : Sys S) (t : Threads S) (o : Op S) (k : Ans o → Proc S (Except Bytes Unit))
      (x : Ans o) (w : Shared) (h : s.threads = some t) (hboot : t.boot = some (.call o k))
      (hw : SharedSem s.shared o x w) :
      Step c api s { s with shared := w, threads := some { t with boot := some (k x) } }
  /-- The startup recovery is done and the process is ready. -/
  | ready (s : Sys S) (t : Threads S) (h : s.threads = some t)
      (hboot : t.boot = some (.ret (.ok ()))) :
      Step c api s { s with threads := some { t with boot := none } }
  /-- A schedule fires or a request arrives. -/
  | produce (s : Sys S) (t : Threads S) (p : Proc S Unit) (h : s.threads = some t)
      (hready : t.boot = none) (hp : Producer api p) :
      Step c api s { s with threads := some { t with producers := p :: t.producers } }
  /-- A producer makes a step. -/
  | producerCall (s : Sys S) (t : Threads S) (before after : List (Proc S Unit)) (o : Op S)
      (k : Ans o → Proc S Unit) (x : Ans o) (w : Shared) (h : s.threads = some t)
      (hproducers : t.producers = before ++ .call o k :: after)
      (hw : SharedSem s.shared o x w) :
      Step c api s { s with
        shared := w, threads := some { t with producers := before ++ k x :: after } }
  /-- The consumer takes a job. -/
  | dequeue (s : Sys S) (t : Threads S) (job : Job) (q : Memory) (h : s.threads = some t)
      (hready : t.boot = none) (hidle : t.consumer = none)
      (hq : s.shared.queue.dequeue? = some (job, q)) :
      Step c api s { s with
        shared := { s.shared with queue := q }
        threads := some { t with consumer := some (job, c.runJob job) } }
  /-- The consumer makes a step. -/
  | consumerCall (s : Sys S) (t : Threads S) (job : Job) (o : Op S)
      (k : Ans o → Proc S (Except Bytes Unit)) (x : Ans o) (w : Shared)
      (h : s.threads = some t) (hconsumer : t.consumer = some (job, .call o k))
      (hw : SharedSem s.shared o x w) :
      Step c api s
        { shared := w
          threads := some { t with consumer := some (job, k x) }
          begun := if o.beginsPipeline then s.begun ++ [job.id] else s.begun }
  /-- The consumer is done with its job. -/
  | consumerDone (s : Sys S) (t : Threads S) (job : Job) (r : Except Bytes Unit)
      (h : s.threads = some t) (hconsumer : t.consumer = some (job, .ret r)) :
      Step c api s { s with threads := some { t with consumer := none } }
  /-- The process ends, whatever it was doing. -/
  | crash (s : Sys S) :
      Step c api s { s with
        shared := { s.shared with queue := Memory.new queueCapacity }, threads := none }

end Bop
