import Bop.System.AtMostOnce

/-!
# Stopping a Controller

A controller process is asked to stop, or one of its servers dies. The context
of its consumer and of the pruner is cancelled, and it waits for both. Then it
stops the scheduler and the servers and closes the store. Between the cancelling
and the closing schedules may still fire and requests may still be served, and
the consumer may even take another job, since a cancelled context and a job that
waits are both ready in its select.

A statement that is issued under a cancelled context answers an error and does
nothing. One that was on its way when the context was cancelled may do what it
was to do, and may answer what it likes. The pipeline's own context is derived
from the cancelled one, and the write that records how a job ended is not.

The process notes the jobs of which a write of the status answered an error. The
note is of one process, and the recovery of the next one deals with what they
left behind.

## Main definitions

* `Stage`, `Daemon`: A process and how far it is with stopping.
* `Cuts`, `uncut`, `cutShort`: What a call under a cancelled context may do.
* `DaemonStep`: One step.
* `Tended`: What holds of the rows in progress.
* `Daemon.Marking`: The write that marks a job was on its way.
* `Halting`: What a process that stops leaves alone.

## Theorems

* `step_of_daemonStep`: It is a controller over its store.
* `active_is_running`: A row in progress is of the job that is being run.
* `shutdown_keeps_rest`: Stopping disturbs no job but that one.
-/

namespace Bop

open Prog Relation

variable {S D Digest : Type} [DecidableEq Digest]

/-- How far a controller process is with stopping. -/
inductive Stage
  /-- It starts or serves. -/
  | live
  /-- The context of the consumer and the pruner is cancelled. -/
  | cancelled
  /-- Both have returned. -/
  | drained
  /-- The store is closed. -/
  | closed
  deriving DecidableEq

/-- A controller over its store, how far the process is with stopping, and the
    jobs of which it had a write refused. -/
structure Daemon (S : Type) where
  sys : Sys S
  stage : Stage
  refused : List Bytes
  /-- The call that the consumer was to make when its context was cancelled was on
      its way, and is still. -/
  inFlight : Bool

/-- No process, over a given store. -/
def Daemon.initial (store : Store) : Daemon S := ⟨Sys.initial store, .live, [], false⟩

/-- The job being run and what is left of `RunJob`. -/
def Daemon.consumer (d : Daemon S) : Option (Job × Proc S (Except Bytes Unit)) :=
  d.sys.threads.bind Threads.consumer

/-- A statement answers no error. -/
def StoreOp.succeeds : (o : StoreOp) → StoreAns o → Bool
  | .createJob _, x | .updateJobStatus _ _, x | .recordSnapshot _, x => x.isOk
  | .setPluginSettings _ _ _, x | .getJob _, x | .listJobsByStatus _, x | .listJobs, x => x.isOk
  | .failOrphanedJobs, x | .listSnapshots _, x | .listEventsPage _, x => x.isOk
  | .getPluginSettings _ _, x => x.isOk

/-- What a call that the consumer makes once its context is cancelled may do, of
    all it might. -/
abbrev Cuts (S : Type) := Shared → (o : Op S) → Ans o → Shared → Prop

/-- Anything. -/
def uncut : Cuts S := fun _ _ _ _ => True

/-- No statement is executed under that context. -/
def cutShort : Cuts S
  | w, .store .caller o, x, w' | w, .store .pipeline o, x, w' => o.succeeds x = false ∧ w' = w
  | _, _, _, _ => True

/-- The job of a status write that answers an error. -/
def refusal : (o : Op S) → Ans o → List Bytes
  | .store _ (.updateJobStatus id _), x => if x.isOk then [] else [id]
  | _, _ => []

/-- `PruneEventsOlderThan`. -/
def Store.pruneEvents (s : Store) (cutoff : Time) : Store :=
  { s with events := s.events.filter (fun e => ¬ e.timestamp < cutoff) }

/-- One step of a controller process that may stop. -/
inductive DaemonStep (cuts : Cuts S) (c : Controller S) (api : Api.Server S D Digest) :
    Daemon S → Daemon S → Prop
  /-- The process starts. -/
  | start (d : Daemon S) (h : d.sys.threads = none) :
      DaemonStep cuts c api d ⟨{ d.sys with
        shared := { d.sys.shared with queue := Memory.new queueCapacity }
        threads := some ⟨some Cli.startup, [], none⟩ }, .live, [], false⟩
  /-- The startup recovery makes a step. -/
  | recover (d : Daemon S) (t : Threads S) (o : Op S) (k : Ans o → Proc S (Except Bytes Unit))
      (x : Ans o) (w : Shared) (hstage : d.stage = .live) (h : d.sys.threads = some t)
      (hboot : t.boot = some (.call o k)) (hw : SharedSem d.sys.shared o x w) :
      DaemonStep cuts c api d { d with sys := { d.sys with
        shared := w, threads := some { t with boot := some (k x) } } }
  /-- The startup recovery is done and the process is ready. -/
  | ready (d : Daemon S) (t : Threads S) (hstage : d.stage = .live) (h : d.sys.threads = some t)
      (hboot : t.boot = some (.ret (.ok ()))) :
      DaemonStep cuts c api d { d with sys := { d.sys with
        threads := some { t with boot := none } } }
  /-- A schedule fires or a request arrives. -/
  | produce (d : Daemon S) (t : Threads S) (p : Proc S Unit) (hstage : d.stage ≠ .closed)
      (h : d.sys.threads = some t) (hready : t.boot = none) (hp : Producer api p) :
      DaemonStep cuts c api d { d with sys := { d.sys with
        threads := some { t with producers := p :: t.producers } } }
  /-- A producer makes a step. Once the store is closed it does nothing there. -/
  | producerCall (d : Daemon S) (t : Threads S) (before after : List (Proc S Unit)) (o : Op S)
      (k : Ans o → Proc S Unit) (x : Ans o) (w : Shared) (h : d.sys.threads = some t)
      (hproducers : t.producers = before ++ .call o k :: after)
      (hw : SharedSem d.sys.shared o x w)
      (hclosed : d.stage = .closed → w.store = d.sys.shared.store) :
      DaemonStep cuts c api d { d with sys := { d.sys with
        shared := w, threads := some { t with producers := before ++ k x :: after } } }
  /-- The consumer takes a job, its context cancelled or not. -/
  | dequeue (d : Daemon S) (t : Threads S) (job : Job) (q : Memory)
      (hstage : d.stage = .live ∨ d.stage = .cancelled) (h : d.sys.threads = some t)
      (hready : t.boot = none) (hidle : t.consumer = none)
      (hq : d.sys.shared.queue.dequeue? = some (job, q)) :
      DaemonStep cuts c api d { d with
        sys := { d.sys with
          shared := { d.sys.shared with queue := q }
          threads := some { t with consumer := some (job, c.runJob job) } }
        inFlight := false }
  /-- The consumer makes a step. -/
  | consumerCall (d : Daemon S) (t : Threads S) (job : Job) (o : Op S)
      (k : Ans o → Proc S (Except Bytes Unit)) (x : Ans o) (w : Shared)
      (h : d.sys.threads = some t) (hconsumer : t.consumer = some (job, .call o k))
      (hw : SharedSem d.sys.shared o x w)
      (hcut : d.stage = .cancelled → d.inFlight = false → cuts d.sys.shared o x w) :
      DaemonStep cuts c api d { d with
        sys :=
          { shared := w
            threads := some { t with consumer := some (job, k x) }
            begun := if o.beginsPipeline then d.sys.begun ++ [job.id] else d.sys.begun }
        refused := refusal o x ++ d.refused
        inFlight := false }
  /-- The consumer is done with its job. -/
  | consumerDone (d : Daemon S) (t : Threads S) (job : Job) (r : Except Bytes Unit)
      (h : d.sys.threads = some t) (hconsumer : t.consumer = some (job, .ret r)) :
      DaemonStep cuts c api d { d with
        sys := { d.sys with threads := some { t with consumer := none } }
        inFlight := false }
  /-- The pruner removes old events. -/
  | prune (d : Daemon S) (t : Threads S) (cutoff : Time)
      (hstage : d.stage = .live ∨ d.stage = .cancelled) (h : d.sys.threads = some t)
      (hready : t.boot = none) :
      DaemonStep cuts c api d { d with sys := { d.sys with
        shared := { d.sys.shared with store := d.sys.shared.store.pruneEvents cutoff } } }
  /-- A signal arrives, or a server exits. The consumer's call may be on its way. -/
  | cancel (d : Daemon S) (t : Threads S) (inFlight : Bool) (hstage : d.stage = .live)
      (h : d.sys.threads = some t) (hready : t.boot = none) :
      DaemonStep cuts c api d { d with stage := .cancelled, inFlight := inFlight }
  /-- The consumer and the pruner have returned. -/
  | drain (d : Daemon S) (t : Threads S) (hstage : d.stage = .cancelled)
      (h : d.sys.threads = some t) (hidle : t.consumer = none) :
      DaemonStep cuts c api d { d with stage := .drained }
  /-- The store is closed. -/
  | close (d : Daemon S) (hstage : d.stage = .drained) :
      DaemonStep cuts c api d { d with stage := .closed }
  /-- The process ends, whatever it was doing. -/
  | exit (d : Daemon S) :
      DaemonStep cuts c api d ⟨{ d.sys with
        shared := { d.sys.shared with queue := Memory.new queueCapacity }
        threads := none }, .live, d.refused, false⟩

variable {cuts : Cuts S}

/-- A step that the rows, the queue and the threads do not see. -/
def Sys.Unseen (s s' : Sys S) : Prop :=
  s'.shared.store.jobs = s.shared.store.jobs ∧ s'.shared.queue = s.shared.queue ∧
    s'.threads = s.threads ∧ s'.begun = s.begun

/-- A step of the process is a step of a controller over its store, or one that
    does not concern it. -/
theorem step_of_daemonStep (c : Controller S) (api : Api.Server S D Digest) (d d' : Daemon S)
    (h : DaemonStep cuts c api d d') : Step c api d.sys d'.sys ∨ d.sys.Unseen d'.sys := by
  cases h with
  | start h => exact Or.inl (Step.boot _ h)
  | recover t o k x w hstage h hboot hw => exact Or.inl (Step.bootCall _ t o k x w h hboot hw)
  | ready t hstage h hboot => exact Or.inl (Step.ready _ t h hboot)
  | produce t p hstage h hready hp => exact Or.inl (Step.produce _ t p h hready hp)
  | producerCall t before after o k x w h hproducers hw hclosed =>
      exact Or.inl (Step.producerCall _ t before after o k x w h hproducers hw)
  | dequeue t job q hstage h hready hidle hq =>
      exact Or.inl (Step.dequeue _ t job q h hready hidle hq)
  | consumerCall t job o k x w h hconsumer hw hcut =>
      exact Or.inl (Step.consumerCall _ t job o k x w h hconsumer hw)
  | consumerDone t job r h hconsumer => exact Or.inl (Step.consumerDone _ t job r h hconsumer)
  | prune t cutoff hstage h hready => exact Or.inr ⟨rfl, rfl, rfl, rfl⟩
  | cancel | drain | close => exact Or.inr ⟨rfl, rfl, rfl, rfl⟩
  | exit => exact Or.inl (Step.crash _)

/-- The process keeps the ledger of a controller. -/
theorem daemon_kept (c : Controller S) (api : Api.Server S D Digest) (store : Store)
    (d : Daemon S) (h : ReflTransGen (DaemonStep cuts c api) (Daemon.initial store) d) :
    d.sys.Kept := by
  induction h with
  | refl => exact kept_initial store
  | tail _ hstep ih =>
      rcases step_of_daemonStep c api _ _ hstep with hstep | ⟨hjobs, hqueue, hthreads, hbegun⟩
      · exact (kept_step c api _ _ hstep ih).1
      · rcases ih with ⟨claims, hh, hi⟩
        refine ⟨claims, by rw [hqueue, hthreads]; exact hh, ?_⟩
        unfold Sys.ledger Store.status at hi ⊢
        rw [hjobs, hbegun]
        exact hi

/-- What the consumer of a running process is at. -/
theorem consumer_of_threads (d : Daemon S) (t : Threads S) (h : d.sys.threads = some t) :
    d.consumer = t.consumer := by
  rw [Daemon.consumer, h, Option.bind_some]

/-- The job it is running. -/
theorem consuming_of_consumer (d : Daemon S) :
    d.sys.consuming = d.consumer.map fun running => running.1.id := by
  rw [Sys.consuming, Daemon.consumer]

/-- The job that a process is running. -/
theorem consuming_of_threads (s : Sys S) (t : Threads S) (h : s.threads = some t) :
    s.consuming = t.consumer.map (fun running => running.1.id) := by
  unfold Sys.consuming
  rw [h, Option.bind_some]

/-! ### The rows in progress -/

/-- The startup recovery: whether it has failed the jobs left in progress. -/
def sweepMonitor : Monitor (Op S) Ans Bool
  | _, .store _ .failOrphanedJobs, x => some x.isOk
  | q, .store _ (.listJobsByStatus _), _ => some q
  | q, .enqueue _, _ => some q
  | _, _, _ => none

/-- A recovery that succeeds has. -/
theorem startup_sweeps : Obeys sweepMonitor false (Cli.startup : Proc S (Except Bytes Unit))
    (fun r q => r.isOk = true → q = true) := by
  refine obeys_check _ _ _ _ _ (fun x q => q = x.isOk) _ (fun x => ⟨x.isOk, rfl, rfl⟩) ?_
    (fun _ _ _ h => by cases h)
  rintro _ _ rfl
  refine obeys_check _ _ _ _ _ (fun _ q => q = true) _ ?_ (fun _ _ h _ => h)
    (fun _ _ _ h => by cases h)
  refine obeys_check _ _ _ _ _ (fun _ q => q = true) _ (fun _ => ⟨true, rfl, rfl⟩) ?_
    (fun _ _ h => h)
  rintro jobs _ rfl
  refine obeys_bind _ _ _ _ _ _ (obeys_forEach sweepMonitor _ (· = true) jobs true rfl ?_)
    fun _ _ h => h
  rintro job _ _ rfl
  exact fun _ => ⟨true, rfl, rfl⟩

/-- What holds of the rows in progress, and why: the recovery fails them all, and
    then a consumer that is done with its job has none. -/
structure Tended (d : Daemon S) : Prop where
  /-- Before the process is ready. -/
  booting : ∀ t p, d.sys.threads = some t → t.boot = some p →
    ∃ swept, Obeys sweepMonitor swept p (fun r q => r.isOk = true → q = true) ∧
      (swept = true → ∀ id, d.sys.status id ≠ some .inProgress)
  /-- The job that is being run. -/
  consumer : ∀ t job p, d.sys.threads = some t → t.consumer = some (job, p) →
    ∃ phase, Obeys (runMonitor job.id) phase p (fun _ q => q = .waiting ∨ q = .closed) ∧
      (phase = .waiting ∨ phase = .closed → d.sys.status job.id = some .inProgress →
        job.id ∈ d.refused)
  /-- The others. -/
  others : ∀ t id, d.sys.threads = some t → t.boot = none → d.sys.status id = some .inProgress →
    d.sys.consuming = some id ∨ id ∈ d.refused
  /-- Where there is no consumer any more. -/
  idle : d.stage = .drained ∨ d.stage = .closed → d.sys.consuming = none

/-- Where rows only leave progress and the consumer and the recovery stand still,
    what holds of them stays true. -/
theorem tended_aside (d d' : Daemon S) (hd : Tended d)
    (ht : ∀ t', d'.sys.threads = some t' →
      ∃ t, d.sys.threads = some t ∧ t.boot = t'.boot ∧ t.consumer = t'.consumer)
    (hconsuming : d'.sys.consuming = d.sys.consuming) (hrefused : d'.refused = d.refused)
    (hidle : d'.stage = .drained ∨ d'.stage = .closed → d.sys.consuming = none)
    (hrows : ∀ id, d'.sys.status id = some .inProgress → d.sys.status id = some .inProgress) :
    Tended d' := by
  refine ⟨fun t' p h hboot => ?_, fun t' job p h hc => ?_, fun t' id h hready hid => ?_,
    fun hs => hconsuming.trans (hidle hs)⟩
  · rcases ht t' h with ⟨t, h₀, hb, _⟩
    rcases hd.booting t p h₀ (hb.trans hboot) with ⟨swept, hp, hswept⟩
    exact ⟨swept, hp, fun hq id hid => hswept hq id (hrows id hid)⟩
  · rcases ht t' h with ⟨t, h₀, _, hcons⟩
    rcases hd.consumer t job p h₀ (hcons.trans hc) with ⟨phase, hp, hphase⟩
    exact ⟨phase, hp, fun hq hid => hrefused ▸ hphase hq (hrows _ hid)⟩
  · rcases ht t' h with ⟨t, h₀, hb, _⟩
    rw [hconsuming, hrefused]
    exact hd.others t id h₀ (hb.trans hready) (hrows id hid)

/-- A call that writes no status puts no row in progress. -/
theorem active_before (w w' : Shared) (o : Op S) (x : Ans o) (h : SharedSem w o x w')
    (hupdate : ∀ ctx id st, o ≠ .store ctx (.updateJobStatus id st))
    (hcreate : ∀ ctx job, o = .store ctx (.createJob job) → job.status = .queued) (id : Bytes)
    (hid : w'.store.status id = some .inProgress) : w.store.status id = some .inProgress := by
  by_cases hrecover : ∀ ctx, o ≠ .store ctx .failOrphanedJobs
  · cases hst : w.store.status id with
    | some st =>
        have hkept := status_kept w w' o x h hupdate hrecover id st hst
        rw [hid] at hkept
        exact hkept.symm
    | none =>
        -- A row that was not there is new, and new rows are queued.
        by_cases hleaves : o.leavesJobs = true
        · rw [(quiet_step w w' o x hleaves h).1, hst] at hid
          cases hid
        · cases o with
          | store ctx o =>
              cases o with
              | updateJobStatus i st => exact absurd rfl (hupdate ctx i st)
              | failOrphanedJobs => exact absurd rfl (hrecover ctx)
              | createJob job =>
                  rcases status_created _ _ _ _ h.1 with ⟨_, hstatus⟩ | ⟨_, heq⟩
                  · rw [hstatus, hcreate ctx job rfl] at hid
                    by_cases hjob : id = job.id
                    · rw [hjob, Function.update_self] at hid
                      cases hid
                    · rw [Function.update_of_ne hjob, hst] at hid
                      cases hid
                  · rw [heq, hst] at hid
                    cases hid
              | _ => exact absurd rfl hleaves
          | enqueue job =>
              have hsame : w'.store = w.store := by
                cases x with
                | ok u => exact h.1
                | error err => rw [show w' = w from h]
              rw [hsame, hst] at hid
              cases hid
          | _ => exact absurd rfl hleaves
  · push Not at hrecover
    rcases hrecover with ⟨ctx, rfl⟩
    rcases status_recovered _ _ _ h.1 with ⟨_, hstatus⟩ | heq
    · rw [hstatus] at hid
      rcases Option.map_eq_some_iff.mp hid with ⟨st, hst, hfail⟩
      cases st <;> first | exact hst | cases hfail
    · rw [heq] at hid
      exact hid

/-- A producer creates jobs that are queued. -/
theorem producerCreates_of_kept (s : Sys S) (hs : s.Kept) (t : Threads S)
    (before after : List (Proc S Unit)) (o : Op S) (k : Ans o → Proc S Unit)
    (ht : s.threads = some t) (hproducers : t.producers = before ++ .call o k :: after)
    (ctx : Ctx) (job : Job) (ho : o = .store ctx (.createJob job)) : job.status = .queued := by
  subst ho
  rcases hs with ⟨claims, hh, _⟩
  rw [ht] at hh
  generalize s.shared.queue.jobs = q at hh
  cases hh with
  | booting => cases before <;> cases hproducers
  | ready producers pending consumer claim hps hc =>
      cases hproducers
      rcases forall₂_middle _ pending before after _ hps with ⟨us₁, u, us₂, _, hp, _⟩
      rcases hp (.error []) with ⟨u', hm, _⟩
      cases u with
      | some job' => cases hm
      | none =>
          simp only [produceMonitor] at hm
          split at hm
          · assumption
          · cases hm

/-- A call of the consumer concerns the row of its job only. -/
theorem runCall_others (id : Bytes) (phase phase' : Phase) (o : Op S) (x : Ans o) (w w' : Shared)
    (hcall : RunCall id phase ⟨o, x⟩ phase') (hw : SharedSem w o x w') (i : Bytes) (hi : i ≠ id) :
    w'.store.status i = w.store.status i := by
  have hwrite : ∀ ctx st (x : Except Bytes Unit),
      SharedSem (S := S) w (.store ctx (.updateJobStatus id st)) x w' →
      w'.store.status i = w.store.status i := by
    intro ctx st x hw
    rcases status_updated _ _ _ _ _ hw.1 with hstatus | ⟨_, hstatus⟩
    · rw [hstatus, Function.update_of_ne hi]
    · rw [hstatus]
  have hquiet : o.leavesJobs = true → w'.store.status i = w.store.status i :=
    fun ho => congrFun (quiet_step w w' o x ho hw).1 i
  cases hcall with
  | mark ctx => exact hwrite ctx _ _ hw
  | giveUp ctx err => exact hwrite ctx _ _ hw
  | announce _ hq => exact hquiet hq.1
  | begin _ hleaves => exact hquiet hleaves
  | work _ hq => exact hquiet hq.1
  | finish ctx st => exact hwrite ctx _ _ hw

/-- A job that is closed is not in progress, unless a write of its status was
    refused. -/
theorem runCall_closed (id : Bytes) (phase phase' : Phase) (o : Op S) (x : Ans o) (w w' : Shared)
    (hcall : RunCall id phase ⟨o, x⟩ phase') (hw : SharedSem w o x w')
    (hdone : phase' = .waiting ∨ phase' = .closed) (hid : w'.store.status id = some .inProgress) :
    id ∈ refusal o x := by
  cases hcall with
  | giveUp ctx err => exact List.mem_singleton_self id
  | finish ctx st x hst =>
      cases x with
      | error err => exact List.mem_singleton_self id
      | ok u =>
          rcases status_updated _ _ _ _ _ hw.1 with hstatus | ⟨⟨_, herr⟩, _⟩
          · rw [hstatus, Function.update_self] at hid
            cases hid
            cases hst
          · cases herr
  | _ => rcases hdone with h | h <;> cases h

/-- A step of the recovery keeps what holds of the rows in progress. -/
theorem tended_recover (d : Daemon S) (hd : Tended d) (hkept : d.sys.Kept) (t : Threads S)
    (o : Op S) (k : Ans o → Proc S (Except Bytes Unit)) (x : Ans o) (w : Shared)
    (h : d.sys.threads = some t) (hboot : t.boot = some (.call o k))
    (hw : SharedSem d.sys.shared o x w) :
    Tended { d with sys := { d.sys with
      shared := w, threads := some { t with boot := some (k x) } } } := by
  rcases hd.booting t _ h hboot with ⟨swept, hp, hswept⟩
  rcases bootCall_of_kept d.sys hkept t o k h hboot with ⟨hnone, hupdate⟩
  rcases hp x with ⟨swept', hm, hk⟩
  refine ⟨?_, ?_, fun t' id h' hready => ?_, fun _ => ?_⟩
  · rintro t' p ⟨⟩ ⟨⟩
    refine ⟨swept', hk, fun hq id hid => ?_⟩
    cases o with
    | store ctx o =>
        cases o with
        | failOrphanedJobs =>
            cases x with
            | error err =>
                cases hm
                cases hq
            | ok n =>
                -- The recovery has just failed them all.
                rcases hw.1 with ⟨hstore, _⟩
                change w.store.status id = _ at hid
                rw [hstore, Store.status_failOrphaned] at hid
                rcases Option.map_eq_some_iff.mp hid with ⟨st, _, hfail⟩
                cases st <;> cases hfail
        | listJobsByStatus st =>
            cases hm
            exact hswept hq id (active_before _ w _ x hw hupdate (by rintro _ _ ⟨⟩) id hid)
        | _ => cases hm
    | enqueue job =>
        cases hm
        exact hswept hq id (active_before _ w _ x hw hupdate (by rintro _ _ ⟨⟩) id hid)
    | _ => cases hm
  · rintro t' job p ⟨⟩ hc
    rw [show t.consumer = none from hnone] at hc
    cases hc
  · cases h'
    cases hready
  · exact congrArg (Option.map fun running => running.1.id) hnone

/-- A step of the consumer does, too. -/
theorem tended_consumerCall (d : Daemon S) (hd : Tended d) (hkept : d.sys.Kept) (t : Threads S)
    (job : Job) (o : Op S) (k : Ans o → Proc S (Except Bytes Unit)) (x : Ans o) (w : Shared)
    (h : d.sys.threads = some t) (hconsumer : t.consumer = some (job, .call o k))
    (hw : SharedSem d.sys.shared o x w) (begun : List Bytes) :
    Tended ⟨⟨w, some { t with consumer := some (job, k x) }, begun⟩, d.stage,
      refusal o x ++ d.refused, false⟩ := by
  have hready := (running_of_kept d.sys hkept t job _ h hconsumer).1
  rcases hd.consumer t job _ h hconsumer with ⟨phase, hp, hphase⟩
  rcases hp x with ⟨phase', hm, hk⟩
  have hcall := runCall_of_monitor job.id phase phase' o x hm
  have hbusy : d.sys.consuming = some job.id :=
    (consuming_of_threads _ t h).trans (by rw [hconsumer]; rfl)
  refine ⟨?_, ?_, fun t' id h' _ hid => ?_, fun hs => ?_⟩
  · rintro t' p ⟨⟩ hboot
    rw [show t.boot = none from hready] at hboot
    cases hboot
  · rintro t' job' p ⟨⟩ ⟨⟩
    exact ⟨phase', hk, fun hq hid => List.mem_append_left _
      (runCall_closed job.id phase phase' o x _ w hcall hw hq hid)⟩
  · by_cases hjob : id = job.id
    · exact Or.inl (hjob ▸ rfl)
    · have hbefore : d.sys.status id = some .inProgress := by
        rw [← hid]
        exact (runCall_others job.id phase phase' o x _ w hcall hw id hjob).symm
      rcases hd.others t id h hready hbefore with hrunning | hrefused
      · rw [hbusy, Option.some.injEq] at hrunning
        exact absurd hrunning.symm hjob
      · exact Or.inr (List.mem_append_right _ hrefused)
  · have hnone := hd.idle hs
    rw [hbusy] at hnone
    cases hnone

/-- Every step keeps what holds of the rows in progress. -/
theorem tended_step (c : Controller S) (api : Api.Server S D Digest) (d d' : Daemon S)
    (h : DaemonStep cuts c api d d') (hkept : d.sys.Kept) (hd : Tended d) : Tended d' := by
  have hsame : ∀ t : Threads S, d.sys.threads = some t → ∀ t', d.sys.threads = some t' →
      ∃ t, d.sys.threads = some t ∧ t.boot = t'.boot ∧ t.consumer = t'.consumer :=
    fun _ _ t' ht' => ⟨t', ht', rfl, rfl⟩
  cases h with
  | start h =>
      refine ⟨?_, ?_, ?_, fun hs => ?_⟩
      · rintro t p ⟨⟩ ⟨⟩
        exact ⟨false, startup_sweeps, fun hq => by cases hq⟩
      · rintro t job p ⟨⟩ ⟨⟩
      · rintro t id ⟨⟩ ⟨⟩
      · rcases hs with hs | hs <;> cases hs
  | recover t o k x w hstage h hboot hw => exact tended_recover d hd hkept t o k x w h hboot hw
  | ready t hstage h hboot =>
      rcases hd.booting t _ h hboot with ⟨swept, hp, hswept⟩
      have hnone := hswept (hp rfl)
      refine ⟨?_, ?_, fun t' id _ _ hid => absurd hid (hnone id), fun hs => ?_⟩
      · rintro t' p ⟨⟩ ⟨⟩
      · rintro t' job p ⟨⟩ hc
        exact hd.consumer t job p h hc
      · exact (consuming_of_threads _ t h).symm.trans (hd.idle hs)
  | produce t p hstage h hready hp =>
      refine tended_aside d _ hd ?_ ?_ rfl hd.idle fun id hid => hid
      · rintro t' ⟨⟩
        exact ⟨t, h, rfl, rfl⟩
      · exact (consuming_of_threads _ t h).symm
  | producerCall t before after o k x w h hproducers hw hclosed =>
      rcases producerCall_of_kept d.sys hkept t before after o k h hproducers with ⟨hupdate, _⟩
      refine tended_aside d _ hd ?_ ?_ rfl hd.idle fun id hid => ?_
      · rintro t' ⟨⟩
        exact ⟨t, h, rfl, rfl⟩
      · exact (consuming_of_threads _ t h).symm
      · exact active_before _ w o x hw hupdate
          (producerCreates_of_kept d.sys hkept t before after o k h hproducers) id hid
  | dequeue t job q hstage h hready hidle hq =>
      have hidle' : d.sys.consuming = none :=
        (consuming_of_threads _ t h).trans (congrArg _ hidle)
      refine ⟨?_, ?_, fun t' id _ _ hid => ?_, fun hs => ?_⟩
      · rintro t' p ⟨⟩ hboot
        rw [show t.boot = none from hready] at hboot
        cases hboot
      · -- A job that is taken is queued.
        rintro t' job' p ⟨⟩ ⟨⟩
        refine ⟨.waiting, c.runJob_obeys job, fun _ hid => ?_⟩
        have hmem : job ∈ d.sys.shared.queue.jobs := by
          rw [Memory.dequeue?_jobs _ q job hq]
          exact List.mem_cons_self
        have hqueued := queued_of_kept d.sys hkept job hmem
        rw [show d.sys.status job.id = some .inProgress from hid] at hqueued
        cases hqueued
      · rcases hd.others t id h hready hid with hrunning | hrefused
        · rw [hidle'] at hrunning
          cases hrunning
        · exact Or.inr hrefused
      · rcases hstage with hlive | hcancelled
        · rcases hs with hs | hs <;> rw [hlive] at hs <;> cases hs
        · rcases hs with hs | hs <;> rw [hcancelled] at hs <;> cases hs
  | consumerCall t job o k x w h hconsumer hw hcut =>
      exact tended_consumerCall d hd hkept t job o k x w h hconsumer hw _
  | consumerDone t job r h hconsumer =>
      rcases running_of_kept d.sys hkept t job _ h hconsumer with ⟨hready, _⟩
      rcases hd.consumer t job _ h hconsumer with ⟨phase, hp, hphase⟩
      refine ⟨?_, ?_, fun t' id _ _ hid => Or.inr ?_, fun _ => rfl⟩
      · rintro t' p ⟨⟩ hboot
        rw [show t.boot = none from hready] at hboot
        cases hboot
      · rintro t' job' p ⟨⟩ ⟨⟩
      · rcases hd.others t id h hready hid with hrunning | hrefused
        · rw [consuming_of_threads _ t h, hconsumer] at hrunning
          cases hrunning
          exact hphase hp hid
        · exact hrefused
  | prune t cutoff hstage h hready =>
      exact tended_aside d _ hd (hsame t h) rfl rfl hd.idle fun id hid => hid
  | cancel t inFlight hstage h hready =>
      refine tended_aside d _ hd (hsame t h) rfl rfl (fun hs => ?_) fun id hid => hid
      rcases hs with hs | hs <;> cases hs
  | drain t hstage h hidle =>
      exact tended_aside d _ hd (hsame t h) rfl rfl
        (fun _ => (consuming_of_threads _ t h).trans (congrArg _ hidle)) fun id hid => hid
  | close hstage =>
      refine ⟨hd.booting, hd.consumer, hd.others, fun _ => hd.idle (Or.inl hstage)⟩
  | exit =>
      refine ⟨?_, ?_, ?_, fun _ => rfl⟩
      · rintro t p ⟨⟩
      · rintro t job p ⟨⟩
      · rintro t id ⟨⟩

/-- What holds of the rows in progress in every run. -/
theorem tended_run (c : Controller S) (api : Api.Server S D Digest) (store : Store) (d : Daemon S)
    (h : ReflTransGen (DaemonStep cuts c api) (Daemon.initial store) d) : Tended d := by
  induction h with
  | refl =>
      refine ⟨?_, ?_, ?_, fun _ => rfl⟩
      · rintro t p ⟨⟩
      · rintro t job p ⟨⟩
      · rintro t id ⟨⟩
  | tail hrun hstep ih => exact tended_step c api _ _ hstep (daemon_kept c api store _ hrun) ih

/-- Over a whole history of starts, stops and crashes: once a process is ready, a
    row in progress is of the job that its consumer is running, which has not
    returned, or of one of which this process had a write of the status refused. -/
theorem active_is_running (c : Controller S) (api : Api.Server S D Digest) (store : Store)
    (d : Daemon S) (h : ReflTransGen (DaemonStep uncut c api) (Daemon.initial store) d)
    (t : Threads S) (ht : d.sys.threads = some t) (hready : t.boot = none) (id : Bytes)
    (hid : d.sys.status id = some .inProgress) :
    (d.sys.consuming = some id ∧ (d.stage = .live ∨ d.stage = .cancelled)) ∨ id ∈ d.refused := by
  have hd := tended_run c api store d h
  rcases hd.others t id ht hready hid with hrunning | hrefused
  · refine Or.inl ⟨hrunning, ?_⟩
    cases hstage : d.stage with
    | live => exact Or.inl rfl
    | cancelled => exact Or.inr rfl
    | drained =>
        rw [hd.idle (Or.inl hstage)] at hrunning
        cases hrunning
    | closed =>
        rw [hd.idle (Or.inr hstage)] at hrunning
        cases hrunning
  · exact Or.inr hrefused

/-! ### The other jobs -/

/-- A job is marked under the context of the consumer. -/
def Op.MarksAsCaller (o : Op S) : Prop :=
  ∀ ctx id, o = .store ctx (.updateJobStatus id .inProgress) → ctx = .caller

theorem runJob_marks (c : Controller S) (job : Job) : Calls Op.MarksAsCaller (c.runJob job) := by
  have hcalls : ∀ sp : S, PipelineCalls Op.MarksAsCaller job sp := by
    intro sp
    constructor <;> intros <;> rintro ctx id ⟨⟩
  unfold Controller.runJob
  split
  · trivial
  · next srv hsrv =>
      split
      · trivial
      · split
        · trivial
        · next sp hsp =>
            refine calls_check _ _ _ _ (calls_call _ ?_) fun _ => ?_
            · rintro ctx id ⟨⟩
              rfl
            · have hpub := calls_publish (P := Op.MarksAsCaller) (hcalls sp).now (hcalls sp).publish
              rcases Controller.runPipeline_begins (hcalls sp).jobCalls c c.pipelineCtx srv with
                ⟨k, hk, hquiet⟩
              refine calls_bind _ _ _ (hpub _ _) fun _ => ?_
              rw [hk]
              refine calls_bind _ _ _ ⟨?_, hquiet⟩ fun pipelineErr => ?_
              · rintro ctx id ⟨⟩
              · refine calls_bind _ _ _ (hpub _ _) fun _ => ⟨?_, fun _ => trivial⟩
                rintro ctx id heq
                cases pipelineErr <;> cases heq

/-- The consumer marks its jobs under its own context. -/
def Daemon.Marks (d : Daemon S) : Prop :=
  ∀ t job p, d.sys.threads = some t → t.consumer = some (job, p) → Calls Op.MarksAsCaller p

theorem marks_step (c : Controller S) (api : Api.Server S D Digest) (d d' : Daemon S)
    (h : DaemonStep cuts c api d d') (hd : d.Marks) : d'.Marks := by
  cases h with
  | dequeue t job q hstage h hready hidle hq =>
      rintro t' job' p ⟨⟩ ⟨⟩
      exact runJob_marks c job
  | consumerCall t job o k x w h hconsumer hw hcut =>
      rintro t' job' p ⟨⟩ ⟨⟩
      exact (hd t job _ h hconsumer).2 x
  | start h => rintro t job p ⟨⟩ ⟨⟩
  | consumerDone t job r h hconsumer => rintro t' job' p ⟨⟩ ⟨⟩
  | exit => rintro t job p ⟨⟩
  | recover t o k x w hstage h hboot hw =>
      rintro t' job p ⟨⟩ hc
      exact hd t job p h hc
  | ready t hstage h hboot =>
      rintro t' job p ⟨⟩ hc
      exact hd t job p h hc
  | produce t p hstage h hready hp =>
      rintro t' job p ⟨⟩ hc
      exact hd t job p h hc
  | producerCall t before after o k x w h hproducers hw hclosed =>
      rintro t' job p ⟨⟩ hc
      exact hd t job p h hc
  | prune | cancel | drain | close => exact hd

theorem marks_run (c : Controller S) (api : Api.Server S D Digest) (store : Store) (d : Daemon S)
    (h : ReflTransGen (DaemonStep cuts c api) (Daemon.initial store) d) : d.Marks := by
  induction h with
  | refl => rintro t job p ⟨⟩
  | tail _ hstep ih => exact marks_step c api _ _ hstep ih

/-- A step of a process that stops. -/
def Stopping (c : Controller S) (api : Api.Server S D Digest) (d d' : Daemon S) : Prop :=
  DaemonStep cutShort c api d d' ∧ d'.stage ≠ .live

/-- The write that marks a job was on its way when the context was cancelled. -/
def Daemon.Marking (d : Daemon S) (id : Bytes) : Prop :=
  d.inFlight = true ∧ ∃ job ctx k,
    d.consumer = some (job, .call (.store ctx (.updateJobStatus id .inProgress)) k)

/-- What a process that stops has left alone since its context was cancelled. -/
structure Halting (before d : Daemon S) : Prop where
  stage : d.stage ≠ .live
  /-- What was on its way then and still is. -/
  flying : d.inFlight = true → before.inFlight = true ∧ before.consumer = d.consumer
  /-- A job that was taken since then is not marked. -/
  taken : ∀ job p, d.consumer = some (job, p) → before.sys.consuming = some job.id ∨
      ∃ phase, Obeys (runMonitor job.id) phase p (fun _ _ => True) ∧
        (phase = .waiting ∨ phase = .closed)
  /-- Rows stay as they are, apart from that of the job that was running or just
      being marked. -/
  rows : ∀ id st, before.sys.status id = some st → d.sys.status id = some st ∨
    before.sys.consuming = some id ∧ (st = .inProgress ∨ before.Marking id)
  /-- No other pipeline was begun. -/
  begun : ∀ id ∈ d.sys.begun, id ∈ before.sys.begun ∨ before.sys.consuming = some id

/-- Where the rows stay as they are and the consumer stands still or is done, a
    process leaves alone what it has. -/
theorem halting_aside (before d d' : Daemon S) (hd : Halting before d) (hstage : d'.stage ≠ .live)
    (hconsumer : (d'.inFlight = d.inFlight ∧ d.consumer = d'.consumer) ∨
      (d'.inFlight = false ∧ d'.consumer = none))
    (hbegun : d'.sys.begun = d.sys.begun)
    (hrows : ∀ id st, d.sys.status id = some st → d'.sys.status id = some st) :
    Halting before d' := by
  refine ⟨hstage, fun hf => ?_, fun job p hc => ?_, fun id st hid => ?_, fun id hid => ?_⟩
  · rcases hconsumer with ⟨hflight, hsame⟩ | ⟨hlanded, _⟩
    · rcases hd.flying (hflight ▸ hf) with ⟨hbefore, heq⟩
      exact ⟨hbefore, heq.trans hsame⟩
    · rw [hlanded] at hf
      cases hf
  · rcases hconsumer with ⟨_, hsame⟩ | ⟨_, hnone⟩
    · exact hd.taken job p (hsame.trans hc)
    · rw [hnone] at hc
      cases hc
  · exact (hd.rows id st hid).imp_left (hrows id st)
  · exact hd.begun id (hbegun ▸ hid)

/-- A call of the consumer marks its job, or is made while that is running, or
    writes to no row. -/
theorem runCall_writes (id : Bytes) (phase phase' : Phase) (o : Op S) (x : Ans o) (w w' : Shared)
    (hcall : RunCall id phase ⟨o, x⟩ phase') (hw : SharedSem w o x w') :
    (∃ ctx, o = .store ctx (.updateJobStatus id .inProgress)) ∨ phase = .running ∨
      w'.store.status id = w.store.status id := by
  have hquiet : o.leavesJobs = true → w'.store.status id = w.store.status id :=
    fun ho => congrFun (quiet_step w w' o x ho hw).1 id
  cases hcall with
  | mark ctx => exact Or.inl ⟨ctx, rfl⟩
  | giveUp ctx err => exact Or.inl ⟨ctx, rfl⟩
  | announce _ hq => exact Or.inr (Or.inr (hquiet hq.1))
  | begin _ hleaves => exact Or.inr (Or.inr (hquiet hleaves))
  | work _ hq => exact Or.inr (Or.inl rfl)
  | finish ctx st => exact Or.inr (Or.inl rfl)

/-- A job whose context is cancelled is not marked any more. -/
theorem runCall_cutShort (id : Bytes) (phase' : Phase) (o : Op S) (x : Ans o) (w w' : Shared)
    (hcall : RunCall id .waiting ⟨o, x⟩ phase') (hmarks : o.MarksAsCaller)
    (hcut : cutShort w o x w') : phase' = .closed ∧ w' = w ∧ o.beginsPipeline = false := by
  cases hcall with
  | mark ctx =>
      cases hmarks ctx id rfl
      cases hcut.1
  | giveUp ctx err =>
      cases hmarks ctx id rfl
      exact ⟨rfl, hcut.2, rfl⟩

/-- A step of the consumer with the job that was running leaves the others
    alone. -/
theorem halting_running (before d : Daemon S) (hd : Halting before d) (hkept : d.sys.Kept)
    (hmarks : d.Marks) (t : Threads S) (job : Job) (o : Op S)
    (k : Ans o → Proc S (Except Bytes Unit)) (x : Ans o) (w : Shared)
    (h : d.sys.threads = some t) (hconsumer : t.consumer = some (job, .call o k))
    (hw : SharedSem d.sys.shared o x w) (hran : before.sys.consuming = some job.id)
    (hcut : d.inFlight = false → cutShort d.sys.shared o x w) (refused : List Bytes) :
    Halting before ⟨
      { shared := w
        threads := some { t with consumer := some (job, k x) }
        begun := if o.beginsPipeline then d.sys.begun ++ [job.id] else d.sys.begun },
      d.stage, refused, false⟩ := by
  have hmark := (hmarks t job _ h hconsumer).1
  rcases running_of_kept d.sys hkept t job _ h hconsumer with ⟨_, phase, hp, hactive⟩
  rcases hp x with ⟨phase', hm, _⟩
  have hcall := runCall_of_monitor job.id phase phase' o x hm
  refine ⟨hd.stage, nofun, ?_, fun id st hid => ?_, fun id hid => ?_⟩
  · rintro job' p ⟨⟩
    exact Or.inl hran
  · rcases hd.rows id st hid with hst | hst
    · by_cases hid' : id = job.id
      · subst hid'
        rcases runCall_writes job.id phase phase' o x _ w hcall hw with
          ⟨ctx, rfl⟩ | hrunning | hstays
        · -- The mark was on its way, or it does nothing.
          by_cases hflying : d.inFlight = true
          · rcases hd.flying hflying with ⟨hflew, hsame⟩
            exact Or.inr ⟨hran, Or.inr ⟨hflew, job, ctx, k,
              hsame.trans (consumer_of_threads d t h ▸ hconsumer)⟩⟩
          · have hrefused := hcut (Bool.eq_false_iff.mpr hflying)
            cases hmark ctx job.id rfl
            have hleft : w = d.sys.shared := hrefused.2
            exact Or.inl (hleft ▸ hst)
        · have hprogress := hactive hrunning
          rw [hst, Option.some.injEq] at hprogress
          exact Or.inr ⟨hran, Or.inl hprogress⟩
        · exact Or.inl (hstays.trans hst)
      · exact Or.inl ((runCall_others job.id phase phase' o x _ w hcall hw id hid').trans hst)
    · exact Or.inr hst
  · change id ∈ (if o.beginsPipeline then d.sys.begun ++ [job.id] else d.sys.begun) at hid
    split at hid
    · rcases List.mem_append.mp hid with hid | hid
      · exact hd.begun id hid
      · rw [List.mem_singleton.mp hid]
        exact Or.inr hran
    · exact hd.begun id hid

/-- A step of the consumer with a job taken since then: its mark is refused, and it
    is left as it is. -/
theorem halting_taken (before d : Daemon S) (hd : Halting before d) (hmarks : d.Marks)
    (t : Threads S) (job : Job) (o : Op S) (k : Ans o → Proc S (Except Bytes Unit)) (x : Ans o)
    (w : Shared) (h : d.sys.threads = some t) (hconsumer : t.consumer = some (job, .call o k))
    (hcut : cutShort d.sys.shared o x w) (phase : Phase)
    (hp : Obeys (runMonitor job.id) phase (.call o k) (fun _ _ => True))
    (hphase : phase = .waiting ∨ phase = .closed) (refused : List Bytes) :
    Halting before ⟨
      { shared := w
        threads := some { t with consumer := some (job, k x) }
        begun := if o.beginsPipeline then d.sys.begun ++ [job.id] else d.sys.begun },
      d.stage, refused, false⟩ := by
  have hmark := (hmarks t job _ h hconsumer).1
  rcases hp x with ⟨phase', hm, hk⟩
  have hcall := runCall_of_monitor job.id phase phase' o x hm
  have hwaiting : phase = .waiting := by
    rcases hphase with hwaiting | hclosed
    · exact hwaiting
    · subst hclosed
      cases hm
  subst hwaiting
  rcases runCall_cutShort job.id phase' o x _ w hcall hmark hcut with ⟨hclosed, rfl, hbegins⟩
  refine ⟨hd.stage, nofun, ?_, hd.rows, fun id hid => ?_⟩
  · rintro job' p ⟨⟩
    exact Or.inr ⟨phase', hk, Or.inr hclosed⟩
  · change id ∈ (if o.beginsPipeline then d.sys.begun ++ [job.id] else d.sys.begun) at hid
    rw [hbegins] at hid
    exact hd.begun id hid

/-- A step of the consumer leaves the others alone. -/
theorem halting_consumerCall (before d : Daemon S) (hd : Halting before d) (hkept : d.sys.Kept)
    (htended : Tended d) (hmarks : d.Marks) (t : Threads S) (job : Job) (o : Op S)
    (k : Ans o → Proc S (Except Bytes Unit)) (x : Ans o) (w : Shared)
    (h : d.sys.threads = some t) (hconsumer : t.consumer = some (job, .call o k))
    (hw : SharedSem d.sys.shared o x w)
    (hcut : d.stage = .cancelled → d.inFlight = false → cutShort d.sys.shared o x w)
    (refused : List Bytes) :
    Halting before ⟨
      { shared := w
        threads := some { t with consumer := some (job, k x) }
        begun := if o.beginsPipeline then d.sys.begun ++ [job.id] else d.sys.begun },
      d.stage, refused, false⟩ := by
  have hbusy : d.sys.consuming = some job.id :=
    (consuming_of_threads _ t h).trans (by rw [hconsumer]; rfl)
  have hcancelled : d.stage = .cancelled := by
    cases hstage : d.stage with
    | live => exact absurd hstage hd.stage
    | cancelled => rfl
    | drained => exact nomatch hbusy.symm.trans (htended.idle (Or.inl hstage))
    | closed => exact nomatch hbusy.symm.trans (htended.idle (Or.inr hstage))
  have hcut' := hcut hcancelled
  rcases hd.taken job _ ((consumer_of_threads d t h).trans hconsumer) with
    hran | ⟨phase, hp, hphase⟩
  · exact halting_running before d hd hkept hmarks t job o k x w h hconsumer hw hran hcut' refused
  · by_cases hflying : d.inFlight = true
    · -- What is still on its way was so from the beginning.
      have hran : before.sys.consuming = some job.id := by
        rw [← hbusy, consuming_of_consumer, consuming_of_consumer, (hd.flying hflying).2]
      exact halting_running before d hd hkept hmarks t job o k x w h hconsumer hw hran hcut' refused
    · exact halting_taken before d hd hmarks t job o k x w h hconsumer
        (hcut' (Bool.eq_false_iff.mpr hflying)) phase hp hphase refused

/-- A step of a process that stops leaves the others alone. -/
theorem halting_step (c : Controller S) (api : Api.Server S D Digest) (before d d' : Daemon S)
    (h : Stopping c api d d') (hkept : d.sys.Kept) (htended : Tended d) (hmarks : d.Marks)
    (hd : Halting before d) : Halting before d' := by
  rcases h with ⟨h, hlive⟩
  cases h with
  | start h => exact absurd rfl hlive
  | recover t o k x w hstage => exact absurd hstage hd.stage
  | ready t hstage => exact absurd hstage hd.stage
  | exit => exact absurd rfl hlive
  | cancel t inFlight hstage => exact absurd hstage hd.stage
  | produce t p hstage h hready hp =>
      exact halting_aside before d _ hd hlive (Or.inl ⟨rfl, consumer_of_threads d t h⟩) rfl
        fun _ _ hid => hid
  | producerCall t before' after o k x w h hproducers hw hclosed =>
      rcases producerCall_of_kept d.sys hkept t before' after o k h hproducers with
        ⟨hupdate, hrecover⟩
      exact halting_aside before d _ hd hlive (Or.inl ⟨rfl, consumer_of_threads d t h⟩) rfl
        fun id st hid => status_kept _ w o x hw hupdate hrecover id st hid
  | dequeue t job q hstage h hready hidle hq =>
      refine ⟨hlive, nofun, ?_, hd.rows, hd.begun⟩
      rintro job' p ⟨⟩
      exact Or.inr ⟨.waiting, obeys_mono _ _ _ _ _ (c.runJob_obeys job) (fun _ _ _ => trivial),
        Or.inl rfl⟩
  | consumerCall t job o k x w h hconsumer hw hcut =>
      exact halting_consumerCall before d hd hkept htended hmarks t job o k x w h hconsumer hw
        hcut _
  | consumerDone t job r h hconsumer =>
      exact halting_aside before d _ hd hlive (Or.inr ⟨rfl, rfl⟩) rfl fun _ _ hid => hid
  | prune | drain | close =>
      exact halting_aside before d _ hd hlive (Or.inl ⟨rfl, rfl⟩) rfl fun _ _ hid => hid

/-- Once the store is closed, it stays closed and as it is. -/
theorem closed_step (c : Controller S) (api : Api.Server S D Digest) (d d' : Daemon S)
    (h : Stopping c api d d') (hidle : d.sys.consuming = none) (hclosed : d.stage = .closed) :
    d'.stage = .closed ∧ d'.sys.shared.store = d.sys.shared.store := by
  rcases h with ⟨h, hlive⟩
  have hguard : ∀ stage, d.stage = stage → stage ≠ .closed → False := by
    rintro stage rfl hne
    exact hne hclosed
  cases h with
  | start h => exact absurd rfl hlive
  | recover t o k x w hstage => exact (hguard _ hstage (by decide)).elim
  | ready t hstage => exact (hguard _ hstage (by decide)).elim
  | exit => exact absurd rfl hlive
  | cancel t inFlight hstage => exact (hguard _ hstage (by decide)).elim
  | produce t p hstage => exact absurd hclosed hstage
  | producerCall t before after o k x w h hproducers hw hfrozen =>
      exact ⟨hclosed, hfrozen hclosed⟩
  | dequeue t job q hstage =>
      rcases hstage with hstage | hstage <;> exact (hguard _ hstage (by decide)).elim
  | consumerCall t job o k x w h hconsumer =>
      rw [consuming_of_threads _ t h, hconsumer] at hidle
      cases hidle
  | consumerDone t job r h hconsumer =>
      rw [consuming_of_threads _ t h, hconsumer] at hidle
      cases hidle
  | prune t cutoff hstage =>
      rcases hstage with hstage | hstage <;> exact (hguard _ hstage (by decide)).elim
  | drain t hstage => exact (hguard _ hstage (by decide)).elim
  | close hstage => exact (hguard _ hstage (by decide)).elim

/-- A process that stops was ready. -/
theorem up_step (c : Controller S) (api : Api.Server S D Digest) (d d' : Daemon S)
    (h : DaemonStep cuts c api d d')
    (hd : d.stage ≠ .live → ∃ t, d.sys.threads = some t ∧ t.boot = none)
    (hlive : d'.stage ≠ .live) : ∃ t, d'.sys.threads = some t ∧ t.boot = none := by
  have hup : d.stage ≠ .live → ∀ t, d.sys.threads = some t → t.boot = none := by
    intro hstage t ht
    rcases hd hstage with ⟨t', ht', hready⟩
    rw [ht] at ht'
    cases ht'
    exact hready
  cases h with
  | start => exact absurd rfl hlive
  | exit => exact absurd rfl hlive
  | recover t o k x w hstage => exact absurd hstage hlive
  | ready t hstage => exact absurd hstage hlive
  | produce t p hstage h hready hp => exact ⟨_, rfl, hready⟩
  | producerCall t before after o k x w h => exact ⟨_, rfl, hup hlive t h⟩
  | dequeue t job q hstage h hready => exact ⟨_, rfl, hready⟩
  | consumerCall t job o k x w h => exact ⟨_, rfl, hup hlive t h⟩
  | consumerDone t job r h => exact ⟨_, rfl, hup hlive t h⟩
  | prune t cutoff hstage h hready => exact ⟨t, h, hready⟩
  | cancel t inFlight hstage h hready => exact ⟨t, h, hready⟩
  | drain t hstage h hidle => exact ⟨t, h, hup (by rw [hstage]; decide) t h⟩
  | close hstage => exact hd (by rw [hstage]; decide)

theorem up_run (c : Controller S) (api : Api.Server S D Digest) (store : Store) (d : Daemon S)
    (h : ReflTransGen (DaemonStep cuts c api) (Daemon.initial store) d) (hlive : d.stage ≠ .live) :
    ∃ t, d.sys.threads = some t ∧ t.boot = none := by
  induction h with
  | refl => exact absurd rfl hlive
  | tail _ hstep ih => exact up_step c api _ _ hstep ih hlive

/-- From the moment the context is cancelled, for every interleaving: no row changes
    but that of the job that was running, if it was in progress or the write that
    marks it was on its way, and no other pipeline is begun. So what else was
    queued is queued for the next start. When the store is closed, no row is in
    progress whose writes were not refused, and nothing that still runs changes
    the store. -/
theorem shutdown_keeps_rest (c : Controller S) (api : Api.Server S D Digest) (store : Store)
    (d₁ d₂ : Daemon S) (h₁ : ReflTransGen (DaemonStep cutShort c api) (Daemon.initial store) d₁)
    (hcancel : d₁.stage = .cancelled) (h₂ : ReflTransGen (Stopping c api) d₁ d₂) :
    (∀ id st, d₁.sys.status id = some st →
      d₂.sys.status id = some st ∨
        d₁.sys.consuming = some id ∧ (st = .inProgress ∨ d₁.Marking id)) ∧
    (∀ id ∈ d₂.sys.begun, id ∈ d₁.sys.begun ∨ d₁.sys.consuming = some id) ∧
    (d₂.stage = .closed →
      (∀ id, d₂.sys.status id = some .inProgress → id ∈ d₂.refused) ∧
      ∀ d₃, ReflTransGen (Stopping c api) d₂ d₃ →
        d₃.sys.shared.store = d₂.sys.shared.store) := by
  have hrun : ∀ {d d'}, ReflTransGen (DaemonStep cutShort c api) (Daemon.initial store) d →
      ReflTransGen (Stopping c api) d d' →
      ReflTransGen (DaemonStep cutShort c api) (Daemon.initial store) d' :=
    fun h h' => h.trans (ReflTransGen.mono (fun _ _ => And.left) _ _ h')
  have hhalting : Halting d₁ d₂ := by
    induction h₂ with
    | refl =>
        refine ⟨by rw [hcancel]; decide, fun hf => ⟨hf, rfl⟩, fun job p hc => Or.inl ?_,
          fun _ _ => Or.inl, fun _ => Or.inl⟩
        rw [consuming_of_consumer, hc]
        rfl
    | @tail d d' hstop hstep ih =>
        have hd := hrun h₁ hstop
        exact halting_step c api d₁ d d' hstep (daemon_kept c api store d hd)
          (tended_run c api store d hd) (marks_run c api store d hd) ih
  refine ⟨hhalting.rows, hhalting.begun, fun hclosed => ⟨fun id hid => ?_, fun d₃ h₃ => ?_⟩⟩
  · have hup : ∃ t, d₂.sys.threads = some t ∧ t.boot = none := by
      exact up_run c api store d₂ (hrun h₁ h₂) hhalting.stage
    rcases hup with ⟨t, ht, hready⟩
    have htended := tended_run c api store d₂ (hrun h₁ h₂)
    rcases htended.others t id ht hready hid with hrunning | hrefused
    · rw [htended.idle (Or.inr hclosed)] at hrunning
      cases hrunning
    · exact hrefused
  · have hfrozen : d₃.stage = .closed ∧ d₃.sys.shared.store = d₂.sys.shared.store := by
      induction h₃ with
      | refl => exact ⟨hclosed, rfl⟩
      | @tail d d' hstop hstep ih =>
          have htended := tended_run c api store d (hrun (hrun h₁ h₂) hstop)
          rcases closed_step c api d d' hstep (htended.idle (Or.inr ih.1)) ih.1 with
            ⟨hstage, hstore⟩
          exact ⟨hstage, hstore.trans ih.2⟩
    exact hfrozen.2

/-! ### Runs of one process -/

/-- A step of a controller over its store is a step of a process that does not
    stop. -/
theorem daemonStep_of_step (cuts : Cuts S) (c : Controller S) (api : Api.Server S D Digest)
    (s s' : Sys S) (h : Step c api s s') (refused : List Bytes) :
    ∃ refused', DaemonStep cuts c api ⟨s, .live, refused, false⟩ ⟨s', .live, refused', false⟩ := by
  cases h with
  | boot h => exact ⟨_, DaemonStep.start _ h⟩
  | bootCall t o k x w h hboot hw => exact ⟨_, DaemonStep.recover _ t o k x w rfl h hboot hw⟩
  | ready t h hboot => exact ⟨_, DaemonStep.ready _ t rfl h hboot⟩
  | produce t p h hready hp => exact ⟨_, DaemonStep.produce _ t p (by rintro ⟨⟩) h hready hp⟩
  | producerCall t before after o k x w h hproducers hw =>
      exact ⟨_, DaemonStep.producerCall _ t before after o k x w h hproducers hw
        (by rintro ⟨⟩)⟩
  | dequeue t job q h hready hidle hq =>
      exact ⟨_, DaemonStep.dequeue _ t job q (Or.inl rfl) h hready hidle hq⟩
  | consumerCall t job o k x w h hconsumer hw =>
      exact ⟨_, DaemonStep.consumerCall _ t job o k x w h hconsumer hw (by rintro ⟨⟩)⟩
  | consumerDone t job r h hconsumer => exact ⟨_, DaemonStep.consumerDone _ t job r h hconsumer⟩
  | crash => exact ⟨_, DaemonStep.exit _⟩

/-- So is a run. -/
theorem daemon_of_run (cuts : Cuts S) (c : Controller S) (api : Api.Server S D Digest)
    (s s' : Sys S) (h : ReflTransGen (Step c api) s s') (refused : List Bytes) :
    ∃ refused', ReflTransGen (DaemonStep cuts c api) ⟨s, .live, refused, false⟩
      ⟨s', .live, refused', false⟩ := by
  induction h with
  | refl => exact ⟨refused, ReflTransGen.refl⟩
  | tail _ hstep ih =>
      rcases ih with ⟨refused₁, hrun⟩
      rcases daemonStep_of_step cuts c api _ _ hstep refused₁ with ⟨refused₂, hstep'⟩
      exact ⟨refused₂, hrun.tail hstep'⟩

/-- The consumer has marked the job that was left queued. -/
theorem active_is_running_files : ∃ d : Daemon Unit,
    ReflTransGen (DaemonStep uncut filesController Api.filesApi) (Daemon.initial leftQueued) d ∧
      d.sys.status filesJob.id = some .inProgress ∧
      ((d.sys.consuming = some filesJob.id ∧ (d.stage = .live ∨ d.stage = .cancelled)) ∨
        filesJob.id ∈ d.refused) := by
  let running : Shared :=
    ⟨leftQueued.failOrphaned.setStatus filesJob.id .inProgress, Memory.new queueCapacity⟩
  have hmark : SharedSem (S := Unit) filesTaken.shared
      (.store .caller (.updateJobStatus filesJob.id .inProgress)) (.ok ()) running :=
    ⟨⟨rfl, rfl⟩, rfl⟩
  have hmarked :=
    reaches_filesTaken.tail (Step.consumerCall _ _ filesJob _ _ _ _ rfl rfl hmark)
  rcases daemon_of_run uncut filesController Api.filesApi _ _ hmarked [] with ⟨refused, hrun⟩
  exact ⟨_, hrun, rfl, active_is_running filesController Api.filesApi leftQueued _ hrun _ rfl rfl
    filesJob.id rfl⟩

/-- The consumer is marking the job that was left queued when a signal arrives. The
    write takes effect and answers an error, and the store is closed with the job in
    progress. -/
theorem shutdown_keeps_rest_files : ∃ d₁ d₂ : Daemon Unit,
    ReflTransGen (DaemonStep cutShort filesController Api.filesApi) (Daemon.initial leftQueued)
      d₁ ∧ d₁.Marking filesJob.id ∧ d₁.sys.status filesJob.id = some .queued ∧
      ReflTransGen (Stopping filesController Api.filesApi) d₁ d₂ ∧ d₂.stage = .closed ∧
      d₂.sys.status filesJob.id = some .inProgress ∧ filesJob.id ∈ d₂.refused := by
  rcases daemon_of_run cutShort filesController Api.filesApi _ _ reaches_filesTaken [] with
    ⟨refused, hrun⟩
  have hcancelled := hrun.tail (DaemonStep.cancel _ _ true rfl rfl rfl)
  let marked : Shared :=
    ⟨leftQueued.failOrphaned.setStatus filesJob.id .inProgress, Memory.new queueCapacity⟩
  have hmark : SharedSem (S := Unit) filesTaken.shared
      (.store .caller (.updateJobStatus filesJob.id .inProgress)) (.error "context canceled")
      marked := ⟨Or.inr rfl, rfl⟩
  have hrefused : Stopping filesController Api.filesApi ⟨filesTaken, .cancelled, refused, true⟩ _ :=
    ⟨DaemonStep.consumerCall _ _ filesJob _ _ _ _ rfl rfl hmark (fun _ hf => nomatch hf),
      by rintro ⟨⟩⟩
  have hdone := (ReflTransGen.single hrefused).tail
    ⟨DaemonStep.consumerDone _ _ filesJob _ rfl rfl, by rintro ⟨⟩⟩
  have hdrained := hdone.tail ⟨DaemonStep.drain _ _ rfl rfl rfl, by rintro ⟨⟩⟩
  have hclosed := hdrained.tail ⟨DaemonStep.close _ rfl, by rintro ⟨⟩⟩
  refine ⟨_, _, hcancelled, ⟨rfl, filesJob, _, _, rfl⟩, rfl, hclosed, rfl, rfl, ?_⟩
  exact ((shutdown_keeps_rest filesController Api.filesApi leftQueued _ _ hcancelled rfl
    hclosed).2.2 rfl).1 filesJob.id rfl

end Bop
