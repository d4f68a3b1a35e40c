import Bop.Effect.Monitor
import Bop.System.Ledger
import Bop.System.Producers

/-!
# What Each Thread May Do

The protocol each kind of thread follows towards the job rows and the queue,
as a monitor, and the proof that its program does. The consumer marks its job,
begins the pipeline once, and records how it ended. A producer persists a job
as queued and only then enqueues that very job. The startup recovery enqueues
exactly what it listed, in order.

What is left of a program after a step obeys the monitor from its next state,
so these proofs are all an argument about interleavings needs to know of the
programs.

## Main definitions

* `Op.leavesJobs`: The operations that touch neither job rows nor the queue.
* `runMonitor`, `RunCall`: The consumer with one job, phase by phase.
* `produceMonitor`: A producer.
* `bootMonitor`: The startup recovery.

## Theorems

* `runJob_obeys`: `RunJob` marks, runs once and closes.
* `producer_obeys`: Schedules and requests persist before they enqueue.
* `startup_obeys`: The recovery enqueues what it listed.
-/

namespace Bop

open Prog

variable {S D Digest : Type}

/-- The operation touches neither the job rows nor the queue. -/
def Op.leavesJobs : Op S → Bool
  | .store _ o => !o.writesJobs
  | .enqueue _ => false
  | _ => true

/-- An operation that leaves the jobs alone does. -/
theorem shared_of_leavesJobs (w w' : Shared) (o : Op S) (x : Ans o) (ho : o.leavesJobs = true)
    (h : SharedSem w o x w') : w'.store.jobs = w.store.jobs ∧ w'.queue = w.queue := by
  cases o with
  | store ctx o =>
      have hw : o.writesJobs = false := by
        simp only [Op.leavesJobs, Bool.not_eq_true'] at ho
        exact ho
      exact ⟨jobs_of_not_writesJobs w.store w'.store o x h.1 hw, h.2⟩
  | publish ctx e =>
      refine ⟨?_, h.2⟩
      rcases h.1 with heq | heq <;> rw [heq]
      rfl
  | enqueue job => cases ho
  | _ =>
      have heq : w' = w := h
      rw [heq]
      exact ⟨rfl, rfl⟩

/-! ### The consumer -/

/-- The consumer with one job. -/
def runMonitor (id : Bytes) : Monitor (Op S) Ans Phase
  | .waiting, .store _ (.updateJobStatus i st), x =>
      if i = id ∧ st = .inProgress then
        match x with
        | .ok _ => some .marked
        | .error _ => some .closed
      else none
  | .marked, o, _ =>
      if o.beginsPipeline then some .running
      else if o.leavesJobs then some .marked else none
  | .running, .store _ (.updateJobStatus i st), _ =>
      if i = id ∧ st.terminal = true then some .closed else none
  | .running, o, _ =>
      if o.leavesJobs ∧ ¬ o.beginsPipeline then some .running else none
  | _, _, _ => none

/-- The operations of a pipeline after its first. -/
abbrev Quiet (o : Op S) : Prop := o.leavesJobs = true ∧ o.beginsPipeline = false

theorem quiet_calls (job : Job) (sp : S) : PipelineCalls Quiet job sp := by
  constructor <;> intros <;> exact ⟨rfl, rfl⟩

theorem runMonitor_marked (id : Bytes) (o : Op S) (h : Quiet o) (x : Ans o) :
    runMonitor id .marked o x = some .marked := by
  simp only [runMonitor, h.2, Bool.false_eq_true, if_false, h.1, if_true]

theorem runMonitor_running (id : Bytes) (o : Op S) (h : Quiet o) (x : Ans o) :
    runMonitor id .running o x = some .running := by
  have hif : (if o.leavesJobs ∧ ¬ o.beginsPipeline then some Phase.running else none) =
      some Phase.running := by
    simp only [h.1, h.2, Bool.false_eq_true, not_false_eq_true, and_self, if_true]
  cases o with
  | store ctx o =>
      cases o with
      | updateJobStatus i st => cases h.1
      | _ => exact hif
  | _ => exact hif

/-- The calls the monitor allows, one constructor for each kind. -/
inductive RunCall (id : Bytes) : Phase → Prog.Event (Op S) Ans → Phase → Prop
  /-- The job is marked. -/
  | mark (ctx : Ctx) :
      RunCall id .waiting ⟨.store ctx (.updateJobStatus id .inProgress), .ok ()⟩ .marked
  /-- The mark fails, or its caller is told so. -/
  | giveUp (ctx : Ctx) (err : Bytes) :
      RunCall id .waiting ⟨.store ctx (.updateJobStatus id .inProgress), .error err⟩ .closed
  /-- A call between the mark and the pipeline. -/
  | announce (e : Prog.Event (Op S) Ans) (hq : Quiet e.1) : RunCall id .marked e .marked
  /-- The first call of the pipeline. -/
  | begin (e : Prog.Event (Op S) Ans) (hleaves : e.1.leavesJobs = true)
      (hbegin : e.1.beginsPipeline = true) : RunCall id .marked e .running
  /-- A later call of the pipeline. -/
  | work (e : Prog.Event (Op S) Ans) (hq : Quiet e.1) : RunCall id .running e .running
  /-- The write that ends the job. -/
  | finish (ctx : Ctx) (st : JobStatus) (x : Except Bytes Unit) (hst : st.terminal = true) :
      RunCall id .running ⟨.store ctx (.updateJobStatus id st), x⟩ .closed

/-- What the monitor allows is one of these calls. -/
theorem runCall_of_monitor (id : Bytes) (phase phase' : Phase) (o : Op S) (x : Ans o)
    (hm : runMonitor id phase o x = some phase') : RunCall id phase ⟨o, x⟩ phase' := by
  -- By the phase, since it decides which calls are allowed.
  cases phase with
  | waiting =>
      cases o with
      | store ctx o =>
          cases o with
          | updateJobStatus i st =>
              simp only [runMonitor] at hm
              split at hm
              · next hwrite =>
                  rcases hwrite with ⟨rfl, rfl⟩
                  cases x with
                  | ok u =>
                      cases hm
                      exact RunCall.mark ctx
                  | error err =>
                      cases hm
                      exact RunCall.giveUp ctx err
              · cases hm
          | _ => cases hm
      | _ => cases hm
  | marked =>
      have hleaves : o.beginsPipeline = true → o.leavesJobs = true := by
        cases o with
        | store ctx o => cases o <;> first | exact fun _ => rfl | exact fun h => by cases h
        | _ => exact fun h => by cases h
      simp only [runMonitor] at hm
      split at hm
      · next hbegin =>
          cases hm
          exact RunCall.begin ⟨o, x⟩ (hleaves hbegin) hbegin
      · next hbegin =>
          split at hm
          · next hquiet =>
              cases hm
              exact RunCall.announce ⟨o, x⟩ ⟨hquiet, eq_false_of_ne_true hbegin⟩
          · cases hm
  | running =>
      have hwork : (if o.leavesJobs ∧ ¬ o.beginsPipeline then some Phase.running else none) =
          some phase' → RunCall id .running ⟨o, x⟩ phase' := by
        intro hm
        split at hm
        · next hq =>
            cases hm
            exact RunCall.work ⟨o, x⟩ ⟨hq.1, eq_false_of_ne_true hq.2⟩
        · cases hm
      cases o with
      | store ctx o =>
          cases o with
          | updateJobStatus i st =>
              simp only [runMonitor] at hm
              split at hm
              · next hwrite =>
                  rcases hwrite with ⟨rfl, hst⟩
                  cases hm
                  exact RunCall.finish ctx st x hst
              · cases hm
          | _ => exact hwork hm
      | _ => exact hwork hm
  | closed => cases hm

namespace Controller

theorem finalStatus_terminal (r : Except Bytes Unit) : (finalStatus r).terminal = true := by
  cases r <;> rfl

/-- A marked job is run once and closed. -/
theorem runMarked_obeys (c : Controller S) (job : Job) (srv : Server) (sp : S) :
    Obeys (runMonitor job.id) .marked (runMarked c job srv sp) (fun _ q => q = .closed) := by
  have hpub : ∀ ctx e, Calls (Quiet (S := S)) (publish ctx e) :=
    calls_publish (quiet_calls job sp).now (quiet_calls job sp).publish
  refine obeys_bind _ _ _ _ _ _
    (obeys_of_calls _ Quiet Phase.marked (runMonitor_marked job.id) _ (hpub _ _)) ?_
  rintro _ q rfl
  -- The first call of the pipeline begins it, and the rest is quiet.
  rcases runPipeline_begins (quiet_calls job sp).jobCalls c c.pipelineCtx srv with ⟨k, hk, hquiet⟩
  rw [hk]
  intro x
  refine ⟨.running, rfl, ?_⟩
  refine obeys_bind _ _ _ _ _ _
    (obeys_of_calls _ Quiet Phase.running (runMonitor_running job.id) _ (hquiet x)) ?_
  rintro pipelineErr q rfl
  refine obeys_bind _ _ _ _ _ _
    (obeys_of_calls _ Quiet Phase.running (runMonitor_running job.id) _ (hpub _ _)) ?_
  rintro _ q rfl
  intro written
  refine ⟨.closed, ?_, rfl⟩
  simp only [runMonitor, finalStatus_terminal, and_self, if_true]

/-- `RunJob` marks its job, runs it once and closes it, or does nothing. -/
theorem runJob_obeys (c : Controller S) (job : Job) :
    Obeys (runMonitor job.id) .waiting (runJob c job) (fun _ q => q = .waiting ∨ q = .closed) := by
  unfold runJob
  split
  · exact Or.inl rfl
  · next srv hsrv =>
      split
      · exact Or.inl rfl
      · split
        · exact Or.inl rfl
        · next sp hsp =>
            intro x
            cases x with
            | error err =>
                refine ⟨.closed, ?_, Or.inr rfl⟩
                simp only [runMonitor, and_self, if_true]
            | ok u =>
                refine ⟨.marked, ?_, ?_⟩
                · simp only [runMonitor, and_self, if_true]
                · exact obeys_mono _ _ _ _ _ (runMarked_obeys c job srv sp) (fun _ _ => Or.inr)

end Controller

/-! ### The producers -/

/-- A producer: the job it has persisted and not yet enqueued, if any. -/
def produceMonitor : Monitor (Op S) Ans (Option Job)
  | none, .store _ (.createJob job), x =>
      if job.status = .queued then
        match x with
        | .ok _ => some (some job)
        | .error _ => some none
      else none
  | some job, .enqueue j, _ => if j = job then some none else none
  | q, o, _ => if o.leavesJobs then some q else none

theorem produceMonitor_leaves (q : Option Job) (o : Op S) (h : o.leavesJobs = true) (x : Ans o) :
    produceMonitor q o x = some q := by
  have hif : (if o.leavesJobs then some q else none) = some q := if_pos h
  cases o with
  | store ctx o =>
      cases o with
      | createJob job => cases h
      | _ => cases q <;> exact hif
  | enqueue job => cases h
  | _ => cases q <;> exact hif

/-- Persisting a new job and enqueueing it, as schedules and requests do. -/
theorem create_obeys {α : Type} (ctx : Ctx) (host plugin : Bytes) (policy : Policy)
    (e : Job → Event) (refused : Bytes → Proc S α) (accepted : Job → Proc S α)
    (post : α → Option Job → Prop)
    (hrefused : ∀ err, Obeys produceMonitor none (refused err) post)
    (haccepted : ∀ job, Obeys produceMonitor none (accepted job) post) :
    Obeys produceMonitor none (do
      let job ← createNewJob host plugin policy
      match ← store ctx (.createJob job) with
      | .error err => refused err
      | .ok _ =>
          publish ctx (e job)
          let _ ← call (.enqueue job)
          accepted job) post := by
  refine fun unixNano => ⟨none, rfl, fun queuedAt => ⟨none, rfl, fun x => ?_⟩⟩
  cases x with
  | error err => exact ⟨none, rfl, hrefused err⟩
  | ok u =>
      let job := newJob host plugin policy unixNano queuedAt
      refine ⟨some job, rfl, fun _ => ⟨some job, rfl, fun _ => ⟨some job, rfl, fun _ => ?_⟩⟩⟩
      exact ⟨none, if_pos rfl, haccepted job⟩

/-- A schedule persists each job before it enqueues it. -/
theorem dispatch_obeys (host : Bytes) (srv : Server) (order : List Bytes) :
    Obeys produceMonitor none (Scheduler.dispatch host srv order : Proc S Unit)
      (fun _ q => q = none) := by
  induction order with
  | nil => rfl
  | cons plugin rest ih =>
      exact create_obeys .background host plugin srv.retention
        (fun job => ⟨.backupRequested, job.id, host, plugin, [], [], 0⟩) _ _ _
        (fun _ => ih) (fun _ => ih)

/-- Calls that leave the jobs alone leave a producer where it is. -/
theorem produce_of_calls {α : Type} (p : Proc S α)
    (h : Calls (fun o => o.leavesJobs = true) p) :
    Obeys produceMonitor none p (fun _ q => q = none) :=
  obeys_of_calls _ _ none (fun o ho x => produceMonitor_leaves none o ho x) p h

namespace Api

/-- A triggered backup is persisted before it is enqueued. -/
theorem triggerBackup_obeys (ctl : Controller S) (body : FileContent) :
    Obeys produceMonitor none (triggerBackup ctl body : Proc S (Response D))
      (fun _ q => q = none) := by
  unfold triggerBackup
  split
  · rfl
  · split
    · rfl
    · next req _ _ =>
        refine obeys_bind _ _ _ _ _ _ (produce_of_calls _
          (ctl.calls_buildPlugin .caller req.host req.plugin rfl fun _ => rfl)) ?_
        rintro r q rfl
        cases r with
        | error err => rfl
        | ok p =>
            exact create_obeys .caller req.host req.plugin p.server.retention
              (fun job => ⟨.backupRequested, job.id, req.host, req.plugin, [], [], 0⟩) _ _ _
              (fun _ => rfl) (fun _ => rfl)

theorem leavesJobs_of_readsOnly (o : Op S) (h : o.readsOnly = true) : o.leavesJobs = true := by
  cases o with
  | store ctx o => cases o <;> first | rfl | cases h
  | publish ctx e => cases h
  | enqueue job => cases h
  | _ => rfl

/-- Whatever route a request takes, its handler persists before it enqueues. -/
theorem handler_obeys (s : Server S D Digest) (e : Entry S D Digest) (he : e ∈ s.table)
    (req : Request) (vs : List Bytes) :
    Obeys produceMonitor none (e.handler req vs) (fun _ q => q = none) := by
  have hreads : ∀ p : Proc S (Response D), ReadsOnly p →
      Obeys produceMonitor none p (fun _ q => q = none) :=
    fun p hp => produce_of_calls p (calls_mono _ _ leavesJobs_of_readsOnly p hp)
  simp only [Server.table, List.mem_cons, List.not_mem_nil, or_false] at he
  rcases he with rfl | rfl | rfl | rfl | rfl | rfl | rfl | rfl
  · rfl
  · exact hreads _ (readsOnly_listJobs req)
  · exact hreads _ (readsOnly_getJob _)
  · exact hreads _ (readsOnly_listSnapshots req)
  · exact hreads _ (readsOnly_listEvents req)
  · exact triggerBackup_obeys s.ctl req.body
  · exact hreads _ (readsOnly_getPluginConfig _ _ _)
  · exact produce_of_calls _ (calls_setPluginConfig _ _ (fun _ _ => rfl) _ _)

variable [DecidableEq Digest]

theorem serve_obeys (s : Server S D Digest) (req : Request) :
    Obeys produceMonitor none (s.serve req) (fun _ q => q = none) := by
  unfold Server.serve
  cases hroute : s.route req with
  | none => rfl
  | some ev =>
      rcases ev with ⟨e, vs⟩
      simp only [authMiddleware]
      split
      · rfl
      · split
        · exact handler_obeys s e (mem_table_of_route s req e vs hroute) req vs
        · rfl

end Api

/-- Schedules and requests persist a job before they enqueue it. -/
theorem producer_obeys [DecidableEq Digest] (api : Api.Server S D Digest) (p : Proc S Unit)
    (hp : Producer api p) :
    Obeys produceMonitor none p (fun _ q => q = none) := by
  cases hp with
  | dispatch host srv order => exact dispatch_obeys host srv order
  | serve req => exact obeys_bind _ _ _ _ _ _ (Api.serve_obeys api req) (fun _ _ h => h)

/-! ### The startup recovery -/

/-- The startup recovery: the jobs it has listed and not yet enqueued, once it
    has listed them. -/
def bootMonitor : Monitor (Op S) Ans (Option (List Job))
  | none, .store _ .failOrphanedJobs, _ => some none
  | none, .store _ (.listJobsByStatus st), x =>
      if st = .queued then
        match x with
        | .ok jobs => some (some jobs)
        | .error _ => some none
      else none
  | some (job :: jobs), .enqueue j, _ => if j = job then some (some jobs) else none
  | _, _, _ => none

theorem enqueueAll_obeys (jobs : List Job) :
    Obeys bootMonitor (some jobs) (forEach jobs (fun job => do
      let _ ← call (.enqueue job)
      return ()) : Proc S Unit) (fun _ _ => True) := by
  induction jobs with
  | nil => trivial
  | cons job jobs ih => exact fun _ => ⟨some jobs, if_pos rfl, ih⟩

/-- The recovery enqueues what it listed, in order. -/
theorem startup_obeys :
    Obeys bootMonitor none (Cli.startup : Proc S (Except Bytes Unit)) (fun _ _ => True) := by
  refine obeys_check _ _ _ _ _ (fun _ q => q = none) _ (fun _ => ⟨none, rfl, rfl⟩) ?_
    (fun _ _ _ => trivial)
  rintro _ q rfl
  refine obeys_check _ _ _ _ _ (fun _ _ => True) _ ?_ (fun _ _ _ => trivial)
    (fun _ _ _ => trivial)
  refine obeys_check _ _ _ _ _ (fun r q => ∀ jobs, r = .ok jobs → q = some jobs) _ ?_ ?_
    (fun _ _ _ => trivial)
  · intro x
    cases x with
    | ok jobs => exact ⟨some jobs, rfl, fun _ h => by cases h; rfl⟩
    | error err => exact ⟨none, rfl, fun _ h => by cases h⟩
  · intro jobs q hq
    rw [hq jobs rfl]
    exact obeys_bind _ _ _ _ (fun _ _ => True) _ (enqueueAll_obeys jobs) (fun _ _ _ => trivial)

end Bop
