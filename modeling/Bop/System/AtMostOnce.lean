import Bop.System.Refinement

/-!
# At Most Once

What holds of a controller over its whole history, restarts included: no job
is in two places at once, no pipeline is begun twice, rows only move forward,
and only the consumer moves a row on from queued. It is read off the ledger,
which a controller on its own keeps with an empty frame.

## Main definitions

* `Sys.inFlight`: The jobs in the queue and the one being run.
* `Sys.consuming`: The job being run.
* `Sys.Kept`: The system keeps a ledger with its invariant.

## Theorems

* `kept_step`, `kept_run`: The ledger is kept and rows move along edges.
* `queued_left`: Only the consumer's write takes a row away from queued.
* `at_most_once`: What holds of every reachable state.
-/

namespace Bop

open Prog Relation

variable {S D Digest : Type} [DecidableEq Digest]

/-- The job the consumer has dequeued and is not done with. -/
def Sys.consuming (s : Sys S) : Option Bytes :=
  (s.threads.bind Threads.consumer).map (fun running => running.1.id)

/-- The identifiers in the queue and of the job being run. -/
def Sys.inFlight (s : Sys S) : List Bytes :=
  s.shared.queue.jobs.map Job.id ++ s.consuming.toList

/-- The system keeps a ledger with its invariant. -/
def Sys.Kept (s : Sys S) : Prop :=
  ∃ claims, Holds s.shared.queue.jobs s.threads claims ∧ (s.ledger claims 0).Inv

/-- A system without a process keeps one. -/
theorem kept_initial (store : Store) : (Sys.initial store : Sys S).Kept := by
  refine ⟨0, Holds.off new_jobs, Multiset.nodup_zero, ?_, Multiset.nodup_zero, ?_⟩
  · intro id p hmem
    exact absurd hmem (Multiset.notMem_zero _)
  · intro id hmem
    exact absurd hmem (Multiset.notMem_zero _)

/-- A step keeps the ledger and moves every row along an edge. -/
theorem kept_step (c : Controller S) (api : Api.Server S D Digest) (s s' : Sys S)
    (h : Step c api s s') (hs : s.Kept) :
    s'.Kept ∧ ∀ id, Edge (s.status id) (s'.status id) := by
  rcases hs with ⟨claims, hh, hi⟩
  have hspare : ∀ e, Recovers e s s' → Spares 0 s.shared s'.shared e :=
    fun e _ => spares_zero s.shared s'.shared e
  rw [← Multiset.add_zero claims] at hi
  rcases controller_step c api s s' h claims 0 0 hh hi hspare with ⟨claims', hh', hgen⟩
  have hnext := Ledger.steps_inv _ _ hgen.to_reflTransGen hi
  refine ⟨⟨claims', hh', ?_⟩, fun id => ?_⟩
  · rw [← Multiset.add_zero claims']
    exact hnext.1
  · have hmove : ∀ l l', ReflGen Ledger.Step l l' → l.Inv → Edge (l.status id) (l'.status id) := by
      intro l l' hstep hl
      cases hstep with
      | refl => exact Edge.stay _
      | single hstep => exact Ledger.step_edge l l' hstep hl id
    exact hmove _ _ hgen hi

/-- A run keeps the ledger and moves every row along edges. -/
theorem kept_run (c : Controller S) (api : Api.Server S D Digest) (s s' : Sys S)
    (h : ReflTransGen (Step c api) s s') (hs : s.Kept) :
    s'.Kept ∧ ∀ id, ReflTransGen Edge (s.status id) (s'.status id) := by
  induction h with
  | refl => exact ⟨hs, fun id => ReflTransGen.refl⟩
  | tail _ hstep ih =>
      rcases kept_step c api _ _ hstep ih.1 with ⟨hkept, hedge⟩
      exact ⟨hkept, fun id => (ih.2 id).tail (hedge id)⟩

/-- No job is in two places. -/
theorem kept_inFlight (s : Sys S) (hs : s.Kept) : s.inFlight.Nodup := by
  rcases hs with ⟨claims, hh, hi⟩
  have hnodup : (claims.map Prod.fst).Nodup := hi.nodup
  have hfst : ∀ jobs : List Job,
      (waitingFor jobs).map Prod.fst = (jobs.map Job.id : List Bytes) := by
    intro jobs
    rw [waitingFor, Multiset.map_coe, List.map_map]
    rfl
  -- What is in flight is claimed, and claims are for different jobs.
  have hle : (s.inFlight : Multiset Bytes) ≤ claims.map Prod.fst := by
    rw [Sys.inFlight, Sys.consuming, ← Multiset.coe_add, ← hfst]
    generalize s.shared.queue.jobs = q at hh
    generalize s.threads = t at hh
    cases hh with
    | off hq =>
        subst hq
        exact le_refl _
    | booting p todo hp hq =>
        rw [waitingFor_append, Multiset.map_add]
        exact Multiset.add_le_add_left (Multiset.zero_le _)
    | ready producers pending consumer claim hp hc =>
        rw [waitingFor_append, Multiset.map_add, Multiset.map_add, Multiset.add_assoc]
        refine Multiset.add_le_add_left ?_
        refine le_trans (b := claim.map Prod.fst) ?_ (Multiset.le_add_left _ _)
        cases hc with
        | idle => exact le_refl _
        | busy job p phase hp => exact le_refl _
  exact Multiset.coe_nodup.mp (Multiset.nodup_of_le hle hnodup)

/-- A call that is neither an update nor the recovery leaves the rows there are
    in their status. -/
theorem status_kept (w w' : Shared) (o : Op S) (x : Ans o) (h : SharedSem w o x w')
    (hupdate : ∀ ctx id st, o ≠ .store ctx (.updateJobStatus id st))
    (hrecover : ∀ ctx, o ≠ .store ctx .failOrphanedJobs) (id : Bytes) (st : JobStatus)
    (hst : w.store.status id = some st) : w'.store.status id = some st := by
  by_cases hleaves : o.leavesJobs = true
  · rw [(quiet_step w w' o x hleaves h).1, hst]
  · cases o with
    | store ctx o =>
        cases o with
        | updateJobStatus i st => exact absurd rfl (hupdate ctx i st)
        | failOrphanedJobs => exact absurd rfl (hrecover ctx)
        | createJob job =>
            rcases status_created _ _ _ _ h.1 with ⟨hnew, hstatus⟩ | ⟨_, heq⟩
            · -- A row is created only where there is none.
              have hne : id ≠ job.id := by
                rintro rfl
                rw [hnew] at hst
                cases hst
              rw [hstatus, Function.update_of_ne hne, hst]
            · rw [heq, hst]
        | _ => exact absurd rfl hleaves
    | enqueue job =>
        cases x with
        | ok u => rw [h.1, hst]
        | error err => rw [show w' = w from h, hst]
    | _ => exact absurd rfl hleaves

/-- A statement other than an update of a status keeps the queued rows. -/
theorem queued_kept (w w' : Shared) (o : Op S) (x : Ans o) (h : SharedSem w o x w')
    (ho : ∀ ctx id st, o ≠ .store ctx (.updateJobStatus id st)) (id : Bytes)
    (hq : w.store.status id = some .queued) : w'.store.status id = some .queued := by
  by_cases hrecover : ∀ ctx, o ≠ .store ctx .failOrphanedJobs
  · exact status_kept w w' o x h ho hrecover id .queued hq
  · push Not at hrecover
    rcases hrecover with ⟨ctx, rfl⟩
    rcases status_recovered _ _ _ h.1 with ⟨_, hstatus⟩ | heq
    · rw [hstatus]
      change (w.store.status id).map failActive = some .queued
      rw [hq]
      rfl
    · rw [heq, hq]

/-- Whoever runs a job writes to no other row. -/
theorem runMonitor_update (id i : Bytes) (phase phase' : Phase) (ctx : Ctx) (st : JobStatus)
    (x : StoreAns (.updateJobStatus i st))
    (hm : runMonitor id phase (.store ctx (.updateJobStatus i st) : Op S) x = some phase') :
    i = id := by
  cases runCall_of_monitor id phase phase' (.store ctx (.updateJobStatus i st)) x hm with
  | mark => rfl
  | giveUp => rfl
  | announce _ hq => cases hq.1
  | begin _ hleaves => cases hleaves
  | work _ hq => cases hq.1
  | finish => rfl

/-! ### What the ledger knows -/

/-- A job in the queue is stored as queued. -/
theorem queued_of_kept (s : Sys S) (hs : s.Kept) (job : Job) (hjob : job ∈ s.shared.queue.jobs) :
    s.status job.id = some .queued := by
  rcases hs with ⟨claims, hh, hi⟩
  have hmem : ∀ jobs : List Job,
      (job.id, Phase.waiting) ∈ waitingFor (s.shared.queue.jobs ++ jobs) :=
    fun jobs => Multiset.mem_coe.mpr (List.mem_map_of_mem (List.mem_append_left jobs hjob))
  refine hi.held job.id .waiting ?_
  generalize s.shared.queue.jobs = q at hh hjob hmem
  generalize s.threads = t at hh
  cases hh with
  | off hq =>
      rw [hq] at hjob
      cases hjob
  | booting p todo hp hq => exact hmem _
  | ready producers pending consumer claim hp hc => exact Multiset.mem_add.mpr (Or.inl (hmem _))

/-- A job whose pipeline was begun is not queued. -/
theorem begun_of_kept (s : Sys S) (hs : s.Kept) (id : Bytes) (hid : id ∈ s.begun) :
    s.status id ≠ some .queued := by
  rcases hs with ⟨claims, _, hi⟩
  exact (hi.begunMoved id (Multiset.mem_add.mpr (Or.inl (Multiset.mem_coe.mpr hid)))).2

/-- The consumer of a process that keeps a ledger obeys the monitor of
    whoever runs a job, in a phase that agrees with the row. -/
theorem running_of_kept (s : Sys S) (hs : s.Kept) (t : Threads S) (job : Job)
    (p : Proc S (Except Bytes Unit)) (ht : s.threads = some t)
    (hc : t.consumer = some (job, p)) :
    t.boot = none ∧ ∃ phase, Obeys (runMonitor job.id) phase p (fun _ _ => True) ∧
      (phase = .running → s.status job.id = some .inProgress) := by
  rcases hs with ⟨claims, hh, hi⟩
  rw [ht] at hh
  generalize s.shared.queue.jobs = q at hh
  cases hh with
  | booting => cases hc
  | ready producers pending consumer claim hps hconsumes =>
      cases hc
      cases hconsumes with
      | busy _ _ phase hp =>
          refine ⟨rfl, phase, hp, ?_⟩
          rintro rfl
          exact hi.held job.id .running
            (Multiset.mem_add.mpr (Or.inr (Multiset.mem_singleton_self _)))

/-- While the recovery runs there is no consumer, and it updates no status. -/
theorem bootCall_of_kept (s : Sys S) (hs : s.Kept) (t : Threads S) (o : Op S)
    (k : Ans o → Proc S (Except Bytes Unit)) (ht : s.threads = some t)
    (hboot : t.boot = some (.call o k)) :
    t.consumer = none ∧ ∀ ctx id st, o ≠ .store ctx (.updateJobStatus id st) := by
  rcases hs with ⟨claims, hh, _⟩
  rw [ht] at hh
  generalize s.shared.queue.jobs = q at hh
  cases hh with
  | ready => cases hboot
  | booting p todo hp hq =>
      cases hboot
      refine ⟨rfl, ?_⟩
      rintro ctx id st rfl
      rcases hp (.error []) with ⟨todo', hm, _⟩
      cases todo with
      | none => cases hm
      | some jobs => cases jobs <;> cases hm

/-- A producer updates no status and fails no row. -/
theorem producerCall_of_kept (s : Sys S) (hs : s.Kept) (t : Threads S)
    (before after : List (Proc S Unit)) (o : Op S) (k : Ans o → Proc S Unit)
    (ht : s.threads = some t) (hproducers : t.producers = before ++ .call o k :: after) :
    (∀ ctx id st, o ≠ .store ctx (.updateJobStatus id st)) ∧
      ∀ ctx, o ≠ .store ctx .failOrphanedJobs := by
  rcases hs with ⟨claims, hh, _⟩
  rw [ht] at hh
  generalize s.shared.queue.jobs = q at hh
  cases hh with
  | booting => cases before <;> cases hproducers
  | ready producers pending consumer claim hps hc =>
      cases hproducers
      rcases forall₂_middle _ pending before after _ hps with ⟨us₁, u, us₂, _, hp, _⟩
      constructor
      · rintro ctx id st rfl
        rcases hp (.error []) with ⟨u', hm, _⟩
        cases u <;> cases hm
      · rintro ctx rfl
        rcases hp (.error []) with ⟨u', hm, _⟩
        cases u <;> cases hm

/-- Only the consumer's write takes a row away from queued. -/
theorem queued_left (c : Controller S) (api : Api.Server S D Digest) (s s' : Sys S)
    (h : Step c api s s') (hs : s.Kept) (id : Bytes) (hq : s.status id = some .queued)
    (hleft : s'.status id ≠ some .queued) : s.consuming = some id := by
  cases h with
  | bootCall t o k x w ht hboot hw =>
      exact absurd (queued_kept s.shared w o x hw (bootCall_of_kept s hs t o k ht hboot).2 id hq)
        hleft
  | producerCall t before after o k x w ht hproducers hw =>
      have hother := (producerCall_of_kept s hs t before after o k ht hproducers).1
      exact absurd (queued_kept s.shared w o x hw hother id hq) hleft
  | consumerCall t job o k x w ht hconsumer hw =>
      rw [Sys.consuming, ht, Option.bind_some, hconsumer, Option.map_some]
      rcases running_of_kept s hs t job _ ht hconsumer with ⟨_, phase, hp, _⟩
      rcases hp x with ⟨phase', hm, _⟩
      by_cases ho : ∀ ctx i st, o ≠ .store ctx (.updateJobStatus i st)
      · exact absurd (queued_kept s.shared w o x hw ho id hq) hleft
      · push Not at ho
        rcases ho with ⟨ctx, i, st, rfl⟩
        -- A runner writes the status of its own job.
        have hi := runMonitor_update job.id i phase phase' ctx st x hm
        by_cases hid : id = i
        · rw [hid, hi]
        · rcases status_updated _ _ _ _ _ hw.1 with hstatus | ⟨_, hstatus⟩
          · refine absurd ?_ hleft
            rw [Sys.status, hstatus, Function.update_of_ne hid]
            exact hq
          · refine absurd ?_ hleft
            rw [Sys.status, hstatus]
            exact hq
  | boot => exact absurd hq hleft
  | ready => exact absurd hq hleft
  | produce => exact absurd hq hleft
  | dequeue => exact absurd hq hleft
  | consumerDone => exact absurd hq hleft
  | crash => exact absurd hq hleft

/-- What holds of every reachable state of a controller over a durable store,
    for every interleaving, every failure and every crash. No job is twice
    among the queue and the job being run, and no pipeline was begun twice.
    Every next step moves every row along an edge, and takes one away from
    queued only for the job the consumer has dequeued. Whatever happens
    next, rows that are there stay there and final statuses are final. -/
theorem at_most_once (c : Controller S) (api : Api.Server S D Digest) (store : Store) (s : Sys S)
    (h : ReflTransGen (Step c api) (Sys.initial store) s) :
    s.inFlight.Nodup ∧ s.begun.Nodup ∧
      (∀ id, ReflTransGen Edge (store.status id) (s.status id)) ∧
      (∀ s', Step c api s s' → ∀ id, Edge (s.status id) (s'.status id) ∧
        (s.status id = some .queued → s'.status id ≠ some .queued → s.consuming = some id)) ∧
      (∀ s', ReflTransGen (Step c api) s s' → ∀ id,
        ((s.status id).isSome → (s'.status id).isSome) ∧
        (∀ st, st.terminal = true → s.status id = some st → s'.status id = some st)) := by
  rcases kept_run c api _ s h (kept_initial store) with ⟨hs, hedges⟩
  refine ⟨kept_inFlight s hs, ?_, hedges, ?_, ?_⟩
  · rcases hs with ⟨claims, _, hi⟩
    have hnodup := hi.begunNodup
    rw [Sys.ledger, Multiset.add_zero] at hnodup
    exact Multiset.coe_nodup.mp hnodup
  · intro s' hstep id
    exact ⟨(kept_step c api s s' hstep hs).2 id,
      fun hq hleft => queued_left c api s s' hstep hs id hq hleft⟩
  · intro s' hrun id
    have hmoved := (kept_run c api s s' hrun hs).2 id
    exact ⟨edges_isSome _ _ hmoved, fun st hst => edges_terminal _ _ hmoved st hst⟩

/-! ### One run -/

/-- The state in which the consumer has taken the job that was left queued. -/
def filesTaken : Sys Unit where
  shared := ⟨leftQueued.failOrphaned, Memory.new queueCapacity⟩
  threads := some ⟨none, [], some (filesJob, filesController.runJob filesJob)⟩
  begun := []

/-- A start recovers the job that was left queued, and the consumer takes it. -/
theorem reaches_filesTaken :
    ReflTransGen (Step filesController Api.filesApi) (Sys.initial leftQueued) filesTaken := by
  let job := filesJob
  let empty := Memory.new queueCapacity
  let full : Memory := ⟨queueCapacity, [job], by decide⟩
  have hfail : SharedSem (S := Unit) ⟨leftQueued, empty⟩ (.store .caller .failOrphanedJobs)
      (.ok 0) ⟨leftQueued.failOrphaned, empty⟩ := ⟨⟨rfl, rfl⟩, rfl⟩
  have hlist : SharedSem (S := Unit) ⟨leftQueued.failOrphaned, empty⟩
      (.store .caller (.listJobsByStatus .queued)) (.ok [job])
      ⟨leftQueued.failOrphaned, empty⟩ :=
    ⟨⟨rfl, List.Perm.refl _, List.pairwise_singleton _ _⟩, rfl⟩
  have henqueue : SharedSem (S := Unit) ⟨leftQueued.failOrphaned, empty⟩ (.enqueue job) (.ok ())
      ⟨leftQueued.failOrphaned, full⟩ := ⟨rfl, rfl⟩
  have hboot : ReflTransGen (Step filesController Api.filesApi) (Sys.initial leftQueued) _ :=
    .single (Step.boot _ rfl)
  have hfailed := hboot.tail (Step.bootCall _ _ _ _ _ _ rfl rfl hfail)
  have hlisted := hfailed.tail (Step.bootCall _ _ _ _ _ _ rfl rfl hlist)
  have henqueued := hlisted.tail (Step.bootCall _ _ _ _ _ _ rfl rfl henqueue)
  have hready := henqueued.tail (Step.ready _ _ rfl rfl)
  have htaken := hready.tail (Step.dequeue _ _ job empty rfl rfl rfl rfl)
  exact htaken

/-- A job left queued is recovered by the next start and marked by the
    consumer. -/
theorem at_most_once_recovered : ∃ s : Sys Unit,
    ReflTransGen (Step filesController Api.filesApi) (Sys.initial leftQueued) s ∧
      s.status filesJob.id = some .inProgress ∧
      s.inFlight = [filesJob.id] ∧ s.inFlight.Nodup := by
  let running : Shared :=
    ⟨leftQueued.failOrphaned.setStatus filesJob.id .inProgress, Memory.new queueCapacity⟩
  have hmark : SharedSem (S := Unit) filesTaken.shared
      (.store .caller (.updateJobStatus filesJob.id .inProgress)) (.ok ()) running :=
    ⟨⟨rfl, rfl⟩, rfl⟩
  have hmarked :=
    reaches_filesTaken.tail (Step.consumerCall _ _ filesJob _ _ _ _ rfl rfl hmark)
  exact ⟨_, hmarked, rfl, rfl, (at_most_once filesController Api.filesApi leftQueued _ hmarked).1⟩

end Bop
