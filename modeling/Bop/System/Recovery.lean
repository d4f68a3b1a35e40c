import Bop.Effect.Interp
import Bop.System.Refinement

/-!
# What a Start Recovers

The startup recovery on its own: no other producer, and every write goes
through. It lists the queued rows once, in the order they were queued, and
offers each to a queue nobody empties yet, so what it keeps is the first
`queueCapacity` rows of the listing, whether they can be run or not. The
consumer then runs what is in the queue, and a job whose host, plugin or
repository does not resolve is refused and stays queued, to be listed again,
in the same place, by the next start.

A run of the recovery is therefore determined by its listing: the pipelines it
begins are those of the runnable jobs among the first rows, in order, once
each (`recovery_ran`). That it reaches every runnable job is the same as that
no runnable job comes after those rows.

## Main definitions

* `Reliable`: The answers of a world whose writes go through.
* `Controller.runnable`: The host, the plugin and the repository resolve.
* `Drains`: The consumer runs what is in the queue, one job at a time.
* `Listing`, `Recovery`: What a start lists, and what it runs.
* `Recovered`: Every runnable job was run once, in order, and left queued.

## Theorems

* `enqueueAll_take`: A bounded queue keeps what it has room for.
* `drains_ran`: Draining runs the runnable jobs of the queue.
* `recovery_ran`: What a start runs.
* `exists_recovery`: Every listing has a recovery.
* `recovered_iff`: When a start reaches every runnable job.
-/

namespace Bop

open Prog

variable {S α : Type}

/-- The metadata writes go through and the queue refuses only what it has no
    room for. An update still finds no row where there is none, and a key
    that is taken is still taken. -/
def NoFailure (w : Shared) : (o : Op S) → Ans o → Prop
  | .store _ (.createJob job), .error _ => w.store.createJob? job = none
  | .store _ (.updateJobStatus id _), .error _ => w.store.status id = none
  | .store _ .failOrphanedJobs, .error _ => False
  | .store _ (.recordSnapshot snap), .error _ => w.store.recordSnapshot? snap = none
  | .store _ (.setPluginSettings _ _ _), .error _ => False
  | .enqueue job, .error _ => w.queue.enqueue? job = none
  | _, _ => True

/-- The answers of a world whose writes go through. -/
def Reliable : Semantics (Op S) Ans Shared := fun w o x w' => SharedSem w o x w' ∧ NoFailure w o x

/-- Such a world answers every call. -/
theorem reliable_total (w : Shared) (o : Op S) : ∃ x w', Reliable w o x w' := by
  -- A write succeeds where it can. Where it cannot, there was nothing to write to.
  cases o with
  | store ctx o =>
      cases o with
      | createJob job =>
          cases h : w.store.createJob? job with
          | none => exact ⟨.error [], w, ⟨Or.inl rfl, rfl⟩, h⟩
          | some s => exact ⟨.ok (), ⟨s, w.queue⟩, ⟨h, rfl⟩, trivial⟩
      | updateJobStatus id st =>
          cases h : w.store.jobs.find? id with
          | none =>
              refine ⟨.error [], w, ⟨Or.inl rfl, rfl⟩, ?_⟩
              change w.store.status id = none
              rw [Store.status, h, Option.map_none]
          | some job =>
              refine ⟨.ok (), ⟨w.store.setStatus id st, w.queue⟩, ⟨⟨?_, rfl⟩, rfl⟩, trivial⟩
              rw [h]
              rfl
      | failOrphanedJobs =>
          exact ⟨.ok _, ⟨w.store.failOrphaned, w.queue⟩, ⟨⟨rfl, rfl⟩, rfl⟩, trivial⟩
      | recordSnapshot snap =>
          cases h : w.store.recordSnapshot? snap with
          | none => exact ⟨.error [], w, ⟨Or.inl rfl, rfl⟩, h⟩
          | some s => exact ⟨.ok (), ⟨s, w.queue⟩, ⟨h, rfl⟩, trivial⟩
      | setPluginSettings host plugin json =>
          exact ⟨.ok (), ⟨w.store.setPluginSettings host plugin json, w.queue⟩, ⟨rfl, rfl⟩, trivial⟩
      | getJob id => exact ⟨.error (.other []), w, ⟨rfl, rfl⟩, trivial⟩
      | _ => exact ⟨.error [], w, ⟨rfl, rfl⟩, trivial⟩
  | publish ctx e => exact ⟨(), w, ⟨Or.inl rfl, rfl⟩, trivial⟩
  | enqueue job =>
      cases h : w.queue.enqueue? job with
      | none => exact ⟨.error Memory.errQueueFull, w, rfl, h⟩
      | some q => exact ⟨.ok (), ⟨w.store, q⟩, ⟨rfl, h⟩, trivial⟩
  | now => exact ⟨(0 : Int), w, rfl, trivial⟩
  | _ => exact ⟨.error [], w, rfl, trivial⟩

/-! ### Filling the queue -/

/-- A bounded queue keeps what it has room for. -/
theorem enqueueAll_take (jobs : List Job) (tr : Trace (Op S) Ans) (w w' : Shared)
    (hr : Runs (forEach jobs (fun job => do
      let _ ← call (.enqueue job)
      return ()) : Proc S Unit) tr ()) (hs : Steps Reliable w tr w') :
    w'.store = w.store ∧ w'.queue.capacity = w.queue.capacity ∧
      w'.queue.jobs = (w.queue.jobs ++ jobs).take w.queue.capacity := by
  induction jobs generalizing tr w with
  | nil =>
      rcases (runs_ret_iff _ _ _).mp hr with ⟨rfl, _⟩
      cases hs
      refine ⟨rfl, rfl, ?_⟩
      rw [List.append_nil, List.take_of_length_le w'.queue.bounded]
  | cons job jobs ih =>
      rcases (runs_call_iff _ _ _ _).mp hr with ⟨x, tr', rfl, hr'⟩
      cases hs with
      | cons _ w₁ _ _ _ _ hstep hrest =>
          rcases ih tr' w₁ hr' hrest with ⟨hstore, hcap, hjobs⟩
          cases x with
          | ok u =>
              rcases hstep.1 with ⟨hstore₁, henqueue⟩
              rcases Memory.enqueue?_jobs _ _ _ henqueue with ⟨hjobs₁, hcap₁⟩
              refine ⟨hstore.trans hstore₁, hcap.trans hcap₁, ?_⟩
              rw [hjobs, hcap₁, hjobs₁, List.append_assoc]
              rfl
          | error err =>
              have heq : w₁ = w := hstep.1
              have hfull := (Memory.enqueue?_eq_none_iff _ _).mp hstep.2
              subst heq
              refine ⟨hstore, hcap, ?_⟩
              -- The queue is full, and what comes later is cut off as well.
              rw [hjobs, ← hfull, List.take_left, List.take_left]

/-! ### Running one job -/

/-- How often the pipeline has begun by a phase that writes that went through
    have led to. -/
def Phase.begins : Phase → Nat
  | .waiting | .marked => 0
  | .running | .closed => 1

/-- Only a job nobody has marked is queued. -/
def Phase.Agrees : Phase → Option JobStatus → Prop
  | .waiting, st => st = some .queued
  | _, st => st.isSome ∧ st ≠ some .queued

/-- The calls of a trace that begin a pipeline. -/
def beginnings (tr : Trace (Op S) Ans) : Nat := tr.countP (fun e => e.1.beginsPipeline)

theorem agrees_of_active (phase : Phase) (st : JobStatus) (hphase : phase ≠ .waiting)
    (h : st ≠ .queued) : phase.Agrees (some st) := by
  have hne : some st ≠ some .queued := fun heq => h (Option.some.inj heq)
  cases phase with
  | waiting => exact absurd rfl hphase
  | _ => exact ⟨rfl, hne⟩

/-- What one call of whoever runs a job does, where writes go through. -/
theorem reliable_step (id : Bytes) (phase phase' : Phase) (o : Op S) (x : Ans o) (w w' : Shared)
    (hm : runMonitor id phase o x = some phase') (h : Reliable w o x w')
    (hagrees : phase.Agrees (w.store.status id)) :
    w'.queue = w.queue ∧ (∀ id', id' ≠ id → w'.store.status id' = w.store.status id') ∧
      phase'.Agrees (w'.store.status id) ∧ phase' ≠ .waiting ∧
      phase'.begins = phase.begins + if o.beginsPipeline then 1 else 0 := by
  -- A write to the job's own row that the world lets through.
  have hwrite : ∀ ctx st, ∀ phase' : Phase, phase' ≠ .waiting → st ≠ .queued →
      ∀ x, Reliable w (.store ctx (.updateJobStatus id st) : Op S) x w' →
      (∃ st', w.store.status id = some st') →
      w'.queue = w.queue ∧ (∀ id', id' ≠ id → w'.store.status id' = w.store.status id') ∧
        phase'.Agrees (w'.store.status id) := by
    intro ctx st phase' hphase hst x h hrow
    rcases status_updated _ _ _ _ _ h.1.1 with hstatus | ⟨⟨err, rfl⟩, _⟩
    · rw [hstatus]
      refine ⟨h.1.2, fun id' hne => Function.update_of_ne hne _ _, ?_⟩
      rw [Function.update_self]
      exact agrees_of_active phase' st hphase hst
    · rcases hrow with ⟨st', hst'⟩
      exact absurd (hst'.symm.trans h.2) (Option.some_ne_none st')
  have hquiet : o.leavesJobs = true → w'.queue = w.queue ∧ w'.store.status = w.store.status :=
    fun hleaves => (quiet_step w w' o x hleaves h.1).symm
  cases runCall_of_monitor id phase phase' o x hm with
  | mark ctx =>
      rcases hwrite ctx .inProgress .marked (by decide) (by decide) _ h ⟨_, hagrees⟩ with
        ⟨hqueue, hother, hself⟩
      exact ⟨hqueue, hother, hself, by decide, rfl⟩
  | giveUp ctx err => exact absurd (hagrees.symm.trans h.2) (Option.some_ne_none _)
  | announce _ hq =>
      rcases hquiet hq.1 with ⟨hqueue, hstatus⟩
      rw [hstatus, if_neg (Bool.not_eq_true _ ▸ hq.2)]
      exact ⟨hqueue, fun _ _ => rfl, hagrees, by decide, rfl⟩
  | begin _ hleaves hbegin =>
      rcases hquiet hleaves with ⟨hqueue, hstatus⟩
      rw [hstatus, if_pos hbegin]
      exact ⟨hqueue, fun _ _ => rfl, hagrees, by decide, rfl⟩
  | work _ hq =>
      rcases hquiet hq.1 with ⟨hqueue, hstatus⟩
      rw [hstatus, if_neg (Bool.not_eq_true _ ▸ hq.2)]
      exact ⟨hqueue, fun _ _ => rfl, hagrees, by decide, rfl⟩
  | finish ctx st _ hst =>
      have hne : st ≠ .queued := by
        rintro rfl
        cases hst
      rcases hwrite ctx st .closed (by decide) hne _ h (Option.isSome_iff_exists.mp hagrees.1) with
        ⟨hqueue, hother, hself⟩
      exact ⟨hqueue, hother, hself, by decide, rfl⟩

/-- What whoever runs a job has done by any point, where writes go through. -/
theorem reliable_run (id : Bytes) (tr : Trace (Op S) Ans) (phase phase' : Phase) (w w' : Shared)
    (hm : watch (runMonitor id) phase tr = some phase') (hs : Steps Reliable w tr w')
    (hagrees : phase.Agrees (w.store.status id)) :
    w'.queue = w.queue ∧ (∀ id', id' ≠ id → w'.store.status id' = w.store.status id') ∧
      phase'.Agrees (w'.store.status id) ∧ (tr ≠ [] → phase' ≠ .waiting) ∧
      phase'.begins = phase.begins + beginnings tr := by
  -- Along the run, with the phase of the runner and the status of its job in step.
  induction tr generalizing phase w with
  | nil =>
      cases hs
      cases hm
      exact ⟨rfl, fun _ _ => rfl, hagrees, fun h => absurd rfl h, rfl⟩
  | cons e tr ih =>
      cases hs with
      | cons _ w₁ _ o x _ hstep hrest =>
          simp only [watch] at hm
          cases hone : runMonitor id phase o x with
          | none =>
              rw [hone] at hm
              cases hm
          | some phase₁ =>
              rw [hone] at hm
              rcases reliable_step id phase phase₁ o x w w₁ hone hstep hagrees with
                ⟨hqueue₁, hother₁, hagrees₁, hphase₁, hbegins₁⟩
              rcases ih phase₁ w₁ hm hrest hagrees₁ with ⟨hqueue, hother, hself, hphase, hbegins⟩
              refine ⟨hqueue.trans hqueue₁,
                fun id' hne => (hother id' hne).trans (hother₁ id' hne), hself, fun _ => ?_, ?_⟩
              · rcases tr with _ | ⟨e', tr'⟩
                · cases hm
                  exact hphase₁
                · exact hphase (List.cons_ne_nil _ _)
              · rw [hbegins, hbegins₁, beginnings, beginnings, List.countP_cons, Nat.add_assoc,
                  Nat.add_comm (List.countP _ tr)]

namespace Controller

/-- The host, the plugin and the repository of the job resolve. -/
def runnable (c : Controller S) (job : Job) : Bool :=
  decide (job.plugin ∈ c.factories) && (c.storageFor job.host).isOk

/-- A job that is not runnable is refused before anything is written. -/
theorem runJob_refused (c : Controller S) (job : Job) (h : c.runnable job = false) :
    ∃ err, c.runJob job = .ret (.error err) := by
  unfold runJob
  split
  · exact ⟨_, rfl⟩
  · split
    · exact ⟨_, rfl⟩
    · next hplugin =>
        split
        · exact ⟨_, rfl⟩
        · next sp hsp =>
            rw [not_not] at hplugin
            simp only [runnable, hplugin, hsp, decide_true, Bool.true_and] at h
            cases h

/-- A runnable job is marked. -/
theorem runJob_admitted (c : Controller S) (job : Job) (h : c.runnable job = true) :
    ∃ k, c.runJob job = .call (.store .caller (.updateJobStatus job.id .inProgress)) k := by
  simp only [runnable, Bool.and_eq_true, decide_eq_true_eq] at h
  rcases h with ⟨hplugin, hstorage⟩
  unfold runJob
  cases hsrv : c.inventory.servers.lookup job.host with
  | none =>
      simp only [storageFor, hsrv] at hstorage
      cases hstorage
  | some srv =>
      cases hsp : c.storageFor job.host with
      | error err =>
          rw [hsp] at hstorage
          cases hstorage
      | ok sp =>
          simp only [hplugin, not_true_eq_false, if_false]
          exact ⟨_, rfl⟩

/-- A job that is queued is run once if it is runnable, and left alone if it
    is not. -/
theorem runJob_reliable (c : Controller S) (job : Job) (tr : Trace (Op S) Ans)
    (r : Except Bytes Unit) (w w' : Shared) (hr : Runs (c.runJob job) tr r)
    (hs : Steps Reliable w tr w') (hq : w.store.status job.id = some .queued) :
    w'.queue = w.queue ∧ (∀ id, id ≠ job.id → w'.store.status id = w.store.status id) ∧
      (c.runnable job = true → w'.store.status job.id ≠ some .queued ∧ beginnings tr = 1) ∧
      (c.runnable job = false → w'.store.status job.id = some .queued ∧ beginnings tr = 0) := by
  rcases obeys_runs _ _ _ _ (c.runJob_obeys job) tr r hr with ⟨phase', hm, hphase⟩
  rcases reliable_run job.id tr .waiting phase' w w' hm hs hq with
    ⟨hqueue, hother, hself, hmoved, hbegins⟩
  refine ⟨hqueue, hother, ?_, ?_⟩
  · intro hrun
    rcases c.runJob_admitted job hrun with ⟨k, hk⟩
    rw [hk] at hr
    -- A job that is picked up makes its first call, and then it no longer waits.
    have hne : tr ≠ [] := by
      rcases (runs_call_iff _ _ _ _).mp hr with ⟨x, tr', rfl, _⟩
      exact List.cons_ne_nil _ _
    rcases hphase with rfl | rfl
    · exact absurd rfl (hmoved hne)
    · exact ⟨hself.2, by simpa only [Phase.begins, Nat.zero_add] using hbegins.symm⟩
  · intro hrun
    rcases c.runJob_refused job hrun with ⟨err, herr⟩
    rw [herr] at hr
    rcases (runs_ret_iff _ _ _).mp hr with ⟨rfl, _⟩
    cases hs
    exact ⟨hq, rfl⟩

end Controller

/-! ### Draining the queue -/

/-- The consumer runs what is in the queue, one job at a time, until it is
    empty. The jobs whose pipeline it began are listed as often as it did. -/
inductive Drains (c : Controller S) : Shared → List Job → Shared → Prop
  | done (w : Shared) (h : w.queue.jobs = []) : Drains c w [] w
  | next (w : Shared) (job : Job) (q : Memory) (tr : Trace (Op S) Ans) (r : Except Bytes Unit)
      (w' w'' : Shared) (ran : List Job) (hq : w.queue.dequeue? = some (job, q))
      (hr : Runs (c.runJob job) tr r) (hs : Steps Reliable { w with queue := q } tr w')
      (hrest : Drains c w' ran w'') :
      Drains c w (List.replicate (beginnings tr) job ++ ran) w''

/-- The jobs in the queue are distinct and stored as queued. -/
def Shared.Fresh (w : Shared) : Prop :=
  (w.queue.jobs.map Job.id).Nodup ∧ ∀ job ∈ w.queue.jobs, w.store.status job.id = some .queued

/-- Taking a job and running it leaves the rest of the queue as it was. -/
theorem fresh_next (c : Controller S) (w w' : Shared) (job : Job) (q : Memory)
    (tr : Trace (Op S) Ans) (r : Except Bytes Unit) (hw : w.Fresh)
    (hq : w.queue.dequeue? = some (job, q)) (hr : Runs (c.runJob job) tr r)
    (hs : Steps Reliable { w with queue := q } tr w') :
    w'.Fresh ∧ w.queue.jobs = job :: w'.queue.jobs ∧
      (∀ id, id ≠ job.id → w'.store.status id = w.store.status id) ∧
      (c.runnable job = true → w'.store.status job.id ≠ some .queued ∧ beginnings tr = 1) ∧
      (c.runnable job = false → beginnings tr = 0) := by
  have hjobs := Memory.dequeue?_jobs _ _ _ hq
  rcases hw with ⟨hnodup, hqueued⟩
  rw [hjobs] at hnodup hqueued
  rw [List.map_cons, List.nodup_cons] at hnodup
  rcases c.runJob_reliable job tr r _ w' hr hs (hqueued job List.mem_cons_self) with
    ⟨hqueue, hother, hrun, hrefuse⟩
  rw [hqueue]
  refine ⟨⟨by rw [hqueue]; exact hnodup.2, ?_⟩, hjobs, hother, hrun, fun h => (hrefuse h).2⟩
  intro job' hmem
  rw [hqueue] at hmem
  rw [hother job'.id]
  · exact hqueued job' (List.mem_cons_of_mem _ hmem)
  · intro heq
    exact hnodup.1 (heq ▸ List.mem_map_of_mem hmem)

/-- Draining runs the runnable jobs of the queue, in order and once each, and
    none of them is left queued. -/
theorem drains_ran (c : Controller S) (w w' : Shared) (ran : List Job) (h : Drains c w ran w')
    (hw : w.Fresh) :
    ran = w.queue.jobs.filter c.runnable ∧
      (∀ job ∈ w.queue.jobs, c.runnable job = true → w'.store.status job.id ≠ some .queued) ∧
      ∀ id, id ∉ w.queue.jobs.map Job.id → w'.store.status id = w.store.status id := by
  induction h with
  | done w h =>
      rw [h]
      exact ⟨rfl, fun _ hmem => absurd hmem List.not_mem_nil, fun _ _ => rfl⟩
  | next w job q tr r w₁ w₂ ran hq hr hs _ ih =>
      rcases fresh_next c w w₁ job q tr r hw hq hr hs with ⟨hfresh, hjobs, hother, hrun, hrefuse⟩
      rcases ih hfresh with ⟨hran, hleft, hkept⟩
      have hnodup := hw.1
      -- No job is queued twice, so what follows does not touch this one's row.
      rw [hjobs, List.map_cons, List.nodup_cons] at hnodup
      rw [hjobs]
      refine ⟨?_, ?_, ?_⟩
      · cases hc : c.runnable job with
        | true => rw [(hrun hc).2, List.filter_cons_of_pos hc, hran, List.replicate_one]; rfl
        | false =>
            rw [hrefuse hc, List.filter_cons_of_neg (by rw [hc]; exact Bool.false_ne_true), hran]
            rfl
      · intro job' hmem hc
        rcases List.mem_cons.mp hmem with rfl | hmem
        · rw [hkept job'.id hnodup.1]
          exact (hrun hc).1
        · exact hleft job' hmem hc
      · intro id hid
        rw [List.map_cons, List.mem_cons, not_or] at hid
        rw [hkept id hid.2, hother id hid.1]

/-- A queue can be drained. -/
theorem exists_drains (c : Controller S) (n : Nat) (w : Shared) (hn : w.queue.jobs.length = n)
    (hw : w.Fresh) : ∃ ran w', Drains c w ran w' := by
  induction n generalizing w with
  | zero => exact ⟨[], w, Drains.done w (List.length_eq_zero_iff.mp hn)⟩
  | succ n ih =>
      cases hq : w.queue.dequeue? with
      | none =>
          rw [Memory.dequeue?] at hq
          split at hq
          · next hnil =>
              rw [hnil] at hn
              cases hn
          · cases hq
      | some taken =>
          rcases taken with ⟨job, q⟩
          rcases exists_run Reliable reliable_total (c.runJob job) { w with queue := q } with
            ⟨tr, r, w₁, hr, hs⟩
          rcases fresh_next c w w₁ job q tr r hw hq hr hs with ⟨hfresh, hjobs, _⟩
          rw [hjobs, List.length_cons, Nat.add_right_cancel_iff] at hn
          rcases ih w₁ hn hfresh with ⟨ran, w', hrest⟩
          exact ⟨_, w', Drains.next w job q tr r w₁ w' ran hq hr hs hrest⟩

/-! ### A start -/

/-- What listing the queued rows in the order they were queued can answer. Rows
    queued at the same time come in any order. -/
def Listing (s : Store) (jobs : List Job) : Prop :=
  jobs.Perm (s.jobsIn .queued) ∧ jobs.Pairwise (fun a b => a.queuedAt ≤ b.queuedAt)

/-- The calls of a recovery that lists `jobs`. -/
def recoveryTrace (failed : Nat) (jobs : List Job) (rest : Trace (Op S) Ans) :
    Trace (Op S) Ans :=
  ⟨.store .caller .failOrphanedJobs, .ok failed⟩ ::
    ⟨.store .caller (.listJobsByStatus .queued), .ok jobs⟩ :: rest

/-- A start over a store: the recovery lists `jobs`, and the consumer drains
    the queue. -/
def Recovery (c : Controller S) (s : Store) (jobs ran : List Job) (w' : Shared) : Prop :=
  ∃ failed rest w, Runs Cli.startup (recoveryTrace (S := S) failed jobs rest) (.ok ()) ∧
    Steps Reliable ⟨s, Memory.new queueCapacity⟩ (recoveryTrace (S := S) failed jobs rest) w ∧
    Drains c w ran w'

/-- Every job that was queued and that can be run was run once, in the order
    they were queued, and none of them is still queued. -/
def Recovered (c : Controller S) (s : Store) (ran : List Job) (w' : Shared) : Prop :=
  (∀ job ∈ s.jobs.rows, job.status = .queued → c.runnable job = true →
    w'.store.status job.id ≠ some .queued) ∧
  ran.Perm ((s.jobsIn .queued).filter c.runnable) ∧
  ran.Pairwise (fun a b => a.queuedAt ≤ b.queuedAt)

/-- Failing the rows in progress leaves the queued rows. -/
theorem jobsIn_failOrphaned (s : Store) : s.failOrphaned.jobsIn .queued = s.jobsIn .queued := by
  have hmove : ∀ rows : List Job,
      (rows.map (Store.moveJob (fun job => job.status = .inProgress) .failed)).filter
        (fun job => job.status = .queued) = rows.filter (fun job => job.status = .queued) := by
    intro rows
    induction rows with
    | nil => rfl
    | cons job rows ih =>
        cases hst : job.status with
        | inProgress =>
            have hmoved : (Store.moveJob (fun job => job.status = .inProgress) .failed job).status =
                .failed := by
              simp only [Store.moveJob, hst, decide_true, if_true]
            rw [List.map_cons, List.filter_cons_of_neg (by rw [hmoved]; decide),
              List.filter_cons_of_neg (by rw [hst]; decide), ih]
        | _ =>
            have hkept : Store.moveJob (fun job => job.status = .inProgress) .failed job = job := by
              simp only [Store.moveJob, hst, reduceCtorEq, decide_false, Bool.false_eq_true,
                if_false]
            rw [List.map_cons, hkept, List.filter_cons, List.filter_cons, ih]
  exact hmove s.jobs.rows

/-- What a start has done when the consumer begins: it keeps the first rows of
    its listing. -/
theorem startup_took (s : Store) (failed : Nat) (jobs : List Job) (rest : Trace (Op S) Ans)
    (w : Shared) (hr : Runs Cli.startup (recoveryTrace failed jobs rest) (.ok ()))
    (hs : Steps Reliable ⟨s, Memory.new queueCapacity⟩ (recoveryTrace failed jobs rest) w) :
    Listing s jobs ∧ w.store = s.failOrphaned ∧ w.queue.jobs = jobs.take queueCapacity := by
  cases hs with
  | cons _ w₁ _ _ _ _ hfail hs =>
      cases hs with
      | cons _ w₂ _ _ _ _ hlist hs =>
          rcases hfail.1 with ⟨⟨hstore₁, _⟩, hqueue₁⟩
          rcases hlist.1 with ⟨⟨hstore₂, hperm, hsorted⟩, hqueue₂⟩
          -- What is left of the recovery is the loop.
          rcases (runs_call_iff _ _ _ _).mp hr with ⟨_, _, heq, hr⟩
          cases heq
          rcases (runs_call_iff _ _ _ _).mp hr with ⟨_, _, heq, hr⟩
          cases heq
          rcases (runs_bind_iff _ _ _ _).mp hr with ⟨tr₁, tr₂, r, rfl, hr₁, hr₂⟩
          rcases (runs_bind_iff (forEach jobs _) _ _ _).mp hr₁ with
            ⟨tr₃, tr₄, _, rfl, hloop, hdone⟩
          rcases (runs_ret_iff _ _ _).mp hdone with ⟨rfl, rfl⟩
          rcases (runs_ret_iff _ _ _).mp hr₂ with ⟨rfl, _⟩
          rw [List.append_nil, List.append_nil] at hs
          rcases enqueueAll_take jobs tr₃ w₂ w hloop hs with ⟨hstore, _, hjobs⟩
          rw [hstore₁, jobsIn_failOrphaned] at hperm
          refine ⟨⟨hperm, hsorted⟩, hstore.trans (hstore₂.trans hstore₁), ?_⟩
          rw [hjobs, hqueue₂, hqueue₁]
          rfl

/-- A start can list anything a listing can answer. -/
theorem exists_startup (s : Store) (jobs : List Job) (h : Listing s jobs) :
    ∃ failed rest w, Runs Cli.startup (recoveryTrace (S := S) failed jobs rest) (.ok ()) ∧
      Steps Reliable ⟨s, Memory.new queueCapacity⟩ (recoveryTrace (S := S) failed jobs rest) w := by
  let w₁ : Shared := ⟨s.failOrphaned, Memory.new queueCapacity⟩
  rcases exists_run Reliable reliable_total (forEach jobs (fun job => do
    let _ ← call (.enqueue job)
    return ())) w₁ with ⟨rest, _, w, hr, hs⟩
  refine ⟨(s.jobsIn .inProgress).length, rest, w, ?_, ?_⟩
  · refine Runs.call _ _ _ _ _ (Runs.call _ _ _ _ _ ?_)
    refine (runs_bind_iff _ _ _ _).mpr ⟨rest, [], .ok (), (List.append_nil _).symm, ?_, Runs.ret _⟩
    exact (runs_bind_iff (forEach jobs _) _ _ _).mpr
      ⟨rest, [], (), (List.append_nil _).symm, hr, Runs.ret _⟩
  · refine Steps.cons _ w₁ _ _ _ _ ⟨⟨⟨rfl, rfl⟩, rfl⟩, trivial⟩ ?_
    refine Steps.cons _ w₁ _ _ _ _ ⟨⟨⟨rfl, ?_, h.2⟩, rfl⟩, trivial⟩ hs
    rw [jobsIn_failOrphaned]
    exact h.1

/-- The queued rows of a listing are queued after the rows in progress were
    failed. -/
theorem fresh_of_listing (s : Store) (jobs : List Job) (h : Listing s jobs) (w : Shared)
    (hstore : w.store = s.failOrphaned) (hjobs : w.queue.jobs = jobs.take queueCapacity) :
    w.Fresh := by
  have hlist := listed_rows s.failOrphaned s.failOrphaned .queued jobs
    ⟨rfl, by rw [jobsIn_failOrphaned]; exact h.1, h.2⟩
  rw [Shared.Fresh, hjobs, hstore]
  refine ⟨hlist.2.1.sublist ((List.take_sublist _ _).map Job.id), fun job hmem => ?_⟩
  exact hlist.2.2 job (List.mem_of_mem_take hmem)

/-- What a start runs: the runnable jobs among the first rows of its listing. -/
theorem recovery_ran (c : Controller S) (s : Store) (jobs ran : List Job) (w' : Shared)
    (h : Recovery c s jobs ran w') :
    Listing s jobs ∧ ran = (jobs.take queueCapacity).filter c.runnable ∧
      ∀ job ∈ jobs.take queueCapacity, c.runnable job = true →
        w'.store.status job.id ≠ some .queued := by
  rcases h with ⟨failed, rest, w, hr, hs, hdrain⟩
  rcases startup_took s failed jobs rest w hr hs with ⟨hlist, hstore, hjobs⟩
  rcases drains_ran c w w' ran hdrain (fresh_of_listing s jobs hlist w hstore hjobs) with
    ⟨hran, hleft, _⟩
  rw [hjobs] at hran hleft
  exact ⟨hlist, hran, hleft⟩

/-- Every listing has a recovery. -/
theorem exists_recovery (c : Controller S) (s : Store) (jobs : List Job) (h : Listing s jobs) :
    ∃ ran w', Recovery c s jobs ran w' := by
  rcases exists_startup (S := S) s jobs h with ⟨failed, rest, w, hr, hs⟩
  rcases startup_took s failed jobs rest w hr hs with ⟨hlist, hstore, hjobs⟩
  rcases exists_drains c _ w rfl (fresh_of_listing s jobs hlist w hstore hjobs) with
    ⟨ran, w', hdrain⟩
  exact ⟨ran, w', failed, rest, w, hr, hs, hdrain⟩

/-- A recovery reaches every runnable job exactly when its listing has none
    after the rows the queue has room for. -/
theorem recovered_of_listing (c : Controller S) (s : Store) (jobs ran : List Job) (w' : Shared)
    (h : Recovery c s jobs ran w') :
    Recovered c s ran w' ↔ ∀ job ∈ jobs, c.runnable job = true → job ∈ jobs.take queueCapacity := by
  rcases recovery_ran c s jobs ran w' h with ⟨⟨hperm, hsorted⟩, hran, hleft⟩
  have hmem : ∀ job, job ∈ jobs ↔ job ∈ s.jobsIn .queued := fun job => hperm.mem_iff
  constructor
  · rintro ⟨_, hperm', _⟩ job hjob hrun
    have hjob' : job ∈ ran := hperm'.mem_iff.mpr (List.mem_filter.mpr ⟨(hmem job).mp hjob, hrun⟩)
    rw [hran] at hjob'
    exact (List.mem_filter.mp hjob').1
  · intro hfirst
    -- Beyond the capacity there is nothing that would run, so nothing was lost.
    have hall : (jobs.take queueCapacity).filter c.runnable = jobs.filter c.runnable := by
      have hnodup : jobs.Nodup := by
        rw [hperm.nodup_iff]
        exact (List.Nodup.of_map _ s.jobs.nodup).filter _
      conv_rhs => rw [← List.take_append_drop queueCapacity jobs, List.filter_append]
      have hnone : (jobs.drop queueCapacity).filter c.runnable = [] := by
        rw [List.filter_eq_nil_iff]
        intro job hjob hrun
        have := List.disjoint_take_drop hnodup (Nat.le_refl queueCapacity)
        exact this (hfirst job (List.mem_of_mem_drop hjob) hrun) hjob
      rw [hnone, List.append_nil]
    rw [hall] at hran
    refine ⟨?_, ?_, ?_⟩
    · intro job hjob hst hrun
      have hlisted : job ∈ jobs := (hmem job).mpr
        (List.mem_filter.mpr ⟨hjob, decide_eq_true hst⟩)
      exact hleft job (hfirst job hlisted hrun) hrun
    · rw [hran]
      exact hperm.filter _
    · rw [hran]
      exact hsorted.sublist List.filter_sublist

/-- When a start reaches every runnable job: whichever way the rows queued at
    the same time are listed, no runnable job comes after the first
    `queueCapacity`. -/
theorem recovered_iff (c : Controller S) (s : Store) :
    (∀ jobs ran w', Recovery c s jobs ran w' → Recovered c s ran w') ↔
      ∀ jobs, Listing s jobs → ∀ job ∈ jobs, c.runnable job = true →
        job ∈ jobs.take queueCapacity := by
  constructor
  · intro hall jobs hlist
    rcases exists_recovery c s jobs hlist with ⟨ran, w', h⟩
    exact (recovered_of_listing c s jobs ran w' h).mp (hall jobs ran w' h)
  · intro hfirst jobs ran w' h
    exact (recovered_of_listing c s jobs ran w' h).mpr
      (hfirst jobs (recovery_ran c s jobs ran w' h).1)

/-! ### One row too many -/

/-- The `n`-th of a series of jobs for one host. -/
def nthJob (n : Nat) : Job := newJob "web" "files" ⟨1, 0, 0, 0⟩ n n

theorem nthJob_id_inj (m n : Nat) (h : (nthJob m).id = (nthJob n).id) : m = n := by
  have hdigits : itoaNat m = itoaNat n := List.append_cancel_left h
  rw [← Json.parseDigits_itoaNat m, hdigits, Json.parseDigits_itoaNat]

/-- A store with one more queued job than the queue has room for. -/
def crowded : Store :=
  { Store.empty with
    jobs := ⟨(List.range (queueCapacity + 1)).map nthJob, by
      rw [List.map_map]
      exact List.Nodup.map (fun m n h => nthJob_id_inj m n h) List.nodup_range⟩ }

/-- All of them are queued, and they are stored in the order they were
    queued. -/
theorem crowded_listing : Listing crowded ((List.range (queueCapacity + 1)).map nthJob) := by
  constructor
  · have hall : crowded.jobsIn .queued = crowded.jobs.rows := by
      refine List.filter_eq_self.mpr fun job hmem => ?_
      rcases List.mem_map.mp hmem with ⟨n, _, rfl⟩
      rfl
    rw [hall]
    exact List.Perm.refl _
  · rw [List.pairwise_map]
    refine List.pairwise_lt_range.imp ?_
    intro m n hlt
    exact Int.ofNat_le.mpr (Nat.le_of_lt hlt)

/-- A start does not reach the job the queue has no room for. -/
theorem crowded_not_recovered : ¬ ∀ jobs ran w',
    Recovery filesController crowded jobs ran w' → Recovered filesController crowded ran w' := by
  intro hall
  rcases exists_recovery filesController crowded _ crowded_listing with ⟨ran, w', h⟩
  have hfirst := (recovered_of_listing filesController crowded _ ran w' h).mp (hall _ ran w' h)
  have hlast := hfirst (nthJob queueCapacity)
    (List.mem_map_of_mem (List.mem_range.mpr (Nat.lt_succ_self _))) (by decide)
  rw [← List.map_take, List.take_range, Nat.min_eq_left (Nat.le_succ _)] at hlast
  rcases List.mem_map.mp hlast with ⟨n, hn, heq⟩
  have := nthJob_id_inj n queueCapacity (congrArg Job.id heq)
  rw [List.mem_range, this] at hn
  exact Nat.lt_irrefl _ hn

end Bop
