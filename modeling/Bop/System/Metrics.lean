import Bop.Effect.Interp
import Bop.Metrics
import Bop.System.Emission
import Bop.System.Producers

/-!
# Metrics of a Controller Process

The metrics are one of the subscribers behind `events.Multi`. The others may
panic as they like. Every schedule and every request is a thread beside the
consumer, which runs one job after the other, and between any two steps the
metrics can be scraped.

The consumer announces the start of a job and then, whatever happens to the
job, its end. So the metrics track the jobs, as long as the names of every job
that ends are accepted as label values. Where they are not, the end of the job
panics in the middle of `Publish`: it is not counted, and the start of the job
is remembered for as long as the process lives.

## Main definitions

* `delivered`: A monitor that watches what one subscriber is given.
* `roundMonitor`: The consumer with one job, and whether that is running.
* `Meter`, `MeterSem`: The metrics, and what an operation does to them.
* `Metered`, `Metered.Step`: A process with metrics, and its steps.
* `Metered.Kept`: The invariant.
* `Metered.Tracks`: The metrics track the jobs.

## Theorems

* `obeys_emitting`: A subscriber behind `events.Multi` is given what is published.
* `runJob_rounds`: A job that was started ends.
* `Metered.kept_step`, `Metered.kept_run`: Steps and runs keep the invariant.
* `metrics_track_iff`: When the metrics track the jobs.
-/

namespace Bop

open Prog Relation

variable {S D Digest Q : Type}

/-! ### What one subscriber is given -/

/-- The monitor, watching what one subscriber is given instead of what is
    published. -/
def delivered (sub : Nat) (m : Monitor (Op S) Ans Q) : Monitor (EmitOp S) EmitAns Q
  | q, .process (.publish _ _), _ => some q
  | q, .process o, x => m q o x
  | q, .deliver i ctx e, _ => if i = sub then m q (.publish ctx e) () else some q

section Delivered

variable (sub : Nat) (m : Monitor (Op S) Ans Q)

/-- Another subscriber is nothing to the monitor. -/
theorem obeys_publishOne_aside (ctx : Ctx) (e : Event) (i : Nat) (hi : i ≠ sub) (q : Q) :
    Obeys (delivered sub m) q (Multi.publishOne ctx e i) (fun r q' => r = some () ∧ q' = q) := by
  refine obeys_recovering _ _ q (fun q' => q' = q) fun panicked => ⟨q, if_neg hi, ?_⟩
  cases panicked <;> rfl

/-- The subscriber moves it as the publication does, whether it panics or not. -/
theorem obeys_publishOne (ctx : Ctx) (e : Event) (q q₁ : Q)
    (hm : m q (.publish ctx e) () = some q₁) :
    Obeys (delivered sub m) q (Multi.publishOne ctx e sub)
      (fun r q' => r = some () ∧ q' = q₁) := by
  refine obeys_recovering _ _ q (fun q' => q' = q₁) fun panicked => ⟨q₁, ?_, ?_⟩
  · simp only [delivered, if_true, hm]
  · cases panicked <;> rfl

/-- Neither are several others. -/
theorem obeys_multi_aside (ctx : Ctx) (e : Event) (subs : List Nat) (h : sub ∉ subs) (q : Q) :
    Obeys (delivered sub m) q (Multi.publish ctx e subs) (fun r q' => r = some () ∧ q' = q) := by
  induction subs with
  | nil => exact ⟨rfl, rfl⟩
  | cons i rest ih =>
      have hi : i ≠ sub := fun heq => h (heq ▸ List.mem_cons_self)
      refine obeys_unlessPanic _ _ _ q (fun _ q' => q' = q) _ ?_ ?_
      · refine obeys_mono _ _ _ _ _ (obeys_publishOne_aside sub m ctx e i hi q) ?_
        rintro r q' ⟨rfl, hq'⟩
        exact ⟨(), rfl, hq'⟩
      · rintro _ _ rfl
        exact ih fun hmem => h (List.mem_cons_of_mem i hmem)

/-- Behind `events.Multi` the subscriber is given every event once. -/
theorem obeys_multi (ctx : Ctx) (e : Event) (subs : List Nat) (hnodup : subs.Nodup)
    (hsub : sub ∈ subs) (q q₁ : Q) (hm : m q (.publish ctx e) () = some q₁) :
    Obeys (delivered sub m) q (Multi.publish ctx e subs)
      (fun r q' => r = some () ∧ q' = q₁) := by
  induction subs with
  | nil => exact absurd hsub List.not_mem_nil
  | cons i rest ih =>
      rcases List.nodup_cons.mp hnodup with ⟨hfresh, hrest⟩
      by_cases hi : i = sub
      · -- The event is given to it here, and it is not among the rest.
        subst hi
        refine obeys_unlessPanic _ _ _ q (fun _ q' => q' = q₁) _ ?_ ?_
        · refine obeys_mono _ _ _ _ _ (obeys_publishOne i m ctx e q q₁ hm) ?_
          rintro r q' ⟨rfl, hq'⟩
          exact ⟨(), rfl, hq'⟩
        · rintro _ _ rfl
          exact obeys_multi_aside i m ctx e rest hfresh _
      · refine obeys_unlessPanic _ _ _ q (fun _ q' => q' = q) _ ?_ ?_
        · refine obeys_mono _ _ _ _ _ (obeys_publishOne_aside sub m ctx e i hi q) ?_
          rintro r q' ⟨rfl, hq'⟩
          exact ⟨(), rfl, hq'⟩
        · rintro _ _ rfl
          exact ih hrest ((List.mem_cons.mp hsub).resolve_left fun h => hi h.symm)

/-- A program that publishes to `events.Multi` gives the subscriber what it
    publishes, whether or not it recovers what leaves a publication. -/
theorem obeys_emitting {α : Type} (n : Nat) (hsub : sub < n)
    (publish : Ctx → Event → EmitProc S (Option Unit))
    (hpub : (∀ ctx e, publish ctx e = (Publisher.multi n).publish ctx e) ∨
      ∀ ctx e, publish ctx e = recovering ((Publisher.multi n).publish ctx e))
    (p : Proc S α) (q : Q) (post : α → Q → Prop) (h : Obeys m q p post) :
    Obeys (delivered sub m) q (panicking (emitting publish) p)
      (fun r q' => ∃ a, r = some a ∧ post a q') := by
  refine obeys_panicking m _ _ (fun o q hallowed => ?_) p q post h
  cases o with
  | publish ctx e =>
      rcases hallowed () with ⟨q₁, hq₁⟩
      have hmulti := obeys_multi sub m ctx e (List.range n) List.nodup_range
        (List.mem_range.mpr hsub) q q₁ hq₁
      have hpublished : Obeys (delivered sub m) q (publish ctx e)
          (fun r q' => r = some () ∧ q' = q₁) := by
        rcases hpub with hpub | hpub
        · rw [hpub]
          exact hmulti
        · rw [hpub]
          exact obeys_recovering _ _ q _ (obeys_mono _ _ _ _ _ hmulti fun _ _ h => h.2)
      refine fun _ => ⟨q, rfl, obeys_mono _ _ _ _ _ hpublished ?_⟩
      rintro r q' ⟨rfl, rfl⟩
      exact ⟨(), rfl, hq₁⟩
  | _ =>
      intro x
      rcases hallowed x with ⟨q', hq'⟩
      exact ⟨q', hq', x, rfl, hq'⟩

end Delivered

/-! ### The consumer -/

/-- The consumer with one job: whether it is running. Only a job that is running
    ends. -/
def roundMonitor (job : Job) : Monitor (Op S) Ans Bool
  | running, .publish _ e, _ =>
      if e.jobID = job.id ∧ e.host = job.host ∧ e.plugin = job.plugin then
        if e.type = .backupStarted then some true
        else if e.type.outcome = none then some running
        else if running then some false else none
      else none
  | running, _, _ => some running

/-- A pipeline leaves its job running. -/
theorem round_calls (job : Job) (sp : S) :
    JobCalls (fun o => ∀ x, roundMonitor job true o x = some true) job sp where
  now := fun _ => rfl
  publish := by
    intro ctx type resource fields timestamp htype x
    simp only [roundMonitor, and_self, if_true, htype]
    split
    · rfl
    · rfl
  factory := fun _ _ => rfl
  discover := fun _ _ _ => rfl
  backup := fun _ _ _ _ => rfl
  verify := fun _ _ _ _ => rfl
  restore := fun _ _ _ _ => rfl
  checksumFile := fun _ _ => rfl
  removeFile := fun _ _ => rfl
  storeArtifact := fun _ _ _ => rfl
  verifySnapshot := fun _ _ _ => rfl
  recordSnapshot := fun _ _ _ => rfl
  applyRetention := fun _ _ => rfl

namespace Controller

/-- Announcing how a job ended ends it. -/
theorem round_completionEvent (ctx : Ctx) (job : Job) (r : Except Bytes Unit) (t : Time) :
    roundMonitor job true (Op.publish ctx { completionEvent job r with timestamp := t } : Op S)
      () = some false := by
  cases r with
  | ok u => simp [roundMonitor, completionEvent, jobEvent, EventType.outcome]
  | error err => simp [roundMonitor, completionEvent, jobEvent, EventType.outcome]

/-- A job that was started ends, on every way through `RunJob`. -/
theorem runJob_rounds (c : Controller S) (job : Job) :
    Obeys (roundMonitor job) false (runJob c job) (fun _ q => q = false) := by
  unfold runJob
  split
  · rfl
  · next srv hsrv =>
      split
      · rfl
      · split
        · rfl
        · next sp hsp =>
            intro x
            refine ⟨false, rfl, ?_⟩
            cases x with
            | error err => rfl
            | ok u =>
                -- The start is announced.
                refine fun _ => ⟨false, rfl, fun _ => ⟨true, ?_, ?_⟩⟩
                · simp only [roundMonitor, jobEvent, and_self, if_true]
                change Obeys (roundMonitor job) true
                  (runPipeline c c.pipelineCtx job srv sp >>= _) _
                rcases runPipeline_begins (round_calls job sp) c c.pipelineCtx srv with
                  ⟨k, hk, hcalls⟩
                rw [hk]
                refine obeys_bind _ _ _ _ _ _ (obeys_of_calls _
                  (fun o => ∀ x, roundMonitor job true o x = some true) true (fun o h => h) _
                  ⟨fun _ => rfl, hcalls⟩) ?_
                -- Whatever the pipeline returned, the end is announced.
                rintro r q rfl
                refine fun t => ⟨true, rfl, fun _ => ⟨false, ?_, fun _ => ⟨false, rfl, rfl⟩⟩⟩
                exact round_completionEvent .record job r t

end Controller

/-! ### The producers -/

/-- A program that announces nothing but requests. -/
def requestMonitor : Monitor (Op S) Ans Unit
  | _, .publish _ e, _ => if e.type = .backupRequested then some () else none
  | _, _, _ => some ()

theorem request_calls : ProducerCalls (fun o : Op S => ∀ x, requestMonitor () o x = some ()) where
  reads := by
    intro o h x
    cases o with
    | publish ctx e => cases h
    | _ => rfl
  createJob := fun _ _ _ => rfl
  setPluginSettings := fun _ _ _ _ _ => rfl
  publish := fun _ _ he _ => if_pos he
  enqueue := fun _ _ => rfl

/-- What runs beside the consumer, with its publisher. The scheduler recovers
    what leaves a publication, and the handlers do not. -/
inductive EmittingProducer [DecidableEq Digest] (api : Api.Server S D Digest) (pub : Publisher) :
    EmitProc S (Option Unit) → Prop
  | dispatch (host : Bytes) (srv : Server) (order : List Bytes) :
      EmittingProducer api pub
        (panicking (Scheduler.emitting pub) (Scheduler.dispatch host srv order))
  | serve (req : Api.Request) :
      EmittingProducer api pub
        (panicking (Api.emitting pub) (do
          let _ ← api.serve req
          return ()))

variable [DecidableEq Digest]

/-- The metrics are given nothing but requests by it. -/
theorem emittingProducer_requests (api : Api.Server S D Digest) (n sub : Nat) (hsub : sub < n)
    (p : EmitProc S (Option Unit)) (hp : EmittingProducer api (.multi n) p) :
    Obeys (delivered sub requestMonitor) () p (fun _ _ => True) := by
  have hrequests : ∀ p : Proc S Unit, Producer api p →
      Obeys requestMonitor () p (fun _ _ => True) := fun p hp =>
    obeys_mono _ _ _ _ _ (obeys_of_calls _ _ () (fun _ h => h) p
      (calls_producer request_calls api p hp)) fun _ _ _ => trivial
  cases hp with
  | dispatch host srv order =>
      exact obeys_mono _ _ _ _ _ (obeys_emitting sub _ n hsub _ (Or.inr fun _ _ => rfl) _ () _
        (hrequests _ (Producer.dispatch host srv order))) fun _ _ _ => trivial
  | serve req =>
      exact obeys_mono _ _ _ _ _ (obeys_emitting sub _ n hsub _ (Or.inl fun _ _ => rfl) _ () _
        (hrequests _ (Producer.serve req))) fun _ _ _ => trivial

/-! ### A process with metrics -/

/-- The metrics, and all the events they were given. -/
structure Meter where
  metrics : Metrics.Publisher
  received : List Event

/-- Nothing was given to the metrics yet. -/
def Meter.new : Meter := ⟨Metrics.new, []⟩

/-- One event is given to the metrics. -/
def Meter.given (accepts : Bytes → Bool) (w : Meter) (e : Event) : Bool × Meter :=
  let r := w.metrics.given accepts e
  (r.1, ⟨r.2, w.received ++ [e]⟩)

/-- What an operation may answer, and what it does to the metrics. They are the
    subscriber `sub`, and the others panic or do not. -/
def MeterSem (accepts : Bytes → Bool) (sub : Nat) (w : Meter) :
    (o : EmitOp S) → EmitAns o → Meter → Prop
  | .process _, _, w' => w' = w
  | .deliver i _ e, panicked, w' =>
      if i = sub then (panicked, w') = w.given accepts e else w' = w

/-- A controller process with metrics. -/
structure Metered (S : Type) where
  meter : Meter
  /-- What is left of each schedule that fired and each request served. -/
  producers : List (EmitProc S (Option Unit))
  /-- The job being run and what is left of `RunJob`. -/
  consumer : Option (Job × EmitProc S (Option (Except Bytes Unit)))
  /-- The jobs the consumer took. -/
  taken : List Job

/-- The process starts. -/
def Metered.initial : Metered S := ⟨Meter.new, [], none, []⟩

/-- One step of a process whose metrics are the subscriber `sub` of `n`. -/
inductive Metered.Step (accepts : Bytes → Bool) (n sub : Nat) (c : Controller S)
    (api : Api.Server S D Digest) : Metered S → Metered S → Prop
  /-- A schedule fires or a request arrives. -/
  | produce (s : Metered S) (p : EmitProc S (Option Unit))
      (hp : EmittingProducer api (.multi n) p) :
      Step accepts n sub c api s { s with producers := p :: s.producers }
  /-- A producer makes a step. -/
  | producerCall (s : Metered S) (before after : List (EmitProc S (Option Unit))) (o : EmitOp S)
      (k : EmitAns o → EmitProc S (Option Unit)) (x : EmitAns o) (w : Meter)
      (hproducers : s.producers = before ++ .call o k :: after)
      (hw : MeterSem accepts sub s.meter o x w) :
      Step accepts n sub c api s { s with meter := w, producers := before ++ k x :: after }
  /-- The consumer takes a job. -/
  | dequeue (s : Metered S) (job : Job) (hidle : s.consumer = none) :
      Step accepts n sub c api s { s with
        consumer := some (job, panicking (Controller.emitting (.multi n)) (c.runJob job))
        taken := s.taken ++ [job] }
  /-- The consumer makes a step. -/
  | consumerCall (s : Metered S) (job : Job) (o : EmitOp S)
      (k : EmitAns o → EmitProc S (Option (Except Bytes Unit))) (x : EmitAns o) (w : Meter)
      (hconsumer : s.consumer = some (job, .call o k))
      (hw : MeterSem accepts sub s.meter o x w) :
      Step accepts n sub c api s { s with meter := w, consumer := some (job, k x) }
  /-- The consumer is done with its job. -/
  | consumerDone (s : Metered S) (job : Job) (r : Option (Except Bytes Unit))
      (hconsumer : s.consumer = some (job, .ret r)) :
      Step accepts n sub c api s { s with consumer := none }

/-- The metrics track the jobs. -/
structure Metered.Tracks (s : Metered S) : Prop where
  /-- The starts that are remembered are those of the jobs in flight. -/
  jobStarts : ∀ id, id ∈ s.meter.metrics.jobStarts ↔ Metrics.InFlight s.meter.received id
  /-- None is while no job is run. -/
  idle : s.consumer = none → s.meter.metrics.jobStarts.keys = []
  /-- `bop_jobs_total` counts the jobs that ended. -/
  jobsTotal : ∀ host plugin status, s.meter.metrics.jobsTotal [host, plugin, status] =
    s.meter.received.countP (Metrics.endedAs host plugin status)
  /-- There is one observation for each of them. -/
  observed : s.meter.metrics.jobDuration.length = s.meter.received.countP Metrics.ended
  /-- It is made under its names. -/
  observedAs : ∀ host plugin,
    s.meter.metrics.jobDuration.countP (fun o => o.1 = [host, plugin]) =
      s.meter.received.countP (fun e => Metrics.ended e && e.host = host && e.plugin = plugin)

/-! ### The invariant -/

/-- The invariant. -/
structure Metered.Kept (accepts : Bytes → Bool) (sub : Nat) (s : Metered S) : Prop where
  shown : s.meter.metrics = Metrics.shown accepts s.meter.received
  paired : Metrics.Paired s.meter.received
  /-- The events that end jobs carry the names of jobs that were taken. -/
  named : ∀ e ∈ s.meter.received, Metrics.ended e = true →
    ∃ job ∈ s.taken, e.host = job.host ∧ e.plugin = job.plugin
  producers : ∀ p ∈ s.producers, Obeys (delivered sub requestMonitor) () p (fun _ _ => True)
  idle : s.consumer = none → ∀ id, ¬ Metrics.InFlight s.meter.received id
  /-- The consumer still has to end the job it runs, and no other is running. -/
  consumer : ∀ job p, s.consumer = some (job, p) → job ∈ s.taken ∧ ∃ running,
    Obeys (delivered sub (roundMonitor job)) running p (fun _ q => q = false) ∧
      ∀ id, Metrics.InFlight s.meter.received id ↔ running = true ∧ id = job.id

section Calls

variable (accepts : Bytes → Bool) (sub : Nat)

/-- What a call of the consumer does: nothing to the metrics and to the job, or
    the metrics are given an event of the job. -/
theorem round_cases (job : Job) (running running' : Bool) (w w' : Meter) (o : EmitOp S)
    (x : EmitAns o) (hw : MeterSem accepts sub w o x w')
    (hm : delivered sub (roundMonitor job) running o x = some running') :
    (w' = w ∧ running' = running) ∨ ∃ e, w' = (w.given accepts e).2 ∧
      (e.jobID = job.id ∧ e.host = job.host ∧ e.plugin = job.plugin) ∧
      ((e.type = .backupStarted ∧ running' = true) ∨
        (e.type ≠ .backupStarted ∧ e.type.outcome = none ∧ running' = running) ∨
        (e.type.outcome ≠ none ∧ running = true ∧ running' = false)) := by
  cases o with
  | process o =>
      left
      refine ⟨hw, ?_⟩
      cases o with
      | _ => exact (Option.some.inj hm).symm
  | deliver i ctx e =>
      by_cases hi : i = sub
      · right
        simp only [MeterSem, hi, if_true] at hw
        simp only [delivered, hi, if_true, roundMonitor] at hm
        refine ⟨e, congrArg Prod.snd hw, ?_⟩
        split at hm
        · next hjob =>
            refine ⟨hjob, ?_⟩
            split at hm
            · next hstart => exact Or.inl ⟨hstart, (Option.some.inj hm).symm⟩
            · next hstart =>
                split at hm
                · next hnone => exact Or.inr (Or.inl ⟨hstart, hnone, (Option.some.inj hm).symm⟩)
                · next hend =>
                    split at hm
                    · next hrunning =>
                        exact Or.inr (Or.inr ⟨hend, hrunning, (Option.some.inj hm).symm⟩)
                    · cases hm
        · cases hm
      · left
        simp only [MeterSem, hi, if_false] at hw
        simp only [delivered, hi, if_false, Option.some.injEq] at hm
        exact ⟨hw, hm.symm⟩

/-- What a call of a producer does: nothing to the metrics, or they are given a
    request. -/
theorem request_cases (u : Unit) (w w' : Meter) (o : EmitOp S) (x : EmitAns o)
    (hw : MeterSem accepts sub w o x w') (hm : delivered sub requestMonitor () o x = some u) :
    w' = w ∨ ∃ e, w' = (w.given accepts e).2 ∧ e.type = .backupRequested := by
  cases o with
  | process o => exact Or.inl hw
  | deliver i ctx e =>
      by_cases hi : i = sub
      · right
        simp only [MeterSem, hi, if_true] at hw
        simp only [delivered, hi, if_true, requestMonitor] at hm
        split at hm
        · next htype => exact ⟨e, congrArg Prod.snd hw, htype⟩
        · cases hm
      · left
        simp only [MeterSem, hi, if_false] at hw
        exact hw

end Calls

section Steps

variable {accepts : Bytes → Bool} {n sub : Nat} {c : Controller S} {api : Api.Server S D Digest}

/-- What stays true of the metrics when they are given an event. -/
theorem Metered.kept_given (s : Metered S) (h : s.Kept accepts sub) (e : Event)
    (hrunning : Metrics.ended e = true → Metrics.InFlight s.meter.received e.jobID)
    (hnamed : Metrics.ended e = true → ∃ job ∈ s.taken, e.host = job.host ∧ e.plugin = job.plugin) :
    (s.meter.given accepts e).2.metrics = Metrics.shown accepts (s.meter.received ++ [e]) ∧
      Metrics.Paired (s.meter.received ++ [e]) ∧
      ∀ e' ∈ s.meter.received ++ [e], Metrics.ended e' = true →
        ∃ job ∈ s.taken, e'.host = job.host ∧ e'.plugin = job.plugin := by
  refine ⟨?_, Metrics.paired_append _ e h.paired hrunning, ?_⟩
  · rw [Metrics.shown_append, ← h.shown]
    rfl
  · intro e' he'
    rcases List.mem_append.mp he' with hold | hnew
    · exact h.named e' hold
    · obtain rfl := List.mem_singleton.mp hnew
      exact hnamed

/-- A request is in flight no more than before. -/
theorem inFlight_request (events : List Event) (e : Event) (htype : e.type = .backupRequested)
    (id : Bytes) : Metrics.InFlight (events ++ [e]) id ↔ Metrics.InFlight events id := by
  rw [Metrics.inFlight_append, htype]
  simp only [reduceCtorEq, false_and, EventType.outcome, implies_true, and_true, false_or]

/-- A producer's call keeps the invariant. -/
theorem Metered.kept_producerCall (s : Metered S) (h : s.Kept accepts sub)
    (before after : List (EmitProc S (Option Unit))) (o : EmitOp S)
    (k : EmitAns o → EmitProc S (Option Unit)) (x : EmitAns o) (w : Meter)
    (hproducers : s.producers = before ++ .call o k :: after)
    (hw : MeterSem accepts sub s.meter o x w) :
    Metered.Kept accepts sub { s with meter := w, producers := before ++ k x :: after } := by
  have hall := h.producers
  rw [hproducers] at hall
  rcases hall _ (List.mem_append_right _ List.mem_cons_self) x with ⟨u, hm, hk⟩
  have hrest : ∀ p ∈ before ++ k x :: after,
      Obeys (delivered sub requestMonitor) () p (fun _ _ => True) := by
    intro p hp
    rcases List.mem_append.mp hp with hbefore | hafter
    · exact hall p (List.mem_append_left _ hbefore)
    · rcases List.mem_cons.mp hafter with rfl | hafter
      · exact hk
      · exact hall p (List.mem_append_right _ (List.mem_cons_of_mem _ hafter))
  rcases request_cases accepts sub u s.meter w o x hw hm with rfl | ⟨e, rfl, htype⟩
  · exact ⟨h.shown, h.paired, h.named, hrest, h.idle, h.consumer⟩
  · have hnot : ¬ Metrics.ended e = true := by
      rw [Metrics.ended, htype]
      exact Bool.false_ne_true
    rcases kept_given s h e (fun hend => absurd hend hnot) (fun hend => absurd hend hnot) with
      ⟨hshown, hpaired, hnamed⟩
    refine ⟨hshown, hpaired, hnamed, hrest, ?_, ?_⟩
    · intro hidle id
      exact (inFlight_request _ e htype id).not.mpr (h.idle hidle id)
    · intro job p hconsumer
      rcases h.consumer job p hconsumer with ⟨htaken, running, hobeys, hflight⟩
      exact ⟨htaken, running, hobeys, fun id =>
        (inFlight_request _ e htype id).trans (hflight id)⟩

/-- A call of the consumer keeps the invariant. -/
theorem Metered.kept_consumerCall (s : Metered S) (h : s.Kept accepts sub) (job : Job)
    (o : EmitOp S) (k : EmitAns o → EmitProc S (Option (Except Bytes Unit))) (x : EmitAns o)
    (w : Meter)
    (hconsumer : s.consumer = some (job, .call o k))
    (hw : MeterSem accepts sub s.meter o x w) :
    Metered.Kept accepts sub { s with meter := w, consumer := some (job, k x) } := by
  rcases h.consumer job _ hconsumer with ⟨htaken, running, hobeys, hflight⟩
  rcases hobeys x with ⟨running', hm, hk⟩
  rcases round_cases accepts sub job running running' s.meter w o x hw hm with
    ⟨rfl, rfl⟩ | ⟨e, rfl, ⟨hid, hhost, hplugin⟩, hcase⟩
  · refine ⟨h.shown, h.paired, h.named, h.producers, fun hidle => (by cases hidle), ?_⟩
    rintro _ _ ⟨⟩
    exact ⟨htaken, _, hk, hflight⟩
  · -- An event that ends the job finds it running.
    have hrunning : Metrics.ended e = true → Metrics.InFlight s.meter.received e.jobID := by
      intro hend
      rcases hcase with ⟨hstart, _⟩ | ⟨_, hnone, _⟩ | ⟨_, htrue, _⟩
      · rw [Metrics.ended, hstart] at hend
        cases hend
      · rw [Metrics.ended, hnone] at hend
        cases hend
      · exact (hflight e.jobID).mpr ⟨htrue, hid⟩
    rcases kept_given s h e hrunning fun _ => ⟨job, htaken, hhost, hplugin⟩ with
      ⟨hshown, hpaired, hnamed⟩
    refine ⟨hshown, hpaired, hnamed, h.producers, fun hidle => (by cases hidle), ?_⟩
    rintro _ _ ⟨⟩
    refine ⟨htaken, running', hk, fun id => ?_⟩
    change Metrics.InFlight (s.meter.received ++ [e]) id ↔ _
    rw [Metrics.inFlight_append, hflight, hid]
    rcases hcase with ⟨hstart, rfl⟩ | ⟨hstart, hnone, rfl⟩ | ⟨hend, rfl, rfl⟩
    · simp only [hstart, EventType.outcome, implies_true, and_true, true_and]
      constructor
      · rintro (rfl | ⟨_, rfl⟩)
        · rfl
        · rfl
      · rintro rfl
        exact Or.inl rfl
    · simp only [hstart, hnone, false_and, implies_true, and_true, false_or]
    · -- The job that ended was the one in flight.
      have hstart : e.type ≠ .backupStarted := fun hstart => hend (by rw [hstart]; rfl)
      simp only [hstart, false_and, hend, imp_false, false_or, true_and, Bool.false_eq_true,
        iff_false, not_and, not_not]
      exact fun heq => heq.symm

/-- A step keeps the invariant. -/
theorem Metered.kept_step (hsub : sub < n) (s s' : Metered S)
    (hs : Metered.Step accepts n sub c api s s') (h : s.Kept accepts sub) :
    s'.Kept accepts sub := by
  cases hs with
  | produce p hp =>
      refine ⟨h.shown, h.paired, h.named, fun q hq => ?_, h.idle, h.consumer⟩
      rcases List.mem_cons.mp hq with rfl | hq
      · exact emittingProducer_requests api n sub hsub q hp
      · exact h.producers q hq
  | producerCall before after o k x w hproducers hw =>
      exact kept_producerCall s h before after o k x w hproducers hw
  | dequeue job hidle =>
      refine ⟨h.shown, h.paired, fun e he hend => ?_, h.producers, fun hno => (by cases hno), ?_⟩
      · rcases h.named e he hend with ⟨job', htaken, hnames⟩
        exact ⟨job', List.mem_append_left _ htaken, hnames⟩
      · rintro _ _ ⟨⟩
        refine ⟨List.mem_append_right _ List.mem_cons_self, false, ?_, fun id => ?_⟩
        · refine obeys_mono _ _ _ _ _ (obeys_emitting sub _ n hsub _ (Or.inr fun _ _ => rfl) _ _ _
            (c.runJob_rounds job)) ?_
          rintro _ _ ⟨_, _, hq⟩
          exact hq
        · exact iff_of_false (h.idle hidle id) fun hno => Bool.false_ne_true hno.1
  | consumerCall job o k x w hconsumer hw =>
      exact kept_consumerCall s h job o k x w hconsumer hw
  | consumerDone job r hconsumer =>
      refine ⟨h.shown, h.paired, h.named, h.producers, fun _ id hflight => ?_, ?_⟩
      · -- What is left of the job is nothing, so the job has ended.
        rcases h.consumer job _ hconsumer with ⟨_, running, hdone, hall⟩
        have hfalse : running = false := hdone
        exact Bool.false_ne_true (hfalse.symm.trans ((hall id).mp hflight).1)
      · rintro _ _ ⟨⟩

/-- Every run keeps the invariant. -/
theorem Metered.kept_run (hsub : sub < n) (s : Metered S)
    (h : ReflTransGen (Metered.Step accepts n sub c api) Metered.initial s) :
    s.Kept accepts sub := by
  induction h with
  | refl =>
      refine ⟨rfl, ?_, fun e he => absurd he List.not_mem_nil,
        fun p hp => absurd hp List.not_mem_nil, fun _ => Metrics.not_inFlight_nil, ?_⟩
      · intro before e after heq
        exact absurd heq.symm (List.append_ne_nil_of_right_ne_nil before (List.cons_ne_nil e after))
      · rintro _ _ ⟨⟩
  | tail _ hs ih => exact kept_step hsub _ _ hs ih

end Steps

/-! ### When the metrics track the jobs -/

section Tracking

variable {accepts : Bytes → Bool} {sub : Nat}

/-- They do where the names of every job that ended are accepted. -/
theorem tracks_of_labelled (hwords : ∀ st : JobStatus, accepts st.text = true) (s : Metered S)
    (h : s.Kept accepts sub)
    (hall : ∀ e ∈ s.meter.received, Metrics.ended e = true → Metrics.Labelled accepts e) :
    s.Tracks := by
  have hstarts : ∀ id, id ∈ s.meter.metrics.jobStarts ↔
      Metrics.InFlight s.meter.received id := by
    intro id
    rw [h.shown]
    exact Metrics.mem_jobStarts_iff accepts hwords _ hall id
  have hobserved : s.meter.metrics.jobDuration.map Prod.fst =
      (s.meter.received.filter Metrics.ended).map (fun e => [e.host, e.plugin]) := by
    rw [h.shown]
    exact Metrics.shown_observed accepts hwords _ hall h.paired
  refine ⟨hstarts, fun hidle => ?_, fun host plugin status => ?_, ?_, fun host plugin => ?_⟩
  · refine List.eq_nil_iff_forall_not_mem.mpr fun id hid => ?_
    exact h.idle hidle id ((hstarts id).mp (AList.mem_keys.mpr hid))
  · rw [h.shown, Metrics.shown_jobsTotal accepts hwords]
    split
    · rfl
    · next hnot =>
        -- Nothing was counted, and nothing that ended has these names.
        refine (List.countP_eq_zero.mpr fun e he hend => hnot ?_).symm
        rcases (Metrics.endedAs_iff host plugin status e).mp hend with ⟨st, hst, hsame⟩
        simp only [List.cons.injEq, and_true] at hsame
        have hlabels := hall e he (by rw [Metrics.ended, hst]; rfl)
        rw [Metrics.Labelled, hsame.1, hsame.2.1] at hlabels
        exact hlabels
  · have hlength := congrArg List.length hobserved
    rw [List.length_map, List.length_map, ← List.countP_eq_length_filter] at hlength
    exact hlength
  · have hcount := congrArg (List.countP (fun labels => labels = [host, plugin])) hobserved
    rw [List.countP_map, List.countP_map, List.countP_filter] at hcount
    refine hcount.trans (List.countP_congr fun e _ => ?_)
    simp only [Function.comp_apply, List.cons.injEq, and_true, Bool.and_eq_true,
      decide_eq_true_eq]
    constructor
    · rintro ⟨⟨hhost, hplugin⟩, hend⟩
      exact ⟨⟨hend, hhost⟩, hplugin⟩
    · rintro ⟨⟨hend, hhost⟩, hplugin⟩
      exact ⟨⟨hhost, hplugin⟩, hend⟩

/-- And only there: a job that ended under other names is not counted. -/
theorem labelled_of_tracks (hwords : ∀ st : JobStatus, accepts st.text = true) (s : Metered S)
    (h : s.Kept accepts sub) (htracks : s.Tracks) (e : Event) (he : e ∈ s.meter.received)
    (hend : Metrics.ended e = true) : Metrics.Labelled accepts e := by
  rcases Option.isSome_iff_exists.mp hend with ⟨st, hst⟩
  by_contra hlabels
  have hrefused : ¬ (accepts e.host = true ∧ accepts e.plugin = true) := hlabels
  have hcounted := htracks.jobsTotal e.host e.plugin st.text
  rw [h.shown, Metrics.shown_jobsTotal accepts hwords, if_neg hrefused] at hcounted
  have hpos : 0 < s.meter.received.countP (Metrics.endedAs e.host e.plugin st.text) :=
    List.countP_pos_iff.mpr ⟨e, he, (Metrics.endedAs_iff _ _ _ e).mpr ⟨st, hst, rfl⟩⟩
  omega

end Tracking

/-- Where every valid UTF-8 text is accepted as a label value, the metrics of a
    controller process track its jobs exactly if the names of every job that
    ended are accepted. So they do in every run in which the names of every job
    the consumer takes are. -/
theorem metrics_track_iff (accepts : Bytes → Bool)
    (haccepts : ∀ v, Utf8.validString v = true → accepts v = true) (n sub : Nat) (hsub : sub < n)
    (c : Controller S) (api : Api.Server S D Digest) (s : Metered S)
    (h : ReflTransGen (Metered.Step accepts n sub c api) Metered.initial s) :
    (s.Tracks ↔ ∀ e ∈ s.meter.received, Metrics.ended e = true → Metrics.Labelled accepts e) ∧
      ((∀ job ∈ s.taken, accepts job.host = true ∧ accepts job.plugin = true) → s.Tracks) := by
  have hwords : ∀ st : JobStatus, accepts st.text = true := by
    intro st
    apply haccepts
    cases st <;> decide
  have hkept := Metered.kept_run hsub s h
  have hiff : s.Tracks ↔
      ∀ e ∈ s.meter.received, Metrics.ended e = true → Metrics.Labelled accepts e :=
    ⟨labelled_of_tracks hwords s hkept, tracks_of_labelled hwords s hkept⟩
  refine ⟨hiff, fun htaken => hiff.mpr fun e he hend => ?_⟩
  rcases hkept.named e he hend with ⟨job, hjob, hhost, hplugin⟩
  rw [Metrics.Labelled, hhost, hplugin]
  exact htaken job hjob

/-! ### Two jobs -/

/-- A world with one job in the store and a plugin that finds nothing, where no
    other subscriber panics. -/
def Meter.answer (accepts : Bytes → Bool) (sub : Nat) (job : Job) :
    (o : EmitOp Unit) → Meter → EmitAns o × Meter
  | .process o, w =>
      let store := { Store.empty with jobs := ⟨[job], List.nodup_singleton _⟩ }
      ((Shared.answer idlePlugin 9 o ⟨store, Memory.new queueCapacity⟩).1, w)
  | .deliver i _ e, w => if i = sub then w.given accepts e else (false, w)

theorem meterSem_answer (accepts : Bytes → Bool) (sub : Nat) (job : Job) (o : EmitOp Unit)
    (w : Meter) : MeterSem accepts sub w o (Meter.answer accepts sub job o w).1
      (Meter.answer accepts sub job o w).2 := by
  cases o with
  | process o => exact rfl
  | deliver i ctx e =>
      by_cases hi : i = sub
      · simp only [MeterSem, Meter.answer, hi, if_true]
      · simp only [MeterSem, Meter.answer, hi, if_false]

/-- The metrics after that job. -/
def Meter.afterJob (accepts : Bytes → Bool) (n sub : Nat) (c : Controller Unit) (job : Job) :
    Meter :=
  (exec (Meter.answer accepts sub job)
    (panicking (Controller.emitting (.multi n)) (c.runJob job)) Meter.new).2

/-- The consumer can run it and be done. -/
theorem reaches_afterJob (accepts : Bytes → Bool) (n sub : Nat) (c : Controller Unit)
    (api : Api.Server Unit D Digest) (job : Job) :
    ReflTransGen (Metered.Step accepts n sub c api) Metered.initial
      ⟨Meter.afterJob accepts n sub c job, [], none, [job]⟩ := by
  let program := panicking (Controller.emitting (.multi n)) (c.runJob job)
  have hdequeue : Metered.Step accepts n sub c api Metered.initial
      ⟨Meter.new, [], some (job, program), [job]⟩ := Metered.Step.dequeue _ job rfl
  rcases steps_exec (MeterSem accepts sub) (Meter.answer accepts sub job)
    (meterSem_answer accepts sub job) program Meter.new with ⟨tr, hr, hs⟩
  have hcall : ∀ s w o k x u, s = Metered.mk w [] (some (job, .call o k)) [job] →
      MeterSem accepts sub w o x u →
      ∃ s', Metered.Step accepts n sub c api s s' ∧
        s' = Metered.mk u [] (some (job, k x)) [job] := by
    rintro _ w o k x u rfl hone
    exact ⟨_, Metered.Step.consumerCall _ job o k x u rfl hone, rfl⟩
  rcases reaches_of_runs (MeterSem accepts sub) (Metered.Step accepts n sub c api)
    (fun w p s => s = Metered.mk w [] (some (job, p)) [job]) hcall program tr _ hr _ _ hs _ rfl
    with ⟨_, hrun, rfl⟩
  exact (ReflTransGen.head hdequeue hrun).tail (Metered.Step.consumerDone _ job _ rfl)

/-- A host whose name is not text, as a YAML key of type `!!binary` may be. -/
def strayHost : Bytes := [0x80, 0x81, 0x82]

/-- Its controller. -/
def strayController : Controller Unit := hostController strayHost filesServer ()

/-- A job for it. -/
def strayJob : Job := newJob strayHost "files" ⟨1, 0, 0, 0⟩ 1 2

/-- The metrics track a job of a host with a proper name. -/
theorem metrics_track_files : Metered.Tracks (S := Unit)
    ⟨Meter.afterJob Utf8.validString 3 1 filesController filesJob, [], none, [filesJob]⟩ :=
  (metrics_track_iff Utf8.validString (fun _ h => h) 3 1 (by decide) filesController Api.filesApi _
    (reaches_afterJob _ 3 1 filesController Api.filesApi filesJob)).2 (by decide +kernel)

/-- They do not track the other: its start is still remembered when it is over. -/
theorem not_metrics_track : ¬ ∀ s : Metered Unit,
    ReflTransGen (Metered.Step Utf8.validString 3 1 strayController Api.filesApi)
      Metered.initial s → s.Tracks := by
  intro hall
  have htracks := hall _ (reaches_afterJob _ 3 1 strayController Api.filesApi strayJob)
  have hkeys : (Meter.afterJob Utf8.validString 3 1 strayController strayJob).metrics.jobStarts.keys
      = [] := htracks.idle rfl
  revert hkeys
  decide +kernel

end Bop
