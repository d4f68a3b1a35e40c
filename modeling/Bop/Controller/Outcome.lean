import Bop.Controller.RunJob
import Bop.Effect.Handler
import Bop.Queue

/-!
# The Outcome of a Job

What the stored status of a job says once `RunJob` has returned, for every
pattern of step outcomes. A pattern fixes in advance what every call answers,
as a function of all that it is called with, its context included, and the
calls made for a resource by the resource's position. So failing steps, a
cancelled context and an expired deadline are all patterns, and what the final
write answers is what a write under its own context answers.

A write that reports an error has taken effect or it has not, and the program
cannot tell. So there are two ways to fail, and a status that could not be
written may be stored all the same.

The pipeline collects errors instead of propagating them, so the claim that
nothing is swallowed is the claim that its collected errors are empty exactly
when every step of every resource succeeded (`backupResources_outcome`).
`RunJob` then has four ways out, and each leaves its own status.

## Main definitions

* `Written`: How a write ends.
* `ResourceOutcomes`, `Outcomes`: What every call answers.
* `Outcomes.answer`: The world that gives these answers.
* `Admits`: The lookups `RunJob` makes before it touches the job.
* `ResourceOutcomes.Ok`, `PipelineOk`: The steps that must succeed.

## Theorems

* `backupResource_outcome`: A resource succeeds when all its steps do.
* `backupResources_outcome`: No error is collected when all resources succeed.
* `runPipeline_outcome`: The pipeline succeeds when everything does.
* `runJob_outcome`: The stored status after `RunJob`.
* `not_as_reported`: A final write that took effect and was reported as failed.
-/

namespace Bop

open Prog

/-- How a statement that writes ends. -/
inductive Written
  | done
  /-- It failed and changed nothing. -/
  | lost (err : Bytes)
  /-- It took effect, and an error was reported. -/
  | unheard (err : Bytes)

namespace Written

/-- What the caller is told. -/
def result : Written → Except Bytes Unit
  | .done => .ok ()
  | .lost err => .error err
  | .unheard err => .error err

/-- The row is written. -/
def effective : Written → Bool
  | .done => true
  | .lost _ => false
  | .unheard _ => true

end Written

/-- An answer without an error. -/
def succeeded {α : Type} : Except Bytes α → Bool
  | .ok _ => true
  | .error _ => false

@[simp] theorem succeeded_ok {α : Type} (a : α) : succeeded (.ok a) = true := rfl

@[simp] theorem succeeded_error {α : Type} (err : Bytes) :
    succeeded (.error err : Except Bytes α) = false := rfl

theorem Written.done_of_result (wr : Written) (h : wr.result = .ok ()) : wr = .done := by
  cases wr with
  | done => rfl
  | lost err => cases h
  | unheard err => cases h

/-- What the calls made for one resource answer, and the readings of the clock
    while it is backed up. -/
structure ResourceOutcomes (S : Type) where
  backup : Ctx → Instance → Resource → Except Bytes Artifact
  verify : Ctx → Instance → Artifact → Except Bytes Unit
  checksum : Bytes → Except Bytes Bytes
  store : Ctx → S → Artifact → Except Bytes SnapshotID
  storageVerify : Ctx → S → SnapshotID → Except Bytes Unit
  record : Ctx → Snapshot → Written
  restore : Ctx → Instance → Artifact → Except Bytes Unit
  remove : Bytes → Except Bytes Unit
  clock : Nat → Time

/-- What the calls of a job answer, those made for a resource by its key. -/
structure Outcomes (S K : Type) where
  status : Ctx → Bytes → JobStatus → Written
  settings : Ctx → Bytes → Bytes → Except Bytes (Option Bytes)
  factory : Instance → Except Bytes Unit
  discover : Ctx → Instance → Except Bytes (List Resource)
  resource : K → ResourceOutcomes S
  retention : Ctx → S → Bytes → Policy → Except Bytes Unit
  clock : Nat → Time

/-- What the world keeps while a job runs: the tables, how many resources were
    begun and how often the clock was read since. -/
structure World where
  store : Store
  begun : Nat
  ticks : Nat

namespace Outcomes

variable {S : Type}

/-- `UpdateJobStatus`. A row that is not there makes it fail. -/
def update (wr : Written) (id : Bytes) (st : JobStatus) (w : World) : Except Bytes Unit × World :=
  if (w.store.status id).isSome then
    (wr.result, if wr.effective then { w with store := w.store.setStatus id st } else w)
  else (.error errJobNotFound, w)

/-- `RecordSnapshot`. -/
def record (wr : Written) (snap : Snapshot) (w : World) : Except Bytes Unit × World :=
  (wr.result,
    if wr.effective then { w with store := (w.store.recordSnapshot? snap).getD w.store } else w)

/-- The outcomes of the resource that was begun last. -/
def here (o : Outcomes S Nat) (w : World) : ResourceOutcomes S := o.resource (w.begun - 1)

/-- The world that gives these answers, where the resources are numbered by their
    position among the discovered ones. The statements `RunJob` never makes
    are answered with an error. -/
def answer (o : Outcomes S Nat) : (op : Op S) → World → Ans op × World
  | .store ctx (.updateJobStatus id st), w => update (o.status ctx id st) id st w
  | .store ctx (.getPluginSettings host plugin), w => (o.settings ctx host plugin, w)
  | .store ctx (.recordSnapshot snap), w => record ((o.here w).record ctx snap) snap w
  | .store _ (.createJob _), w => (.error [], w)
  | .store _ (.getJob _), w => (.error (.other []), w)
  | .store _ (.listJobsByStatus _), w => (.error [], w)
  | .store _ .listJobs, w => (.error [], w)
  | .store _ .failOrphanedJobs, w => (.error [], w)
  | .store _ (.listSnapshots _), w => (.error [], w)
  | .store _ (.listEventsPage _), w => (.error [], w)
  | .store _ (.setPluginSettings _ _ _), w => (.error [], w)
  | .publish _ e, w => ((), { w with store := w.store.recordEvent e })
  | .enqueue _, w => (.error Memory.errQueueFull, w)
  | .now, w =>
      (if w.begun = 0 then o.clock w.ticks else (o.here w).clock w.ticks,
        { w with ticks := w.ticks + 1 })
  | .factory p, w => (o.factory p, w)
  | .discover ctx p, w => (o.discover ctx p, w)
  | .backup ctx p res, w =>
      ((o.resource w.begun).backup ctx p res, { w with begun := w.begun + 1, ticks := 0 })
  | .verify ctx p a, w => ((o.here w).verify ctx p a, w)
  | .restore ctx p a, w => ((o.here w).restore ctx p a, w)
  | .checksumFile path, w => ((o.here w).checksum path, w)
  | .removeFile path, w => ((o.here w).remove path, w)
  | .storeArtifact ctx sp a, w => ((o.here w).store ctx sp a, w)
  | .verifySnapshot ctx sp id, w => ((o.here w).storageVerify ctx sp id, w)
  | .applyRetention ctx sp host policy, w => (o.retention ctx sp host policy, w)

end Outcomes

/-! ### What a job makes of its artifacts -/

/-- An artifact of a job. -/
def Job.artifact (job : Job) (a : Artifact) : Artifact :=
  { a with host := job.host, plugin := job.plugin }

/-- The row of a job's artifact. -/
def Job.row (job : Job) (a : Artifact) (checksum : Bytes) (id : SnapshotID) (createdAt : Time) :
    Snapshot := ⟨id, job.id, job.host, job.plugin, a.size, checksum, createdAt⟩

/-- The scratch target of a restore test. -/
def Artifact.scratch (a : Artifact) (res : Resource) : Artifact :=
  { a with resourceID := res.id ++ restoreTestSuffix }

/-- The steps of a resource all succeed, each for what the steps before it gave. The
    row is dated by the sixth reading of the clock. -/
def ResourceOutcomes.Ok {S : Type} (o : ResourceOutcomes S) (ctx : Ctx) (job : Job) (p : Instance)
    (sp : S) (restoreTest : Bool) (res : Resource) : Prop :=
  ∃ a, o.backup ctx p res = .ok a ∧ o.verify ctx p (job.artifact a) = .ok () ∧
    ∃ sum, o.checksum a.path = .ok sum ∧
    ∃ id, o.store ctx sp { job.artifact a with checksum := sum } = .ok id ∧
      o.storageVerify ctx sp id = .ok () ∧
      (o.record ctx (job.row a sum id (o.clock 5))).result = .ok () ∧
      (restoreTest = true →
        o.restore ctx p ({ job.artifact a with checksum := sum }.scratch res) = .ok ())

namespace Controller

variable {S : Type} (o : Outcomes S Nat)

/-- The jobs and the count of resources are as they were, and the clock was read so
    often. -/
structure Past (n : Nat) (w w' : World) : Prop where
  jobs : w'.store.jobs = w.store.jobs
  begun : w'.begun = w.begun
  ticks : w'.ticks = w.ticks + n

theorem past_refl (w : World) : Past 0 w w := ⟨rfl, rfl, rfl⟩

variable {o : Outcomes S Nat} {w w₀ : World} {n : Nat}

/-- Announcing an event touches neither and reads the clock. -/
theorem ensures_publish {α : Type} (ctx : Ctx) (e : Event) (k : Unit → Proc S α)
    (post : α → World → Prop) (hw : Past n w₀ w)
    (h : ∀ w', Past (n + 1) w₀ w' → Ensures o.answer (k ()) w' post) :
    Ensures o.answer (publish ctx e >>= k) w post :=
  h _ ⟨hw.jobs, hw.begun, congrArg (· + 1) hw.ticks⟩

/-- Cleaning up touches neither. -/
theorem ensures_cleanup (a : Artifact) (post : Unit → World → Prop) (h : post () w) :
    Ensures o.answer (cleanupArtifact a) w post := by
  unfold cleanupArtifact
  split <;> exact h

/-- Recording a snapshot touches neither. -/
theorem past_record (wr : Written) (snap : Snapshot) (hw : Past n w₀ w) :
    Past n w₀ (Outcomes.record wr snap w).2 := by
  unfold Outcomes.record
  split
  · cases hrecord : w.store.recordSnapshot? snap with
    | none => exact hw
    | some s =>
        rw [Store.recordSnapshot?, Option.map_eq_some_iff] at hrecord
        rcases hrecord with ⟨_, _, rfl⟩
        exact ⟨hw.jobs, hw.begun, hw.ticks⟩
  · exact hw

theorem exec_record (out : ResourceOutcomes S) (ctx : Ctx) (snap : Snapshot)
    (h : o.here w = out) : exec o.answer (store ctx (.recordSnapshot snap)) w =
      ((out.record ctx snap).result, (Outcomes.record (out.record ctx snap) snap w).2) := by
  rw [exec_op, ← h]
  rfl

/-- What is proved of a resource: whether it succeeds, and that it leaves the jobs
    alone and counts as one. -/
def ResourcePost (ok : Prop) (w₀ : World) (r : Except Bytes Unit) (w' : World) : Prop :=
  (succeeded r = true ↔ ok) ∧ w'.store.jobs = w₀.store.jobs ∧ w'.begun = w₀.begun

/-- A step that fails settles its resource. -/
theorem post_failed {ok : Prop} {err : Bytes} (hok : ¬ ok) (hw : Past n w₀ w) :
    ResourcePost ok w₀ (.error err) w :=
  ⟨⟨fun h => absurd h Bool.false_ne_true, fun h => absurd h hok⟩, hw.jobs, hw.begun⟩

/-- A step of the resource that was begun last. One that fails settles the resource,
    and one that succeeds leaves the rest to be run. -/
theorem ensures_step {α : Type} {ok : Prop} {i : Nat} (p : Proc S (Except Bytes α))
    (wrap : Bytes → Bytes) (k : α → Proc S (Except Bytes Unit))
    (step : ResourceOutcomes S → Except Bytes α) (hp : exec o.answer p w = (step (o.here w), w))
    (hw : Past n w₀ w) (hi : w₀.begun = i + 1)
    (hfail : ∀ err, step (o.resource i) = .error err → ¬ ok)
    (hok : ∀ a, step (o.resource i) = .ok a →
      Ensures o.answer (k a) w (ResourcePost ok w₀)) :
    Ensures o.answer (check p wrap k) w (ResourcePost ok w₀) := by
  have hhere : o.here w = o.resource i := by
    rw [Outcomes.here, hw.begun, hi, Nat.add_sub_cancel]
  rw [hhere] at hp
  exact ensures_checked p wrap k w w (step (o.resource i)) _ hp
    (fun err herr => post_failed (hfail err herr) hw) hok

/-- A resource succeeds exactly when all its steps do, and its steps do not
    touch the jobs. -/
theorem backupResource_outcome (ctx : Ctx) (job : Job) (p : Instance) (sp : S) (res : Resource)
    (v : Verification) (w : World) :
    Ensures o.answer (backupResource ctx job p sp res v) w
      (ResourcePost ((o.resource w.begun).Ok ctx job p sp v.enabled res)
        { w with begun := w.begun + 1, ticks := 0 }) := by
  generalize hw₀ : { w with begun := w.begun + 1, ticks := 0 } = w₀
  have hi : w₀.begun = w.begun + 1 := by rw [← hw₀]
  have hnone : w₀.ticks = 0 := by rw [← hw₀]
  -- The outcomes are looked up by the number of the resource, which stays the same from here on.
  refine ensures_checked _ _ _ w w₀ ((o.resource w.begun).backup ctx p res) _
    (congrArg (Prod.mk _) hw₀) ?_ ?_
  · intro err herr
    refine post_failed ?_ (past_refl w₀)
    rintro ⟨a, hbackup, _⟩
    cases herr.symm.trans hbackup
  intro a hbackup
  generalize w.begun = i at hbackup hi
  -- The clean-up runs whatever the steps return, and decides nothing.
  refine ensures_deferring _ _ _ _ (ensures_mono _ _
    (ResourcePost ((o.resource i).Ok ctx job p sp v.enabled res) w₀) _ ?_
    (fun r w' h => ensures_cleanup _ _ h))
  refine ensures_step _ _ _ (fun out => out.verify ctx p (job.artifact a)) rfl (past_refl w₀) hi
    (fun err herr => ?_) fun _ hverify => ?_
  · simp [ResourceOutcomes.Ok, hbackup, herr]
  refine ensures_step _ _ _ (fun out => out.checksum a.path) rfl (past_refl w₀) hi
    (fun err herr => ?_) fun sum hchecksum => ?_
  · simp [ResourceOutcomes.Ok, hbackup, herr]
  refine ensures_publish _ _ _ _ (past_refl w₀) fun w₁ h₁ => ?_
  refine ensures_publish _ _ _ _ h₁ fun w₂ h₂ => ?_
  refine ensures_step _ _ _ (fun out => out.store ctx sp { job.artifact a with checksum := sum })
    rfl h₂ hi (fun err herr => ?_) fun id hstore => ?_
  · simp [ResourceOutcomes.Ok, hbackup, hchecksum, herr]
  refine ensures_publish _ _ _ _ h₂ fun w₃ h₃ => ?_
  refine ensures_publish _ _ _ _ h₃ fun w₄ h₄ => ?_
  refine ensures_step _ _ _ (fun out => out.storageVerify ctx sp id) rfl h₄ hi
    (fun err herr => ?_) fun _ hstored => ?_
  · simp [ResourceOutcomes.Ok, hbackup, hchecksum, hstore, herr]
  refine ensures_publish _ _ _ _ h₄ fun w₅ h₅ => ?_
  -- The row is dated by the sixth reading.
  have hhere : o.here w₅ = o.resource i := by
    rw [Outcomes.here, h₅.begun, hi, Nat.add_sub_cancel]
  have hnow : (o.answer (Op.now : Op S) w₅).1 = (o.resource i).clock 5 := by
    have hbegun : w₅.begun ≠ 0 := by
      rw [h₅.begun, hi]
      exact Nat.succ_ne_zero i
    simp only [Outcomes.answer, if_neg hbegun, hhere, h₅.ticks, hnone]
  refine ensures_bind _ _ _ _ (ensures_op _ _ _ ?_)
  rw [hnow]
  have h₆ : Past 6 w₀ { w₅ with ticks := w₅.ticks + 1 } :=
    ⟨h₅.jobs, h₅.begun, congrArg (· + 1) h₅.ticks⟩
  refine ensures_checked _ _ _ _ _ _ _ (exec_record (o.resource i) ctx _ hhere)
    (fun err herr => post_failed ?_ (past_record _ _ h₆)) fun _ hrecord => ?_
  · have hfailed : ((o.resource i).record ctx
        (job.row a sum id ((o.resource i).clock 5))).result = .error err := herr
    simp [ResourceOutcomes.Ok, hbackup, hchecksum, hstore, hfailed]
  have h₇ := past_record ((o.resource i).record ctx (job.row a sum id ((o.resource i).clock 5)))
    (job.row a sum id ((o.resource i).clock 5)) h₆
  have hrecorded : ((o.resource i).record ctx
      (job.row a sum id ((o.resource i).clock 5))).result = .ok () := hrecord
  -- Every step but the restore test has succeeded.
  have hdone : (o.resource i).Ok ctx job p sp v.enabled res ↔ (v.enabled = true →
      (o.resource i).restore ctx p ({ job.artifact a with checksum := sum }.scratch res) =
        .ok ()) := by
    simp [ResourceOutcomes.Ok, hbackup, hverify, hchecksum, hstore, hstored, hrecorded]
  rw [hdone]
  split
  · next henabled =>
      refine ensures_publish _ _ _ _ h₇ fun w₈ h₈ => ?_
      refine ensures_step _ _ _ (fun out =>
        out.restore ctx p ({ job.artifact a with checksum := sum }.scratch res)) rfl h₈ hi
        (fun err herr hok => ?_) fun _ hrestore => ?_
      · cases herr.symm.trans (hok henabled)
      refine ensures_publish _ _ _ _ h₈ fun w₉ h₉ => ?_
      exact ⟨⟨fun _ _ => hrestore, fun _ => rfl⟩, h₉.jobs, h₉.begun⟩
  · next henabled =>
      exact ⟨⟨fun _ h => absurd h henabled, fun _ => rfl⟩, h₇.jobs, h₇.begun⟩

/-- No error is collected exactly when all resources succeed. -/
theorem backupResources_outcome (ctx : Ctx) (job : Job) (p : Instance) (sp : S)
    (v : Verification) (resources : List Resource) (w : World) :
    Ensures o.answer (backupResources ctx job p sp v resources) w (fun errs w' =>
      (errs = [] ↔ ∀ i res, resources[i]? = some res →
        (o.resource (w.begun + i)).Ok ctx job p sp v.enabled res) ∧
        w'.store.jobs = w.store.jobs) := by
  induction resources generalizing w with
  | nil => exact ⟨⟨fun _ i res h => (by cases h), fun _ => rfl⟩, rfl⟩
  | cons res rest ih =>
      refine ensures_bind _ _ _ _ (ensures_mono _ _ _ _
        (backupResource_outcome ctx job p sp res v w) ?_)
      rintro r w₁ ⟨hfirst, hjobs₁, hbegun⟩
      refine ensures_bind _ _ _ _ (ensures_mono _ _ _ _ (ih w₁) ?_)
      rintro errs w₂ ⟨hrest, hjobs₂⟩
      have hjobs : w₂.store.jobs = w.store.jobs := hjobs₂.trans hjobs₁
      -- All resources succeed if the first does and the rest do, counted from the next one.
      have hall : (∀ i res', (res :: rest)[i]? = some res' →
          (o.resource (w.begun + i)).Ok ctx job p sp v.enabled res') ↔
          succeeded r = true ∧ errs = [] := by
        rw [hfirst, hrest, hbegun]
        constructor
        · intro h
          refine ⟨h 0 res rfl, fun i res' hres => ?_⟩
          rw [Nat.add_assoc, Nat.add_comm 1 i]
          exact h (i + 1) res' hres
        · rintro ⟨h0, h⟩ i res' hres
          cases i with
          | zero =>
              cases hres
              exact h0
          | succ i =>
              rw [Nat.add_comm i 1, ← Nat.add_assoc]
              exact h i res' hres
      cases r with
      | ok u =>
          refine ⟨?_, hjobs⟩
          rw [hall]
          exact ⟨fun h => ⟨rfl, h⟩, fun h => h.2⟩
      | error err =>
          refine ⟨?_, hjobs⟩
          rw [hall]
          exact ⟨fun h => absurd h (List.cons_ne_nil _ _), fun h => absurd h.1 Bool.false_ne_true⟩

/-- Everything a job must do once it is marked succeeds. -/
def PipelineOk (c : Controller S) (o : Outcomes S Nat) (job : Job) : Prop :=
  ∃ srv sp found cfg resources, c.inventory.servers.lookup job.host = some srv ∧
    c.storageFor job.host = .ok sp ∧
    o.settings c.pipelineCtx job.host job.plugin = .ok found ∧
    configFrom job.host job.plugin srv found = .ok cfg ∧
    o.factory ⟨job.plugin, srv, cfg, c.tempDir⟩ = .ok () ∧
    o.discover c.pipelineCtx ⟨job.plugin, srv, cfg, c.tempDir⟩ = .ok resources ∧
    (∀ i res, resources[i]? = some res →
      (o.resource i).Ok c.pipelineCtx job ⟨job.plugin, srv, cfg, c.tempDir⟩ sp
        (resolveVerification c.verification srv.verification).enabled res) ∧
    o.retention c.pipelineCtx sp job.host job.policy = .ok ()

theorem joined_succeeded (errs : List Bytes) : succeeded (joined errs) = true ↔ errs = [] := by
  unfold joined
  split
  · next h => simp only [succeeded, h]
  · next h => simp only [succeeded, h, Bool.false_eq_true]

/-- The configuration a pipeline resolves, when this is what the store answers. -/
theorem exec_resolve {σ : Type} (answer : (op : Op S) → σ → Ans op × σ) (ctx : Ctx)
    (host plugin : Bytes) (srv : Server) (s s' : σ) (x : Except Bytes (Option Bytes)) :
    answer (.store ctx (.getPluginSettings host plugin)) s = (x, s') →
    exec answer (resolvePluginConfig ctx host plugin srv) s =
      (match x with
        | .ok found => configFrom host plugin srv found
        | .error err => .error ("resolve plugin config for " ++ quoteGo host ++ "/" ++
            quoteGo plugin ++ ": " ++ err), s') := by
  intro h
  change exec answer (Prog.bind (Prog.op _) _) s = _
  simp only [Prog.op, Prog.bind, exec, h]
  cases x with
  | ok found => rfl
  | error err => rfl

/-- The pipeline succeeds exactly when everything in it does, and it does not
    touch the jobs. -/
theorem runPipeline_outcome (c : Controller S) (job : Job) (srv : Server) (sp : S)
    (hsrv : c.inventory.servers.lookup job.host = some srv) (hsp : c.storageFor job.host = .ok sp)
    (w : World) (hw : w.begun = 0) :
    Ensures o.answer (runPipeline c c.pipelineCtx job srv sp) w (fun r w' =>
      (succeeded r = true ↔ c.PipelineOk o job) ∧ w'.store.jobs = w.store.jobs) := by
  -- An error is right wherever one of the steps was not to succeed.
  have hfail : ∀ {err : Bytes} {w' : World}, ¬ c.PipelineOk o job →
      w'.store.jobs = w.store.jobs →
      (succeeded (.error err : Except Bytes Unit) = true ↔ c.PipelineOk o job) ∧
        w'.store.jobs = w.store.jobs :=
    fun h hjobs => ⟨⟨fun h' => absurd h' Bool.false_ne_true, fun h' => absurd h' h⟩, hjobs⟩
  cases hset : o.settings c.pipelineCtx job.host job.plugin with
  | error err =>
      refine ensures_checked _ _ _ w w _ _ (exec_resolve _ _ _ _ srv w w (.error err)
        (congrArg (Prod.mk · w) hset)) (fun _ _ => hfail ?_ rfl) fun _ h => by cases h
      simp [PipelineOk, hset]
  | ok found =>
  refine ensures_checked _ _ _ w w _ _ (exec_resolve _ _ _ _ srv w w (.ok found)
    (congrArg (Prod.mk · w) hset)) (fun err herr => hfail ?_ rfl) fun cfg hcfg => ?_
  · simp [PipelineOk, hset, hsrv, herr]
  refine ensures_checked _ _ _ w w (o.factory ⟨job.plugin, srv, cfg, c.tempDir⟩) _ rfl
    (fun err herr => hfail ?_ rfl) fun _ hfactory => ?_
  · simp [PipelineOk, hset, hsrv, hcfg, herr]
  refine ensures_publish _ _ _ _ (past_refl w) fun w₁ h₁ => ?_
  refine ensures_checked _ _ _ w₁ w₁
    (o.discover c.pipelineCtx ⟨job.plugin, srv, cfg, c.tempDir⟩) _ rfl
    (fun err herr => hfail ?_ h₁.jobs) fun resources hdiscover => ?_
  · simp [PipelineOk, hset, hsrv, hcfg, herr]
  refine ensures_publish _ _ _ _ h₁ fun w₂ h₂ => ?_
  refine ensures_bind _ _ _ _ (ensures_mono _ _ _ _
    (backupResources_outcome c.pipelineCtx job _ sp _ resources w₂) ?_)
  rintro errs w₃ ⟨hall, hjobs₃⟩
  have hjobs : w₃.store.jobs = w.store.jobs := hjobs₃.trans h₂.jobs
  have hbegun : w₂.begun = 0 := h₂.begun.trans hw
  simp only [hbegun, Nat.zero_add] at hall
  -- Once the resources are discovered, they and the retention are what is left.
  have hok : c.PipelineOk o job ↔
      errs = [] ∧ o.retention c.pipelineCtx sp job.host job.policy = .ok () := by
    rw [hall]
    simp [PipelineOk, hset, hsrv, hsp, hcfg, hfactory, hdiscover]
  refine ensures_bind _ _ _ _ (ensures_op _ _ _ ?_)
  simp only [Outcomes.answer]
  cases hret : o.retention c.pipelineCtx sp job.host job.policy with
  | error err =>
      refine ensures_ret _ _ _ ⟨?_, hjobs⟩
      rw [joined_succeeded, hok, hret]
      constructor
      · exact fun h => absurd h (List.append_ne_nil_of_right_ne_nil _ (List.cons_ne_nil _ _))
      · exact fun h => by cases h.2
  | ok u =>
      have h₃ : Past 0 w₃ w₃ := past_refl w₃
      refine ensures_publish _ _ _ _ h₃ fun w₄ h₄ => ?_
      refine ensures_ret _ _ _ ⟨?_, h₄.jobs.trans hjobs⟩
      rw [joined_succeeded, hok, hret]
      exact ⟨fun h => ⟨h, rfl⟩, fun h => h.1⟩

/-- The lookups `RunJob` makes before it touches the job all succeed. -/
def Admits (c : Controller S) (job : Job) : Prop :=
  ∃ srv sp, c.inventory.servers.lookup job.host = some srv ∧ job.plugin ∈ c.factories ∧
    c.storageFor job.host = .ok sp

/-- The world before a job runs. -/
def start (s : Store) : World := ⟨s, 0, 0⟩

/-- A write to a row that is there. -/
theorem update_of_found (wr : Written) (id : Bytes) (st : JobStatus)
    (h : (w.store.status id).isSome) :
    Outcomes.update wr id st w =
      (wr.result, if wr.effective then { w with store := w.store.setStatus id st } else w) := by
  rw [Outcomes.update, if_pos h]

/-- The status a row has after a write to it. -/
theorem status_write (wr : Written) (id : Bytes) (st : JobStatus)
    (h : (w.store.status id).isSome) :
    (if wr.effective then { w with store := w.store.setStatus id st } else w).store.status id =
      if wr.effective then some st else w.store.status id := by
  split
  · change (w.store.setStatus id st).status id = some st
    rw [Store.status_setStatus, if_pos rfl]
    rcases Option.isSome_iff_exists.mp h with ⟨old, hold⟩
    rw [hold, Option.map_some]
  · rfl

/-- What a marked job leaves: the final write decides between the status the
    pipeline earned and the one it was marked with. -/
theorem runMarked_outcome (c : Controller S) (job : Job) (srv : Server) (sp : S)
    (hsrv : c.inventory.servers.lookup job.host = some srv) (hsp : c.storageFor job.host = .ok sp)
    (hw : w.begun = 0) (hmarked : w.store.status job.id = some .inProgress) :
    Ensures o.answer (runMarked c job srv sp) w (fun r w' =>
      ∃ st, (st = .completed ∧ c.PipelineOk o job ∨ st = .failed ∧ ¬ c.PipelineOk o job) ∧
        w'.store.status job.id =
          (if (o.status .record job.id st).effective then some st else some .inProgress) ∧
        (succeeded r = true ↔ c.PipelineOk o job ∧
          (o.status .record job.id st).result = .ok ())) := by
  refine ensures_publish _ _ _ _ (past_refl w) fun w₁ h₁ => ?_
  refine ensures_bind _ _ _ _ (ensures_mono _ _ _ _
    (runPipeline_outcome c job srv sp hsrv hsp w₁ (h₁.begun.trans hw)) ?_)
  rintro pipelineErr w₂ ⟨hpipeline, hjobs⟩
  refine ensures_publish _ _ _ _ (past_refl w₂) fun w₃ h₃ => ?_
  have hstatus : w₃.store.status job.id = some .inProgress := by
    rw [Store.status, h₃.jobs, hjobs, h₁.jobs]
    exact hmarked
  have hfound : (w₃.store.status job.id).isSome := by
    rw [hstatus]
    rfl
  refine ensures_bind _ _ _ _ (ensures_op _ _ _ ?_)
  simp only [Outcomes.answer, update_of_found _ _ _ hfound]
  refine ensures_ret _ _ _ ⟨finalStatus pipelineErr, ?_, ?_, ?_⟩
  · rw [← hpipeline]
    cases pipelineErr with
    | ok u => exact Or.inl ⟨rfl, rfl⟩
    | error err => exact Or.inr ⟨rfl, Bool.false_ne_true⟩
  · rw [status_write _ _ _ hfound, hstatus]
  · rw [← hpipeline]
    cases pipelineErr <;> cases o.status .record job.id _ <;>
      simp [jobResult, Written.result]

/-- A job that is refused before it is touched. -/
theorem runJob_inadmissible (c : Controller S) (job : Job) (h : ¬ c.Admits job) (w : World) :
    ∃ err, exec o.answer (c.runJob job) w = (.error err, w) := by
  unfold runJob
  split
  · exact ⟨_, rfl⟩
  · next srv hsrv =>
      split
      · exact ⟨_, rfl⟩
      · next hplugin =>
          split
          · exact ⟨_, rfl⟩
          · next sp hsp => exact absurd ⟨srv, sp, hsrv, not_not.mp hplugin, hsp⟩ h

/-- A job that is not is marked first. -/
theorem runJob_admits (c : Controller S) (job : Job) (srv : Server) (sp : S)
    (hsrv : c.inventory.servers.lookup job.host = some srv) (hplugin : job.plugin ∈ c.factories)
    (hsp : c.storageFor job.host = .ok sp) :
    c.runJob job = check (store .caller (.updateJobStatus job.id .inProgress))
      (fun err => "controller: mark job " ++ job.id ++ " in_progress: " ++ err)
      (fun _ => runMarked c job srv sp) := by
  simp only [runJob, hsrv, hplugin, not_true_eq_false, if_false, hsp]

/-- What a job leaves that was queued and whose first write was reported as done. -/
theorem runJob_marked (c : Controller S) (job : Job) (o : Outcomes S Nat) (s : Store)
    (hq : s.status job.id = some .queued) (hadmits : c.Admits job)
    (hmark : o.status .caller job.id .inProgress = .done) :
    let out := exec o.answer (c.runJob job) (start s)
    ∃ st, (st = .completed ∧ c.PipelineOk o job ∨ st = .failed ∧ ¬ c.PipelineOk o job) ∧
      out.2.store.status job.id =
        (if (o.status .record job.id st).effective then some st else some .inProgress) ∧
      (succeeded out.1 = true ↔ c.PipelineOk o job ∧
        (o.status .record job.id st).result = .ok ()) := by
  rcases hadmits with ⟨srv, sp, hsrv, hplugin, hsp⟩
  have hfound : ((start s).store.status job.id).isSome := by
    change (s.status job.id).isSome
    rw [hq]
    rfl
  have hwrite : exec o.answer (store (S := S) .caller (.updateJobStatus job.id .inProgress))
      (start s) = (.ok (), ⟨s.setStatus job.id .inProgress, 0, 0⟩) := by
    have hupdate := update_of_found (o.status .caller job.id .inProgress) job.id .inProgress hfound
    rw [hmark] at hupdate
    rw [exec_op, Outcomes.answer, hmark]
    exact hupdate
  have hmarked : (s.setStatus job.id .inProgress).status job.id = some .inProgress := by
    rw [Store.status_setStatus, if_pos rfl, hq, Option.map_some]
  intro out
  have hout : out = exec o.answer (runMarked c job srv sp)
      ⟨s.setStatus job.id .inProgress, 0, 0⟩ := by
    simp only [out, runJob_admits c job srv sp hsrv hplugin hsp]
    exact exec_check_ok _ _ _ _ _ _ () hwrite
  rw [hout]
  exact runMarked_outcome c job srv sp hsrv hsp rfl hmarked

/-- What it leaves if that write was reported as failed: no pipeline is run, and the row
    is marked if the write took effect. -/
theorem runJob_unmarked (c : Controller S) (job : Job) (o : Outcomes S Nat) (s : Store)
    (hq : s.status job.id = some .queued) (hadmits : c.Admits job) (err : Bytes)
    (hmark : (o.status .caller job.id .inProgress).result = .error err) :
    let out := exec o.answer (c.runJob job) (start s)
    succeeded out.1 = false ∧ out.2.store.status job.id =
      if (o.status .caller job.id .inProgress).effective then some .inProgress
      else some .queued := by
  rcases hadmits with ⟨srv, sp, hsrv, hplugin, hsp⟩
  have hfound : ((start s).store.status job.id).isSome := by
    change (s.status job.id).isSome
    rw [hq]
    rfl
  have hwrite := update_of_found (o.status .caller job.id .inProgress) job.id .inProgress hfound
  rw [hmark] at hwrite
  intro out
  have hout := exec_check_error o.answer
    (store (S := S) .caller (.updateJobStatus job.id .inProgress))
    (fun err => "controller: mark job " ++ job.id ++ " in_progress: " ++ err)
    (fun _ => runMarked c job srv sp) (start s) _ err hwrite
  rw [← runJob_admits c job srv sp hsrv hplugin hsp] at hout
  refine ⟨by simp only [out, hout, succeeded_error], ?_⟩
  simp only [out, hout]
  rw [status_write _ _ _ hfound]
  exact congrArg (ite _ _) hq

/-- The stored status after `RunJob`, for a job that was queued. A write that reports
    an error counts by whether it took effect, except that `RunJob` goes on, and
    returns no error, only where none was reported. -/
theorem runJob_outcome (c : Controller S) (job : Job) (o : Outcomes S Nat) (s : Store)
    (hq : s.status job.id = some .queued) :
    let out := exec o.answer (c.runJob job) (start s)
    let stored := out.2.store.status job.id
    let mark := o.status .caller job.id .inProgress
    let final := fun st => o.status .record job.id st
    let picked := c.Admits job ∧ mark.result = .ok ()
    (stored = some .completed ↔ picked ∧ c.PipelineOk o job ∧ (final .completed).effective) ∧
      (stored = some .failed ↔ picked ∧ ¬ c.PipelineOk o job ∧ (final .failed).effective) ∧
      (stored = some .queued ↔ ¬ c.Admits job ∨ ¬ mark.effective) ∧
      (stored = some .inProgress ↔ c.Admits job ∧ mark.effective ∧ (mark.result = .ok () →
        (c.PipelineOk o job → ¬ (final .completed).effective) ∧
        (¬ c.PipelineOk o job → ¬ (final .failed).effective))) ∧
      (succeeded out.1 = true ↔ picked ∧ c.PipelineOk o job ∧
        (final .completed).result = .ok ()) := by
  intro out stored mark final picked
  by_cases hadmits : c.Admits job
  · have hunmarked := runJob_unmarked c job o s hq hadmits
    cases hmark : mark with
    | done =>
        rcases runJob_marked c job o s hq hadmits hmark with ⟨st, hst, hstored, hresult⟩
        change stored = _ at hstored
        change succeeded out.1 = true ↔ _ at hresult
        have hfinals : ∀ st, o.status .record job.id st = final st := fun _ => rfl
        -- The pipeline earned one of the two, and its write took effect or it did not.
        rcases hst with ⟨rfl, hok⟩ | ⟨rfl, hok⟩
        · cases hfinal : final .completed <;>
            simp [picked, hmark, hstored, hresult, hadmits, hok, hfinals, hfinal,
              Written.result, Written.effective]
        · cases hfinal : final .failed <;>
            simp [picked, hmark, hstored, hresult, hadmits, hok, hfinals, hfinal,
              Written.result, Written.effective]
    | lost err =>
        -- The job is as it was.
        rw [show o.status .caller job.id .inProgress = .lost err from hmark] at hunmarked
        rcases hunmarked err rfl with ⟨hout, hstored⟩
        have hqueued : stored = some .queued := hstored
        have hfailed : succeeded out.1 = false := hout
        simp [picked, hmark, hqueued, hfailed, Written.result, Written.effective, hadmits]
    | unheard err =>
        rw [show o.status .caller job.id .inProgress = .unheard err from hmark] at hunmarked
        rcases hunmarked err rfl with ⟨hout, hstored⟩
        have hmarked : stored = some .inProgress := hstored
        have hfailed : succeeded out.1 = false := hout
        simp [picked, hmark, hmarked, hfailed, Written.result, Written.effective, hadmits]
  · -- A lookup failed: nothing was written.
    rcases runJob_inadmissible (o := o) c job hadmits (start s) with ⟨err, hrun⟩
    have hout : out = (.error err, start s) := hrun
    have hstored : stored = some .queued := by
      simp only [stored, hout]
      exact hq
    simp [picked, hstored, hadmits, hout]

/-- Every step succeeds, for these resources. -/
def smooth (resources : List Resource) : Outcomes S Nat where
  status := fun _ _ _ => .done
  settings := fun _ _ _ => .ok none
  factory := fun _ => .ok ()
  discover := fun _ _ => .ok resources
  resource := fun _ =>
    { backup := fun _ _ res => .ok ⟨res.id, [], [], "/tmp/logs.tar.gz", 10, [], false, 3⟩
      verify := fun _ _ _ => .ok ()
      checksum := fun _ => .ok "ab"
      store := fun _ _ _ => .ok "s1"
      storageVerify := fun _ _ _ => .ok ()
      record := fun _ _ => .done
      restore := fun _ _ _ => .ok ()
      remove := fun _ => .ok ()
      clock := fun n => n }
  retention := fun _ _ _ _ => .ok ()
  clock := fun n => n

/-- A job whose every step succeeds is completed. -/
theorem runJob_outcome_smooth :
    (exec (smooth [⟨"logs", "logs"⟩]).answer (filesController.runJob filesJob)
      (start leftQueued)).2.store.status filesJob.id = some .completed := by
  have hadmits : filesController.Admits filesJob := ⟨filesServer, (), rfl, by decide, rfl⟩
  have hok : ∀ i res, ([⟨"logs", "logs"⟩] : List Resource)[i]? = some res →
      ((smooth (S := Unit) [⟨"logs", "logs"⟩]).resource i).Ok filesController.pipelineCtx filesJob
        ⟨"files", filesServer, none, []⟩ () false res :=
    fun i res _ => ⟨_, rfl, rfl, _, rfl, _, rfl, rfl, rfl, fun _ => rfl⟩
  have hpipeline : filesController.PipelineOk (smooth [⟨"logs", "logs"⟩]) filesJob :=
    ⟨filesServer, (), none, none, _, rfl, rfl, rfl, rfl, rfl, rfl, hok, rfl⟩
  exact (runJob_outcome filesController filesJob (smooth [⟨"logs", "logs"⟩]) leftQueued rfl).1.mpr
    ⟨⟨hadmits, rfl⟩, hpipeline, rfl⟩

/-- The same, but the final write is reported as failed although it took effect. -/
def unheardEnd : Outcomes Unit Nat :=
  { smooth [⟨"logs", "logs"⟩] with
    status := fun ctx _ _ => if ctx = .record then .unheard "driver: bad connection" else .done }

/-- A job can be stored as completed although the final write was reported as failed,
    and then `RunJob` returns an error. -/
theorem not_as_reported : ¬ ∀ (c : Controller Unit) (job : Job) (o : Outcomes Unit Nat) (s : Store),
    s.status job.id = some .queued →
    let out := exec o.answer (c.runJob job) (start s)
    let stored := out.2.store.status job.id
    let marked := c.Admits job ∧ succeeded (o.status .caller job.id .inProgress).result = true
    let final := fun st => succeeded (o.status .record job.id st).result = true
    (stored = some .completed ↔ marked ∧ c.PipelineOk o job ∧ final .completed) ∧
      (stored = some .failed ↔ marked ∧ ¬ c.PipelineOk o job ∧ final .failed) ∧
      (stored = some .queued ↔ ¬ marked) ∧
      (stored = some .inProgress → ¬ (final .completed ∧ final .failed)) ∧
      (succeeded out.1 = true ↔ stored = some .completed) := by
  intro h
  have hresult := (h filesController filesJob unheardEnd leftQueued rfl).2.2.2.2
  have hstored : (exec unheardEnd.answer (filesController.runJob filesJob)
      (start leftQueued)).2.store.status filesJob.id = some .completed := by decide
  have hfailed : succeeded (exec unheardEnd.answer (filesController.runJob filesJob)
      (start leftQueued)).1 = false := by decide
  rw [hstored, hfailed] at hresult
  exact Bool.false_ne_true (hresult.mpr rfl)

end Controller

end Bop
