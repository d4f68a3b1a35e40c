import Bop.Controller.Outcome
import Bop.Effect.Attempts

/-!
# One Resource at a Time

What a job does for each resource, when what the calls answer is assigned to
the resources themselves. A resource's steps are attempted in order until one
fails, and a resource whose steps up to the recording succeed adds one row if
the recording takes effect, also if it is reported as failed. Neither depends
on any other resource. Retention comes last and comes always, once the
resources are known.

## Main definitions

* `JobOutcomes`: What every call answers, by the identifier of the resource.
* `Attempt`, `JobProgress`: What a job attempts, and the rows it adds.
* `verified`, `summed`, `stored`, `confirmed`: A resource up to one of its steps.
* `resourceSteps`, `rowOf`: A resource's steps, and the row it adds.
* `Reached`: A job that gets to its resources.

## Theorems

* `backupResource_isolated`: What one resource adds.
* `runJob_isolated`: What a job adds.
* `isolated`: The rows and the attempts of a job.
* `not_isolated_unheard`: A recording that took effect and was reported as
  failed.
-/

namespace Bop

open Prog

/-- What the calls of a job answer, those made for a resource by its identifier. -/
abbrev JobOutcomes (S : Type) := Outcomes S Bytes

/-- What a job attempts. A resource's steps name the resource, and those about
    a snapshot its identifier. -/
inductive Attempt
  | settings | factory | discover
  | backup (res : Bytes)
  | verify (res : Bytes)
  | checksum (res : Bytes)
  | store (res : Bytes)
  | storageVerify (res : Bytes) (id : SnapshotID)
  | record (res : Bytes) (id : SnapshotID)
  | restore (res : Bytes)
  | retention (host : Bytes) (policy : Policy)
  deriving DecidableEq

/-- The resource a step is about, if it is about one. -/
def Attempt.resource : Attempt → Option Bytes
  | .settings => none
  | .factory => none
  | .discover => none
  | .backup res => some res
  | .verify res => some res
  | .checksum res => some res
  | .store res => some res
  | .storageVerify res _ => some res
  | .record res _ => some res
  | .restore res => some res
  | .retention _ _ => none

/-- What a job has done: the snapshot rows there are, what was attempted, the
    resource it is at and how often it has read the clock there. -/
structure JobProgress where
  rows : List Snapshot
  log : List Attempt
  current : Option Bytes
  ticks : Nat

namespace JobProgress

/-- Something was attempted. -/
def attempt (s : JobProgress) (a : Attempt) : JobProgress := { s with log := s.log ++ [a] }

/-- The clock was read. -/
def tick (s : JobProgress) : JobProgress := { s with ticks := s.ticks + 1 }

/-- A resource is begun. -/
def enter (s : JobProgress) (res : Bytes) : JobProgress :=
  { s with log := s.log ++ [.backup res], current := some res, ticks := 0 }

/-- The name of the resource the job is at. -/
def name (s : JobProgress) : Bytes := s.current.getD []

end JobProgress

namespace JobOutcomes

variable {S : Type}

/-- What the calls made for the resource a job is at answer. -/
def here (o : JobOutcomes S) (s : JobProgress) : ResourceOutcomes S := o.resource s.name

/-- `RecordSnapshot`: a row is added when it takes effect. -/
def record (wr : Written) (snap : Snapshot) (s : JobProgress) : Except Bytes Unit × JobProgress :=
  (wr.result,
    { s with
      rows := if wr.effective then s.rows ++ [snap] else s.rows
      log := s.log ++ [.record s.name snap.id] })

/-- What an operation answers. The statements a job never makes are answered with
    an error. -/
def answer (o : JobOutcomes S) : (op : Op S) → JobProgress → Ans op × JobProgress
  | .store ctx (.updateJobStatus id st), s => ((o.status ctx id st).result, s)
  | .store ctx (.getPluginSettings host plugin), s =>
      (o.settings ctx host plugin, s.attempt .settings)
  | .store ctx (.recordSnapshot snap), s => record ((here o s).record ctx snap) snap s
  | .store _ (.createJob _), s => (.error [], s)
  | .store _ (.getJob _), s => (.error (.other []), s)
  | .store _ (.listJobsByStatus _), s => (.error [], s)
  | .store _ .listJobs, s => (.error [], s)
  | .store _ .failOrphanedJobs, s => (.error [], s)
  | .store _ (.listSnapshots _), s => (.error [], s)
  | .store _ (.listEventsPage _), s => (.error [], s)
  | .store _ (.setPluginSettings _ _ _), s => (.error [], s)
  | .publish _ _, s => ((), s)
  | .enqueue _, s => (.error Memory.errQueueFull, s)
  | .now, s => (match s.current with
      | none => o.clock s.ticks
      | some _ => (here o s).clock s.ticks, s.tick)
  | .factory p, s => (o.factory p, s.attempt .factory)
  | .discover ctx p, s => (o.discover ctx p, s.attempt .discover)
  | .backup ctx p res, s => ((o.resource res.id).backup ctx p res, s.enter res.id)
  | .verify ctx p a, s => ((here o s).verify ctx p a, s.attempt (.verify s.name))
  | .restore ctx p a, s => ((here o s).restore ctx p a, s.attempt (.restore s.name))
  | .checksumFile path, s => ((here o s).checksum path, s.attempt (.checksum s.name))
  | .removeFile path, s => ((here o s).remove path, s)
  | .storeArtifact ctx sp a, s => ((here o s).store ctx sp a, s.attempt (.store s.name))
  | .verifySnapshot ctx sp id, s =>
      ((here o s).storageVerify ctx sp id, s.attempt (.storageVerify s.name id))
  | .applyRetention ctx sp host policy, s =>
      (o.retention ctx sp host policy, s.attempt (.retention host policy))

end JobOutcomes

/-- What a job backs its resources up with. -/
structure Setup (S : Type) where
  ctx : Ctx
  job : Job
  plugin : Instance
  repository : S
  restoreTest : Bool

/-! ### A resource up to one of its steps -/

section Stages

variable {S : Type} (u : Setup S) (res : Resource) (o : ResourceOutcomes S)

def Artifact.withChecksum (a : Artifact) (sum : Bytes) : Artifact := { a with checksum := sum }

/-- The artifact, if it was made and verified. -/
def Setup.verified : Except Bytes Artifact := do
  let a ← o.backup u.ctx u.plugin res
  o.verify u.ctx u.plugin (u.job.artifact a)
  return u.job.artifact a

/-- With its checksum. -/
def Setup.summed : Except Bytes Artifact := do
  let a ← u.verified res o
  let sum ← o.checksum a.path
  return a.withChecksum sum

/-- With the snapshot it is stored as. -/
def Setup.stored : Except Bytes (Artifact × SnapshotID) := do
  let a ← u.summed res o
  let id ← o.store u.ctx u.repository a
  return (a, id)

/-- If the repository has the snapshot. -/
def Setup.confirmed : Except Bytes (Artifact × SnapshotID) := do
  let (a, id) ← u.stored res o
  o.storageVerify u.ctx u.repository id
  return (a, id)

/-- The row that is written for it, dated by the sixth reading of the clock. -/
def Setup.written (a : Artifact) (id : SnapshotID) : Snapshot :=
  u.job.row a a.checksum id (o.clock 5)

/-- If the row was written and no error was reported. -/
def Setup.recorded : Except Bytes Artifact := do
  let (a, id) ← u.confirmed res o
  (o.record u.ctx (u.written o a id)).result
  return a

/-- If its restore test passed. -/
def Setup.tested : Except Bytes Unit := do
  let a ← u.recorded res o
  o.restore u.ctx u.plugin (a.scratch res)

/-- The identifier of the snapshot, if there is one. -/
def Setup.snapshotID : SnapshotID := match u.stored res o with
  | .ok (_, id) => id
  | .error _ => []

/-- The steps of a resource in order, with whether the resource gets past them. -/
def resourceSteps : List (Attempt × Bool) :=
  [(.backup res.id, succeeded (o.backup u.ctx u.plugin res)),
    (.verify res.id, succeeded (u.verified res o)), (.checksum res.id, succeeded (u.summed res o)),
    (.store res.id, succeeded (u.stored res o)),
    (.storageVerify res.id (u.snapshotID res o), succeeded (u.confirmed res o)),
    (.record res.id (u.snapshotID res o), succeeded (u.recorded res o))] ++
    if u.restoreTest then [(.restore res.id, succeeded (u.tested res o))] else []

/-- The row a resource adds: one if its snapshot was confirmed and the recording
    takes effect. -/
def rowOf : Option Snapshot := match u.confirmed res o with
  | .ok (a, id) =>
      if (o.record u.ctx (u.written o a id)).effective then some (u.written o a id) else none
  | .error _ => none

variable {u res o} {a : Artifact} {id : SnapshotID}

/-! Each stage is its own step on what the stage before gave. -/

theorem verified_eq (h : o.backup u.ctx u.plugin res = .ok a) : u.verified res o =
    (o.verify u.ctx u.plugin (u.job.artifact a)).map fun _ => u.job.artifact a := by
  rw [Setup.verified, h]
  rfl

theorem summed_eq (h : u.verified res o = .ok a) :
    u.summed res o = (o.checksum a.path).map fun sum => a.withChecksum sum := by
  rw [Setup.summed, h]
  rfl

theorem stored_eq (h : u.summed res o = .ok a) :
    u.stored res o = (o.store u.ctx u.repository a).map fun id => (a, id) := by
  rw [Setup.stored, h]
  rfl

theorem confirmed_eq (h : u.stored res o = .ok (a, id)) :
    u.confirmed res o = (o.storageVerify u.ctx u.repository id).map fun _ => (a, id) := by
  rw [Setup.confirmed, h]
  rfl

theorem recorded_eq (h : u.confirmed res o = .ok (a, id)) :
    u.recorded res o = (o.record u.ctx (u.written o a id)).result.map fun _ => a := by
  rw [Setup.recorded, h]
  rfl

theorem tested_eq (h : u.recorded res o = .ok a) :
    u.tested res o = o.restore u.ctx u.plugin (a.scratch res) := by
  rw [Setup.tested, h]
  rfl

theorem succeeded_map {α β : Type} (x : Except Bytes α) (f : α → β) :
    succeeded (x.map f) = succeeded x := by
  cases x <;> rfl

/-- What comes after a failure is not done. -/
theorem failed_bind {α β : Type} (x : Except Bytes α) (f : α → Except Bytes β)
    (h : succeeded x = false) : succeeded (x >>= f) = false := by
  cases x with
  | ok a => cases h
  | error err => rfl

theorem rowOf_confirmed (h : u.confirmed res o = .ok (a, id)) : rowOf u res o =
    if (o.record u.ctx (u.written o a id)).effective then some (u.written o a id) else none := by
  rw [rowOf, h]

/-- Without a confirmed snapshot there is no row. -/
theorem rowOf_none (h : succeeded (u.confirmed res o) = false) : rowOf u res o = none := by
  unfold rowOf
  cases hconfirmed : u.confirmed res o with
  | ok ai =>
      rw [hconfirmed] at h
      cases h
  | error err => rfl

end Stages

namespace Controller

variable {S : Type} {o : JobOutcomes S}

/-- What is proved of the rest of a resource: the row it still adds and the
    steps it still attempts. -/
def Adds (s : JobProgress) (row : Option Snapshot) (steps : List (Attempt × Bool))
    (s' : JobProgress) : Prop :=
  s'.rows = s.rows ++ row.toList ∧ s'.log = s.log ++ attempted steps

/-- Announcing an event reads the clock and attempts nothing. -/
theorem ensures_announce {α : Type} (ctx : Ctx) (e : Event) (k : Unit → Proc S α)
    (s : JobProgress) (post : α → JobProgress → Prop)
    (h : Ensures o.answer (k ()) s.tick post) : Ensures o.answer (publish ctx e >>= k) s post := h

/-- Reading the clock attempts nothing. -/
theorem ensures_now {α : Type} (k : Time → Proc S α) (s : JobProgress) (t : Time)
    (post : α → JobProgress → Prop) (ht : (o.answer (Op.now : Op S) s).1 = t)
    (h : Ensures o.answer (k t) s.tick post) : Ensures o.answer (now >>= k) s post := by
  subst ht
  exact h

/-- One step of a resource: it is attempted, and the rest is if it succeeds. -/
theorem adds_step {α : Type} (p : Proc S (Except Bytes α)) (wrap : Bytes → Bytes)
    (k : α → Proc S (Except Bytes Unit)) (s s₁ : JobProgress) (r : Except Bytes α) (a : Attempt)
    (past : Bool) (row : Option Snapshot) (steps : List (Attempt × Bool))
    (hp : exec o.answer p s = (r, s₁)) (hrows : s₁.rows = s.rows) (hlog : s₁.log = s.log ++ [a])
    (hpast : past = succeeded r) (hrow : past = false → row = none)
    (hok : ∀ x, r = .ok x → Ensures o.answer (k x) s₁ (fun _ => Adds s₁ row steps)) :
    Ensures o.answer (check p wrap k) s (fun _ => Adds s row ((a, past) :: steps)) := by
  subst hpast
  refine ensures_checked p wrap k s s₁ r _ hp ?_ ?_
  · rintro err rfl
    rw [hrow rfl]
    exact ⟨hrows.trans (List.append_nil _).symm, hlog⟩
  · rintro x rfl
    refine ensures_mono _ _ _ _ (hok x rfl) ?_
    rintro _ s' ⟨hrows', hlog'⟩
    refine ⟨by rw [hrows', hrows], ?_⟩
    rw [hlog', hlog, List.append_assoc]
    rfl

/-- Removing the artifact attempts nothing. -/
theorem adds_deferring (a : Artifact) (body : Proc S (Except Bytes Unit)) (s s₀ : JobProgress)
    (row : Option Snapshot) (steps : List (Attempt × Bool))
    (h : Ensures o.answer body s (fun _ => Adds s₀ row steps)) :
    Ensures o.answer (deferring (cleanupArtifact a) body) s (fun _ => Adds s₀ row steps) := by
  refine ensures_deferring _ _ _ _ (ensures_mono _ _ _ _ h (fun r s' h' => ?_))
  unfold cleanupArtifact
  split
  · exact h'
  · exact h'

/-- The recording adds the row, if it takes effect. -/
theorem adds_record (ctx : Ctx) (snap : Snapshot) (wrap : Bytes → Bytes)
    (k : Unit → Proc S (Except Bytes Unit)) (s : JobProgress) (wr : Written) (past : Bool)
    (steps : List (Attempt × Bool)) (hwr : (o.here s).record ctx snap = wr)
    (hpast : past = succeeded wr.result)
    (hok : ∀ s₁, s₁.current = s.current → wr.result = .ok () →
      Ensures o.answer (k ()) s₁ (fun _ => Adds s₁ none steps)) :
    Ensures o.answer (check (store ctx (.recordSnapshot snap)) wrap k) s (fun _ =>
      Adds s (if wr.effective then some snap else none)
        ((.record s.name snap.id, past) :: steps)) := by
  subst hwr hpast
  refine ensures_checked _ wrap k s _ ((o.here s).record ctx snap).result _ rfl ?_ ?_
  · intro err herr
    simp only [Adds, JobOutcomes.answer, JobOutcomes.record, herr, succeeded_error]
    refine ⟨?_, rfl⟩
    split
    · rfl
    · exact (List.append_nil _).symm
  · intro x hx
    refine ensures_mono _ _ _ _ (hok _ rfl hx) ?_
    rintro _ s' ⟨hrows', hlog'⟩
    simp only [JobOutcomes.answer, JobOutcomes.record, Written.done_of_result _ hx,
      Written.effective, if_true] at hrows' hlog' ⊢
    refine ⟨hrows'.trans (List.append_nil _), ?_⟩
    rw [hlog', List.append_assoc]
    rfl

theorem exec_restore (ctx : Ctx) (p : Instance) (a : Artifact) (s : JobProgress) (name : Bytes)
    (h : s.name = name) : exec o.answer (call (.restore ctx p a)) s =
      ((o.resource name).restore ctx p a, s.attempt (.restore name)) := by
  subst h
  rfl

/-- A resource adds its row and attempts its steps. -/
theorem backupResource_isolated (u : Setup S) (res : Resource) (v : Verification)
    (hv : v.enabled = u.restoreTest) (s : JobProgress) :
    Ensures o.answer (backupResource u.ctx u.job u.plugin u.repository res v) s (fun _ =>
      Adds s (rowOf u res (o.resource res.id)) (resourceSteps u res (o.resource res.id))) := by
  -- A step that fails leaves the resource without a row, for its snapshot is not confirmed.
  refine adds_step _ _ _ s (s.enter res.id) ((o.resource res.id).backup u.ctx u.plugin res) _ _ _ _
    rfl rfl rfl rfl
    (fun h => rowOf_none (failed_bind _ _ (failed_bind _ _ (failed_bind _ _ (failed_bind _ _ h)))))
    fun produced hbackup => ?_
  refine adds_deferring _ _ _ _ _ _ ?_
  have hverified := verified_eq hbackup
  refine adds_step _ _ _ _ _ ((o.resource res.id).verify u.ctx u.plugin (u.job.artifact produced)) _
    _ _ _ rfl rfl rfl (by rw [hverified, succeeded_map])
    (fun h => rowOf_none (failed_bind _ _ (failed_bind _ _ (failed_bind _ _ h))))
    fun _ hverify => ?_
  rw [hverify] at hverified
  have hsummed := summed_eq hverified
  refine adds_step _ _ _ _ _ ((o.resource res.id).checksum produced.path) _ _ _ _ rfl rfl rfl
    (by rw [hsummed, succeeded_map]; rfl)
    (fun h => rowOf_none (failed_bind _ _ (failed_bind _ _ h))) fun sum hchecksum => ?_
  have hsummed' : u.summed res (o.resource res.id) =
      .ok ((u.job.artifact produced).withChecksum sum) := by
    rw [hsummed]
    exact congrArg (Except.map _) hchecksum
  have hstored := stored_eq hsummed'
  refine ensures_announce _ _ _ _ _ (ensures_announce _ _ _ _ _ ?_)
  refine adds_step _ _ _ _ _ ((o.resource res.id).store u.ctx u.repository
    ((u.job.artifact produced).withChecksum sum)) _ _ _ _ rfl rfl rfl
    (by rw [hstored, succeeded_map]) (fun h => rowOf_none (failed_bind _ _ h)) fun id hstore => ?_
  rw [hstore] at hstored
  have hconfirmed := confirmed_eq hstored
  have hid : u.snapshotID res (o.resource res.id) = id := by
    rw [Setup.snapshotID, hstored]
    rfl
  rw [hid]
  refine ensures_announce _ _ _ _ _ (ensures_announce _ _ _ _ _ ?_)
  refine adds_step _ _ _ _ _ ((o.resource res.id).storageVerify u.ctx u.repository id) _ _ _ _ rfl
    rfl rfl (by rw [hconfirmed, succeeded_map]) (fun h => rowOf_none h) fun _ hstorageVerify => ?_
  rw [hstorageVerify] at hconfirmed
  have hrecorded := recorded_eq hconfirmed
  rw [rowOf_confirmed hconfirmed]
  refine ensures_announce _ _ _ _ _ (ensures_now _ _ ((o.resource res.id).clock 5) _ rfl ?_)
  refine adds_record _ _ _ _ _ _ _ _ rfl (by rw [hrecorded, succeeded_map])
    fun s₁ hs₁ hrecord => ?_
  rw [hrecord] at hrecorded
  have htested := tested_eq hrecorded
  by_cases henabled : u.restoreTest = true
  · rw [if_pos (hv.trans henabled), if_pos henabled]
    refine ensures_announce _ _ _ _ _ ?_
    have hname : s₁.tick.name = res.id := by
      change s₁.current.getD [] = res.id
      rw [hs₁]
      rfl
    refine adds_step _ _ _ s₁.tick (s₁.tick.attempt (.restore res.id))
      ((o.resource res.id).restore u.ctx u.plugin
        (((u.job.artifact produced).withChecksum sum).scratch res)) _ _ _ _
      (exec_restore _ _ _ _ _ hname) rfl rfl (by rw [htested]) (fun _ => rfl) fun _ _ => ?_
    exact ⟨(List.append_nil _).symm, (List.append_nil _).symm⟩
  · rw [if_neg (hv ▸ henabled), if_neg henabled]
    exact ⟨(List.append_nil _).symm, (List.append_nil _).symm⟩

/-- The rows the resources of a job add, in order. -/
def rowsOf (u : Setup S) (o : JobOutcomes S) (resources : List Resource) : List Snapshot :=
  resources.filterMap (fun res => rowOf u res (o.resource res.id))

/-- The steps of the resources of a job that are attempted, in order. -/
def resourceLog (u : Setup S) (o : JobOutcomes S) (resources : List Resource) : List Attempt :=
  resources.flatMap (fun res => attempted (resourceSteps u res (o.resource res.id)))

/-- The resources add their rows and attempt their steps one after another. -/
theorem backupResources_isolated (u : Setup S) (v : Verification)
    (hv : v.enabled = u.restoreTest) (resources : List Resource) (s : JobProgress) :
    Ensures o.answer (backupResources u.ctx u.job u.plugin u.repository v resources) s
      (fun _ s' => s'.rows = s.rows ++ rowsOf u o resources ∧
        s'.log = s.log ++ resourceLog u o resources) := by
  induction resources generalizing s with
  | nil => exact ⟨(List.append_nil _).symm, (List.append_nil _).symm⟩
  | cons res rest ih =>
      refine ensures_bind _ _ _ _ (ensures_mono _ _ _ _
        (backupResource_isolated u res v hv s) ?_)
      rintro r s₁ ⟨hrows₁, hlog₁⟩
      refine ensures_bind _ _ _ _ (ensures_mono _ _ _ _ (ih s₁) ?_)
      rintro errs s₂ ⟨hrows₂, hlog₂⟩
      have hrows : s₂.rows = s.rows ++ rowsOf u o (res :: rest) := by
        rw [hrows₂, hrows₁, List.append_assoc, rowsOf, rowsOf, List.filterMap_cons]
        cases rowOf u res (o.resource res.id) with
        | none => rfl
        | some snap => rfl
      have hlog : s₂.log = s.log ++ resourceLog u o (res :: rest) := by
        rw [hlog₂, hlog₁, List.append_assoc, resourceLog, resourceLog, List.flatMap_cons]
      cases r with
      | ok u => exact ⟨hrows, hlog⟩
      | error err => exact ⟨hrows, hlog⟩

/-- What a job backs its resources up with, for a server, a repository and a
    configuration. -/
def setup (c : Controller S) (job : Job) (srv : Server) (sp : S) (cfg : Option PluginConfig) :
    Setup S where
  ctx := c.pipelineCtx
  job := job
  plugin := ⟨job.plugin, srv, cfg, c.tempDir⟩
  repository := sp
  restoreTest := (resolveVerification c.verification srv.verification).enabled

/-- A job that gets to its resources: it is picked up, and its configuration,
    its plugin and the discovery succeed. -/
structure Reached (c : Controller S) (o : JobOutcomes S) (job : Job) (u : Setup S)
    (resources : List Resource) : Prop where
  picked : ∃ srv sp found cfg, u = c.setup job srv sp cfg ∧
    c.inventory.servers.lookup job.host = some srv ∧ job.plugin ∈ c.factories ∧
    c.storageFor job.host = .ok sp ∧
    o.settings c.pipelineCtx job.host job.plugin = .ok found ∧
    configFrom job.host job.plugin srv found = .ok cfg
  marked : (o.status .caller job.id .inProgress).result = .ok ()
  built : o.factory u.plugin = .ok ()
  discovered : o.discover u.ctx u.plugin = .ok resources

/-- There is only one way to get there. -/
theorem reached_unique (c : Controller S) (job : Job) (u u' : Setup S)
    (resources resources' : List Resource) (h : Reached c o job u resources)
    (h' : Reached c o job u' resources') : u' = u ∧ resources' = resources := by
  have hsetup : u' = u := by
    rcases h.picked with ⟨srv, sp, found, cfg, rfl, hsrv, _, hsp, hset, hcfg⟩
    rcases h'.picked with ⟨srv', sp', found', cfg', rfl, hsrv', _, hsp', hset', hcfg'⟩
    cases hsrv.symm.trans hsrv'
    cases hsp.symm.trans hsp'
    cases hset.symm.trans hset'
    cases hcfg.symm.trans hcfg'
    rfl
  subst hsetup
  cases h.discovered.symm.trans h'.discovered
  exact ⟨rfl, rfl⟩

/-- What comes before a job's resources. -/
def preparation : List Attempt := [.settings, .factory, .discover]

/-- What a job adds, if it gets to its resources, and if not. -/
def JobPost (c : Controller S) (o : JobOutcomes S) (job : Job) (s s' : JobProgress) : Prop :=
  (∀ u resources, Reached c o job u resources →
    s'.rows = s.rows ++ rowsOf u o resources ∧
      s'.log = s.log ++ (preparation ++ resourceLog u o resources ++
        [.retention job.host job.policy])) ∧
  ((∀ u resources, ¬ Reached c o job u resources) →
    s'.rows = s.rows ∧ ∃ k, s'.log = s.log ++ preparation.take k)

/-- A job that stops before its resources. -/
theorem post_stopped (c : Controller S) (job : Job) (s s' : JobProgress) (k : Nat)
    (hnot : ∀ u resources, ¬ Reached c o job u resources) (hrows : s'.rows = s.rows)
    (hlog : s'.log = s.log ++ preparation.take k) : JobPost c o job s s' :=
  ⟨fun u resources h => absurd h (hnot u resources), fun _ => ⟨hrows, k, hlog⟩⟩

/-- What a pipeline adds. -/
theorem runPipeline_isolated (c : Controller S) (job : Job) (srv : Server) (sp : S)
    (hsrv : c.inventory.servers.lookup job.host = some srv) (hplugin : job.plugin ∈ c.factories)
    (hsp : c.storageFor job.host = .ok sp)
    (hmark : (o.status .caller job.id .inProgress).result = .ok ()) (s : JobProgress) :
    Ensures o.answer (runPipeline c c.pipelineCtx job srv sp) s (fun _ => JobPost c o job s) := by
  -- Each of the first three steps ends the job where it fails, and then the job was not one that
  -- reaches its resources.
  refine ensures_checked _ _ _ s (s.attempt .settings) _ _
    (exec_resolve _ _ job.host job.plugin srv s _
      (o.settings c.pipelineCtx job.host job.plugin) rfl) ?_ ?_
  · intro err herr
    refine post_stopped c job s _ 1 (fun u resources h => ?_) rfl rfl
    rcases h.picked with ⟨srv', sp', found, cfg, _, hsrv', _, _, hset, hcfg⟩
    cases hsrv.symm.trans hsrv'
    rw [hset] at herr
    cases hcfg.symm.trans herr
  intro cfg hcfg
  -- From here on the setup is known.
  have hsetup : ∀ u resources, Reached c o job u resources → u = c.setup job srv sp cfg := by
    intro u resources h
    rcases h.picked with ⟨srv', sp', found, cfg', rfl, hsrv', _, hsp', hset, hcfg'⟩
    cases hsrv.symm.trans hsrv'
    cases hsp.symm.trans hsp'
    rw [hset] at hcfg
    cases hcfg.symm.trans hcfg'
    rfl
  refine ensures_checked _ _ _ _ ((s.attempt .settings).attempt .factory)
    (o.factory (c.setup job srv sp cfg).plugin) _ rfl ?_ ?_
  · intro err herr
    refine post_stopped c job s _ 2 (fun u resources h => ?_) rfl (List.append_assoc _ _ _)
    rw [← hsetup u resources h, h.built] at herr
    cases herr
  intro _ hfactory
  refine ensures_announce _ _ _ _ _ ?_
  refine ensures_checked _ _ _ _ ((((s.attempt .settings).attempt .factory).tick).attempt .discover)
    (o.discover c.pipelineCtx (c.setup job srv sp cfg).plugin) _ rfl ?_ ?_
  · intro err herr
    refine post_stopped c job s _ 3 (fun u resources h => ?_) rfl ?_
    · cases hsetup u resources h
      cases h.discovered.symm.trans herr
    · simp only [JobProgress.attempt, JobProgress.tick, List.append_assoc]
      rfl
  intro resources hdiscover
  refine ensures_announce _ _ _ _ _ ?_
  refine ensures_bind _ _ _ _ (ensures_mono _ _ _ _
    (backupResources_isolated (c.setup job srv sp cfg) _ rfl resources _) ?_)
  rintro errs s₁ ⟨hrows, hlog⟩
  -- All three succeeded, so the job is one that does.
  have hreached : Reached c o job (c.setup job srv sp cfg) resources := by
    refine ⟨?_, hmark, hfactory, hdiscover⟩
    cases hset : o.settings c.pipelineCtx job.host job.plugin with
    | error err =>
        rw [hset] at hcfg
        cases hcfg
    | ok found =>
        rw [hset] at hcfg
        exact ⟨srv, sp, found, cfg, rfl, hsrv, hplugin, hsp, rfl, hcfg⟩
  -- The retention is attempted last, and whatever it answers adds no row.
  have hpost : ∀ s', s'.rows = s₁.rows → s'.log = s₁.log ++ [.retention job.host job.policy] →
      JobPost c o job s s' := by
    intro s' hrows' hlog'
    refine ⟨fun u resources' h => ?_, fun h => absurd hreached (h _ resources)⟩
    rcases reached_unique c job _ u resources resources' hreached h with ⟨rfl, rfl⟩
    rw [hrows', hlog', hrows, hlog]
    refine ⟨rfl, ?_⟩
    simp only [JobProgress.attempt, JobProgress.tick, List.append_assoc]
    rfl
  refine ensures_bind _ _ _ _ (ensures_op _ _ _ ?_)
  simp only [JobOutcomes.answer]
  cases o.retention c.pipelineCtx sp job.host job.policy with
  | error err => exact hpost _ rfl rfl
  | ok u => exact ensures_announce _ _ _ _ _ (hpost _ rfl rfl)

/-- What a job adds. -/
theorem runJob_isolated (c : Controller S) (job : Job) (s : JobProgress) :
    Ensures o.answer (runJob c job) s (fun _ => JobPost c o job s) := by
  -- A job that is not picked up adds nothing.
  have hidle : (∀ u resources, ¬ Reached c o job u resources) → JobPost c o job s s :=
    fun hnot => post_stopped c job s s 0 hnot rfl (List.append_nil _).symm
  unfold runJob
  cases hsrv : c.inventory.servers.lookup job.host with
  | none =>
      refine hidle (fun u resources h => ?_)
      rcases h.picked with ⟨srv', _, _, _, _, hsrv', _⟩
      cases hsrv.symm.trans hsrv'
  | some srv =>
      simp only
      by_cases hplugin : job.plugin ∈ c.factories
      · rw [if_neg (not_not_intro hplugin)]
        cases hsp : c.storageFor job.host with
        | error err =>
            refine hidle (fun u resources h => ?_)
            rcases h.picked with ⟨_, sp', _, _, _, _, _, hsp', _⟩
            cases hsp.symm.trans hsp'
        | ok sp =>
            refine ensures_checked _ _ _ s s (o.status .caller job.id .inProgress).result _ rfl ?_
              ?_
            · intro err herr
              refine hidle (fun u resources h => ?_)
              cases h.marked.symm.trans herr
            intro _ hmark
            refine ensures_announce _ _ _ _ _ (ensures_bind _ _ _ _ (ensures_mono _ _ _ _
              (runPipeline_isolated c job srv sp hsrv hplugin hsp hmark s.tick) ?_))
            intro r s₁ hpost
            exact ensures_announce _ _ _ _ _ hpost
      · rw [if_pos hplugin]
        refine hidle (fun u resources h => ?_)
        rcases h.picked with ⟨_, _, _, _, _, _, hplugin', _⟩
        exact hplugin hplugin'

/-- What a job has done when it returns, given the rows there are. -/
def jobProgress (c : Controller S) (o : JobOutcomes S) (job : Job) (rows : List Snapshot) :
    JobProgress :=
  (exec o.answer (runJob c job) ⟨rows, [], none, 0⟩).2

/-- The same outcomes, but for those of one resource. -/
def changing (o : JobOutcomes S) (res : Bytes) (out : ResourceOutcomes S) : JobOutcomes S :=
  { o with resource := Function.update o.resource res out }

section Steps

variable (u : Setup S)

/-- The steps of a resource are different ones. -/
theorem resourceSteps_nodup (res : Resource) (out : ResourceOutcomes S) :
    ((resourceSteps u res out).map Prod.fst).Nodup := by
  unfold resourceSteps
  split <;> simp

/-- The steps of a resource are about it. -/
theorem resourceSteps_resource (res : Resource) (out : ResourceOutcomes S) :
    ∀ t ∈ resourceSteps u res out, t.1.resource = some res.id := by
  intro t ht
  rcases List.mem_append.mp ht with ht | ht
  · simp only [List.mem_cons, List.not_mem_nil, or_false] at ht
    rcases ht with rfl | rfl | rfl | rfl | rfl | rfl <;> rfl
  · split at ht
    · rw [List.mem_singleton.mp ht]
      rfl
    · cases ht

/-- A step of a resource is among the attempts of a job if it is among those
    of the resource. -/
theorem mem_resourceLog_iff (resources : List Resource) (hnodup : (resources.map Resource.id).Nodup)
    (res : Resource) (hres : res ∈ resources) (a : Attempt) (ha : a.resource = some res.id) :
    a ∈ resourceLog u o resources ↔ a ∈ attempted (resourceSteps u res (o.resource res.id)) := by
  rw [resourceLog, List.mem_flatMap]
  constructor
  · rintro ⟨res', hres', hmem⟩
    rcases List.mem_map.mp ((attempted_isPrefix _).subset hmem) with ⟨t, ht, rfl⟩
    have hid := resourceSteps_resource u res' (o.resource res'.id) t ht
    rw [ha] at hid
    -- Resources with one identifier are one.
    rw [List.inj_on_of_nodup_map hnodup hres hres' (Option.some_inj.mp hid)]
    exact hmem
  · exact fun hmem => ⟨res, hres, hmem⟩

/-- A recording comes after the verification of the same snapshot. -/
theorem precedes_steps (res : Resource) (res' : Bytes) (id : SnapshotID)
    (out : ResourceOutcomes S) :
    Precedes (.storageVerify res' id) (.record res' id)
      ((resourceSteps u res out).map Prod.fst) := by
  rw [resourceSteps, List.map_append]
  refine precedes_append ?_ (precedes_of_not_mem ?_)
  · intro before after h
    rcases before with
      _ | ⟨_, _ | ⟨_, _ | ⟨_, _ | ⟨_, _ | ⟨_, _ | ⟨_, before⟩⟩⟩⟩⟩⟩ <;> simp at h
    -- The recording is the sixth step and the verification the fifth.
    rcases h with ⟨rfl, rfl, rfl, rfl, rfl, ⟨rfl, rfl⟩, _⟩
    simp
  · split
    · simp
    · exact List.not_mem_nil

/-- The rows of a job are those of its resources before one, its own, and those
    after it. -/
theorem rowsOf_split (before after : List Resource) (res : Resource) :
    rowsOf u o (before ++ res :: after) =
      rowsOf u o before ++ (rowOf u res (o.resource res.id)).toList ++ rowsOf u o after := by
  rw [rowsOf, List.filterMap_append, List.filterMap_cons, List.append_assoc]
  cases rowOf u res (o.resource res.id) with
  | none => rfl
  | some snap => rfl

/-- Resources other than the changed one add the same rows. -/
theorem rowsOf_changing (res : Bytes) (out : ResourceOutcomes S) (resources : List Resource)
    (h : ∀ r ∈ resources, r.id ≠ res) :
    rowsOf u (changing o res out) resources = rowsOf u o resources := by
  refine List.filterMap_congr (fun r hr => ?_)
  simp only [changing, Function.update_of_ne (h r hr)]

end Steps

/-- Changed outcomes of a resource do not change whether a job gets to it. -/
theorem reached_changing (c : Controller S) (job : Job) (u : Setup S) (resources : List Resource)
    (res : Bytes) (out : ResourceOutcomes S) (h : Reached c o job u resources) :
    Reached c (changing o res out) job u resources :=
  ⟨h.picked, h.marked, h.built, h.discovered⟩

section Job

variable (c : Controller S) (job : Job) (rows : List Snapshot)

/-- A job that gets to its resources, by what it adds. -/
theorem progress_reached (u : Setup S) (resources : List Resource)
    (h : Reached c o job u resources) :
    (jobProgress c o job rows).rows = rows ++ rowsOf u o resources ∧
      (jobProgress c o job rows).log = preparation ++ resourceLog u o resources ++
          [.retention job.host job.policy] := by
  rcases (runJob_isolated (o := o) c job ⟨rows, [], none, 0⟩).1 u resources h with ⟨hrows, hlog⟩
  exact ⟨hrows, hlog.trans (List.nil_append _)⟩

theorem not_mem_preparation (a : Attempt) (ha : a.resource ≠ none) : a ∉ preparation := by
  intro hmem
  simp only [preparation, List.mem_cons, List.not_mem_nil, or_false] at hmem
  rcases hmem with rfl | rfl | rfl <;> exact ha rfl

/-- Only the slot of the changed resource is filled differently. -/
theorem rows_changing (u : Setup S) (resources : List Resource)
    (h : Reached c o job u resources) (hnodup : (resources.map Resource.id).Nodup)
    (res : Resource) (hres : res ∈ resources) (out : ResourceOutcomes S) :
    ∃ before after,
      (jobProgress c o job rows).rows =
        before ++ (rowOf u res (o.resource res.id)).toList ++ after ∧
      (jobProgress c (changing o res.id out) job rows).rows =
        before ++ (rowOf u res out).toList ++ after := by
  rcases List.append_of_mem hres with ⟨before, after, rfl⟩
  rw [List.map_append, List.map_cons, List.nodup_append, List.nodup_cons] at hnodup
  have hbefore : ∀ r ∈ before, r.id ≠ res.id := fun r hr =>
    hnodup.2.2 r.id (List.mem_map_of_mem hr) res.id List.mem_cons_self
  have hafter : ∀ r ∈ after, r.id ≠ res.id := fun r hr heq =>
    hnodup.2.1.1 (heq ▸ List.mem_map_of_mem hr)
  refine ⟨rows ++ rowsOf u o before, rowsOf u o after, ?_, ?_⟩
  · rw [(progress_reached c job rows u _ h).1, rowsOf_split]
    simp only [List.append_assoc]
  · rw [(progress_reached c job rows u _ (reached_changing c job u _ res.id out h)).1,
      rowsOf_split, rowsOf_changing u res.id out before hbefore,
      rowsOf_changing u res.id out after hafter]
    simp only [changing, Function.update_self, List.append_assoc]

/-- A step of a resource is attempted exactly if those before it succeeded. -/
theorem step_attempted (u : Setup S) (resources : List Resource)
    (h : Reached c o job u resources) (hnodup : (resources.map Resource.id).Nodup)
    (res : Resource) (hres : res ∈ resources) (before after : List (Attempt × Bool))
    (step : Attempt × Bool)
    (hsteps : resourceSteps u res (o.resource res.id) = before ++ step :: after) :
    step.1 ∈ (jobProgress c o job rows).log ↔ ∀ t ∈ before, t.2 = true := by
  have hname : step.1.resource = some res.id := by
    refine resourceSteps_resource u res (o.resource res.id) step ?_
    rw [hsteps]
    exact List.mem_append_right _ List.mem_cons_self
  have hnd := resourceSteps_nodup u res (o.resource res.id)
  -- A step of a resource is none of the job's own, so it was attempted for a resource.
  have hlog : step.1 ∈ (jobProgress c o job rows).log ↔
      step.1 ∈ resourceLog u o resources := by
    rw [(progress_reached c job rows u _ h).2, List.mem_append, List.mem_append,
      List.mem_singleton]
    constructor
    · rintro ((hmem | hmem) | hmem)
      · exact absurd hmem (not_mem_preparation _ (by rw [hname]; exact Option.some_ne_none _))
      · exact hmem
      · rw [hmem] at hname
        cases hname
    · exact fun hmem => Or.inl (Or.inr hmem)
  rw [hlog, mem_resourceLog_iff u resources hnodup res hres step.1 hname, hsteps]
  rw [hsteps] at hnd
  exact mem_attempted_iff before after step hnd

/-- A snapshot is recorded only after it was verified. -/
theorem verified_before_recorded (u : Setup S) (resources : List Resource)
    (h : Reached c o job u resources) (res : Bytes) (id : SnapshotID) :
    Precedes (.storageVerify res id) (.record res id) (jobProgress c o job rows).log := by
  rw [(progress_reached c job rows u _ h).2]
  refine precedes_append (precedes_append (precedes_of_not_mem ?_) (precedes_flatMap _ _
    fun r _ => precedes_attempted _ (precedes_steps u r res id _))) (precedes_of_not_mem ?_)
  · exact not_mem_preparation _ (Option.some_ne_none _)
  · rw [List.mem_singleton]
    exact fun h => by cases h

/-- Retention comes once and last. -/
theorem retention_last (u : Setup S) (resources : List Resource)
    (h : Reached c o job u resources) :
    ∃ init, (jobProgress c o job rows).log = init ++ [.retention job.host job.policy] ∧
      ∀ host policy, .retention host policy ∉ init := by
  refine ⟨_, (progress_reached c job rows u _ h).2, fun host policy hmem => ?_⟩
  rcases List.mem_append.mp hmem with hmem | hmem
  · simp [preparation] at hmem
  · rcases List.mem_flatMap.mp hmem with ⟨r, _, hmem⟩
    rcases List.mem_map.mp ((attempted_isPrefix _).subset hmem) with ⟨t, ht, hret⟩
    have hid := resourceSteps_resource u r _ t ht
    rw [hret] at hid
    cases hid

/-- A job that gets to its resources adds a row for each whose snapshot is confirmed
    and whose recording takes effect, in the order of discovery, and no resource's row
    depends on another resource. A step of a resource is attempted exactly if those
    before it succeeded, a snapshot is recorded only after it was verified, and
    retention is applied once and last. A job that does not get there adds no row and
    applies no retention. -/
theorem isolated (o : JobOutcomes S) :
    (∀ u resources, Reached c o job u resources → (resources.map Resource.id).Nodup →
      (jobProgress c o job rows).rows = rows ++ rowsOf u o resources ∧
      (∀ res ∈ resources, ∀ out, ∃ before after,
        (jobProgress c o job rows).rows =
          before ++ (rowOf u res (o.resource res.id)).toList ++ after ∧
        (jobProgress c (changing o res.id out) job rows).rows =
          before ++ (rowOf u res out).toList ++ after) ∧
      (∀ res ∈ resources, ∀ before step after,
        resourceSteps u res (o.resource res.id) = before ++ step :: after →
        (step.1 ∈ (jobProgress c o job rows).log ↔ ∀ t ∈ before, t.2 = true)) ∧
      (∀ res id, Precedes (.storageVerify res id) (.record res id) (jobProgress c o job rows).log) ∧
      ∃ init, (jobProgress c o job rows).log = init ++ [.retention job.host job.policy] ∧
        ∀ host policy, .retention host policy ∉ init) ∧
    ((∀ u resources, ¬ Reached c o job u resources) →
      (jobProgress c o job rows).rows = rows ∧
        ∀ host policy, .retention host policy ∉ (jobProgress c o job rows).log) := by
  -- A job that reaches its resources, and one that does not.
  constructor
  · intro u resources h hnodup
    refine ⟨(progress_reached c job rows u resources h).1,
      rows_changing c job rows u resources h hnodup, fun res hres before step after hsteps => ?_,
      verified_before_recorded c job rows u resources h,
      retention_last c job rows u resources h⟩
    exact step_attempted c job rows u resources h hnodup res hres before after step hsteps
  · intro hnot
    rcases (runJob_isolated (o := o) c job ⟨rows, [], none, 0⟩).2 hnot with ⟨hrows, k, hlog⟩
    refine ⟨hrows, fun host policy hmem => ?_⟩
    rw [show (jobProgress c o job rows).log = _ from hlog, List.nil_append] at hmem
    have hprep := List.mem_of_mem_take hmem
    simp [preparation] at hprep

end Job

/-- What the calls of a job with one resource answer, whose recording ends so. -/
def siteOutcomes (wr : Written) : JobOutcomes Unit where
  status := fun _ _ _ => .done
  settings := fun _ _ _ => .ok none
  factory := fun _ => .ok ()
  discover := fun _ _ => .ok [⟨"/srv/site", "/srv/site"⟩]
  resource := fun _ =>
    { backup := fun _ _ res => .ok ⟨res.id, [], [], "/tmp/bop/fs-1.tar.gz", 512, [], false, 7⟩
      verify := fun _ _ _ => .ok ()
      checksum := fun _ => .ok "9f86"
      store := fun _ _ _ => .ok "40dc1520"
      storageVerify := fun _ _ _ => .ok ()
      record := fun _ _ => wr
      restore := fun _ _ _ => .ok ()
      remove := fun _ => .ok ()
      clock := fun _ => 8 }
  retention := fun _ _ _ _ => .ok ()
  clock := fun _ => 9

/-- The row it adds. -/
def siteRow : Snapshot := ⟨"40dc1520", filesJob.id, "web", "files", 512, "9f86", 8⟩

/-- Such a job gets to its resource. -/
theorem reached_site (wr : Written) :
    Reached filesController (siteOutcomes wr) filesJob
      (filesController.setup filesJob filesServer () none) [⟨"/srv/site", "/srv/site"⟩] :=
  ⟨⟨filesServer, (), none, none, rfl, by rfl, by decide, by rfl, rfl, by rfl⟩, rfl, rfl, rfl⟩

/-- It adds one row. -/
theorem isolated_recorded :
    (jobProgress filesController (siteOutcomes .done) filesJob []).rows = [siteRow] :=
  ((isolated filesController filesJob [] (siteOutcomes .done)).1 _ _ (reached_site .done)
    (by decide)).1

/-- The recording took effect and was reported as failed: the row is there, although
    its recording is not among the steps that succeeded. -/
theorem not_isolated_unheard : ¬ ∀ (c : Controller Unit) (job : Job) (rows : List Snapshot)
    (o : JobOutcomes Unit) (u : Setup Unit) (resources : List Resource),
    Reached c o job u resources → (resources.map Resource.id).Nodup →
    ∀ snap ∈ (jobProgress c o job rows).rows, snap ∈ rows ∨ ∃ res ∈ resources,
      succeeded (u.recorded res (o.resource res.id)) = true := by
  intro h
  have hrows : siteRow ∈ (jobProgress filesController (siteOutcomes (.unheard "bad connection"))
      filesJob []).rows := by
    decide
  rcases h filesController filesJob [] (siteOutcomes (.unheard "bad connection")) _ _
    (reached_site _) (by decide) siteRow hrows with hold | ⟨res, hres, hrecorded⟩
  · cases hold
  · rw [List.mem_singleton.mp hres] at hrecorded
    cases hrecorded

end Controller

end Bop
