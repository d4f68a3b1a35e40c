import Bop.Controller.RunJob

/-!
# What a Pipeline Calls

A pipeline begins by looking up the plugin's stored settings and then only
makes the calls listed in `JobCalls`. Whatever holds of those calls holds of
everything a pipeline does, so a property of the pipeline that is about each
call on its own needs no look at the program. `PipelineCalls` is the same for
properties that do not ask what is announced.

## Main definitions

* `JobCalls`, `PipelineCalls`: A property of calls that a pipeline's calls
  have.
* `ArtifactCalls`: The same for what is done with an artifact.

## Theorems

* `backupResource_shape`: An artifact is made, worked with and cleaned up.
* `runPipeline_begins`: A pipeline is its first call and the rest.
* `calls_runJob`: What `RunJob` calls.
* `calls_buildPlugin`: What looking a plugin up calls.
-/

namespace Bop

open Prog

variable {S : Type}

/-- The property holds of every call that a job's pipeline with this repository
    makes after its first. -/
structure PipelineCalls (P : Op S → Prop) (job : Job) (sp : S) : Prop where
  now : P .now
  publish : ∀ ctx e, P (.publish ctx e)
  factory : ∀ p, P (.factory p)
  discover : ∀ ctx p, P (.discover ctx p)
  backup : ∀ ctx p res, P (.backup ctx p res)
  verify : ∀ ctx p a, P (.verify ctx p a)
  restore : ∀ ctx p a, P (.restore ctx p a)
  checksumFile : ∀ path, P (.checksumFile path)
  removeFile : ∀ path, P (.removeFile path)
  storeArtifact : ∀ ctx a, P (.storeArtifact ctx sp a)
  verifySnapshot : ∀ ctx id, P (.verifySnapshot ctx sp id)
  recordSnapshot : ∀ ctx snap, P (.store ctx (.recordSnapshot snap))
  applyRetention : ∀ ctx, P (.applyRetention ctx sp job.host job.policy)

/-- The same, with the events a pipeline announces: they are about its job, and
    none of them says how the job ended. -/
structure JobCalls (P : Op S → Prop) (job : Job) (sp : S) : Prop where
  now : P .now
  publish : ∀ ctx (type : EventType) resource fields timestamp, type.outcome = none →
    P (.publish ctx ⟨type, job.id, job.host, job.plugin, resource, fields, timestamp⟩)
  factory : ∀ p, P (.factory p)
  discover : ∀ ctx p, P (.discover ctx p)
  backup : ∀ ctx p res, P (.backup ctx p res)
  verify : ∀ ctx p a, P (.verify ctx p a)
  restore : ∀ ctx p a, P (.restore ctx p a)
  checksumFile : ∀ path, P (.checksumFile path)
  removeFile : ∀ path, P (.removeFile path)
  storeArtifact : ∀ ctx a, P (.storeArtifact ctx sp a)
  verifySnapshot : ∀ ctx id, P (.verifySnapshot ctx sp id)
  recordSnapshot : ∀ ctx snap, P (.store ctx (.recordSnapshot snap))
  applyRetention : ∀ ctx, P (.applyRetention ctx sp job.host job.policy)

/-- The property holds of every call that a pipeline makes with an artifact, apart
    from those that make it and remove it. -/
structure ArtifactCalls (P : Op S → Prop) (job : Job) (sp : S) : Prop where
  now : P .now
  publish : ∀ ctx (type : EventType) resource fields timestamp, type.outcome = none →
    P (.publish ctx ⟨type, job.id, job.host, job.plugin, resource, fields, timestamp⟩)
  verify : ∀ ctx p a, P (.verify ctx p a)
  restore : ∀ ctx p a, P (.restore ctx p a)
  checksumFile : ∀ path, P (.checksumFile path)
  storeArtifact : ∀ ctx a, P (.storeArtifact ctx sp a)
  verifySnapshot : ∀ ctx id, P (.verifySnapshot ctx sp id)
  recordSnapshot : ∀ ctx snap, P (.store ctx (.recordSnapshot snap))

variable {P : Op S → Prop} {job : Job} {sp : S}

theorem PipelineCalls.jobCalls (h : PipelineCalls P job sp) : JobCalls P job sp where
  now := h.now
  publish := fun ctx _ _ _ _ _ => h.publish ctx _
  factory := h.factory
  discover := h.discover
  backup := h.backup
  verify := h.verify
  restore := h.restore
  checksumFile := h.checksumFile
  removeFile := h.removeFile
  storeArtifact := h.storeArtifact
  verifySnapshot := h.verifySnapshot
  recordSnapshot := h.recordSnapshot
  applyRetention := h.applyRetention

theorem JobCalls.artifactCalls (h : JobCalls P job sp) : ArtifactCalls P job sp where
  now := h.now
  publish := h.publish
  verify := h.verify
  restore := h.restore
  checksumFile := h.checksumFile
  storeArtifact := h.storeArtifact
  verifySnapshot := h.verifySnapshot
  recordSnapshot := h.recordSnapshot

/-- Announcing something a pipeline announces. -/
theorem calls_jobEvent (h : JobCalls P job sp) (ctx : Ctx) (type : EventType) (resource : Bytes)
    (fields : List (Bytes × Bytes)) (ht : type.outcome = none) :
    Calls P (publish ctx (Controller.jobEvent type job resource fields)) :=
  ⟨h.now, fun timestamp => ⟨h.publish ctx type resource fields timestamp ht, fun _ => trivial⟩⟩

theorem calls_publish (hnow : P .now) (hpub : ∀ ctx e, P (.publish ctx e)) (ctx : Ctx)
    (e : Event) : Calls P (publish ctx e) :=
  ⟨hnow, fun _ => ⟨hpub ctx _, fun _ => trivial⟩⟩

/-- One call on its own. -/
theorem calls_call (o : Op S) (h : P o) : Calls P (call o) := ⟨h, fun _ => trivial⟩

namespace Controller

theorem calls_cleanupArtifact (h : JobCalls P job sp) (a : Artifact) :
    Calls P (cleanupArtifact a) := by
  unfold cleanupArtifact
  split
  · trivial
  · exact calls_bind P _ _ (calls_call _ (h.removeFile _)) (fun _ => trivial)

/-- A resource is backed up, and the artifact that comes out of it is cleaned up
    whatever else is done with it. -/
theorem backupResource_shape (ctx : Ctx) (job : Job) (p : Instance) (sp : S) (res : Resource)
    (v : Verification) :
    ∃ body : Artifact → Proc S (Except Bytes Unit),
      backupResource ctx job p sp res v =
        check (call (.backup ctx p res)) ("backup: " ++ ·) (fun produced =>
          deferring (cleanupArtifact { produced with host := job.host, plugin := job.plugin })
            (body produced)) ∧
      ∀ P, ArtifactCalls P job sp → ∀ produced, Calls P (body produced) := by
  refine ⟨_, rfl, fun P h produced => ?_⟩
  -- An event is a reading of the clock and a call.
  have hevent : ∀ (type : EventType) resource fields, type.outcome = none →
      Calls P (publish ctx (jobEvent type job resource fields)) := fun type resource fields ht =>
    ⟨h.now, fun timestamp => calls_call _ (h.publish ctx type resource fields timestamp ht)⟩
  -- The steps in the order of the source. What one of them answers is used by the next.
  refine calls_check P _ _ _ (calls_call _ (h.verify _ _ _)) fun _ => ?_
  refine calls_check P _ _ _ (calls_call _ (h.checksumFile _)) fun checksum => ?_
  refine calls_bind P _ _ (hevent _ _ _ rfl) fun _ => ?_
  refine calls_bind P _ _ (hevent _ _ _ rfl) fun _ => ?_
  refine calls_check P _ _ _ (calls_call _ (h.storeArtifact _ _)) fun id => ?_
  refine calls_bind P _ _ (hevent _ _ _ rfl) fun _ => ?_
  refine calls_bind P _ _ (hevent _ _ _ rfl) fun _ => ?_
  refine calls_check P _ _ _ (calls_call _ (h.verifySnapshot _ _)) fun _ => ?_
  refine calls_bind P _ _ (hevent _ _ _ rfl) fun _ => ⟨h.now, fun createdAt => ?_⟩
  refine calls_check P _ _ _ (calls_call _ (h.recordSnapshot _ _)) fun _ => ?_
  -- The restore test comes last, and only where it is enabled.
  split
  · refine calls_bind P _ _ (hevent _ _ _ rfl) fun _ => ?_
    refine calls_check P _ _ _ (calls_call _ (h.restore _ _ _)) fun _ => ?_
    exact calls_bind P _ _ (hevent _ _ _ rfl) fun _ => trivial
  · trivial

theorem calls_backupResource (h : JobCalls P job sp) (ctx : Ctx) (p : Instance)
    (res : Resource) (v : Verification) :
    Calls P (backupResource ctx job p sp res v) := by
  rcases backupResource_shape ctx job p sp res v with ⟨body, heq, hbody⟩
  rw [heq]
  refine calls_check P _ _ _ (calls_call _ (h.backup _ _ _)) fun produced => ?_
  exact calls_bind P _ _ (hbody P h.artifactCalls produced) fun _ =>
    calls_bind P _ _ (calls_cleanupArtifact h _) fun _ => trivial

theorem calls_backupResources (h : JobCalls P job sp) (ctx : Ctx) (p : Instance)
    (v : Verification) (resources : List Resource) :
    Calls P (backupResources ctx job p sp v resources) := by
  induction resources with
  | nil => trivial
  | cons res rest ih =>
      refine calls_bind P _ _ (calls_backupResource h ctx p res v) fun r => ?_
      refine calls_bind P _ _ ih fun errs => ?_
      cases r <;> trivial

theorem calls_runInstance (h : JobCalls P job sp) (ctx : Ctx) (p : Instance)
    (v : Verification) : Calls P (runInstance ctx job p sp v) := by
  refine calls_check P _ _ _ (calls_call _ (h.factory _)) fun _ => ?_
  refine calls_bind P _ _ (calls_jobEvent h _ _ _ _ rfl) fun _ => ?_
  refine calls_check P _ _ _ (calls_call _ (h.discover _ _)) fun resources => ?_
  refine calls_bind P _ _ (calls_jobEvent h _ _ _ _ rfl) fun _ => ?_
  refine calls_bind P _ _ (calls_backupResources h _ _ _ _) fun errs => ?_
  refine calls_bind P _ _ (calls_call _ (h.applyRetention _)) fun r => ?_
  cases r with
  | error err => trivial
  | ok u => exact calls_bind P _ _ (calls_jobEvent h _ _ _ _ rfl) fun _ => trivial

/-- A pipeline looks up the plugin's stored settings first, and then only
    makes the calls of a pipeline. -/
theorem runPipeline_begins (h : JobCalls P job sp) (c : Controller S) (ctx : Ctx)
    (srv : Server) :
    ∃ k, runPipeline c ctx job srv sp =
        .call (.store ctx (.getPluginSettings job.host job.plugin)) k ∧ ∀ x, Calls P (k x) := by
  refine ⟨_, rfl, fun x => ?_⟩
  cases x with
  | error err => trivial
  | ok found =>
      change Calls P (check (.ret (configFrom job.host job.plugin srv found)) id _)
      exact calls_check P _ _ _ trivial (fun cfg => calls_runInstance h ctx _ _)

/-- What holds of the statements of a job and of its pipeline's calls holds of
    every call of `RunJob`. -/
theorem calls_runJob (c : Controller S) (job : Job)
    (hstatus : ∀ ctx st, P (.store ctx (.updateJobStatus job.id st)))
    (hsettings : ∀ ctx, P (.store ctx (.getPluginSettings job.host job.plugin)))
    (h : ∀ sp, c.storageFor job.host = .ok sp → PipelineCalls P job sp) :
    Calls P (runJob c job) := by
  unfold runJob
  split
  · trivial
  · next srv hsrv =>
      split
      · trivial
      · split
        · trivial
        · next sp hsp =>
            have hp := h sp hsp
            have hpub : ∀ ctx e, Calls P (publish ctx e) := calls_publish hp.now hp.publish
            refine calls_check P _ _ _ (calls_call _ (hstatus _ _)) fun _ => ?_
            refine calls_bind P _ _ (hpub _ _) fun _ => calls_bind P _ _ ?_ fun err => ?_
            · rcases runPipeline_begins hp.jobCalls c c.pipelineCtx srv with ⟨k, hk, hrest⟩
              rw [hk]
              exact ⟨hsettings _, hrest⟩
            · exact calls_bind P _ _ (hpub _ _) fun _ =>
                calls_bind P _ _ (calls_call _ (hstatus _ _)) fun _ => trivial

/-- What looking a plugin up calls. -/
theorem calls_buildPlugin (c : Controller S) (ctx : Ctx) (host plugin : Bytes)
    (hsettings : P (.store ctx (.getPluginSettings host plugin))) (hfactory : ∀ p, P (.factory p)) :
    Calls P (c.buildPlugin ctx host plugin) := by
  unfold buildPlugin
  split
  · trivial
  · split
    · trivial
    · refine calls_check _ _ _ _ (calls_check _ _ _ _ (calls_call _ hsettings) fun _ => trivial) ?_
      intro cfg
      exact calls_check _ _ _ _ (calls_call _ (hfactory _)) (fun _ => trivial)

end Controller

end Bop
