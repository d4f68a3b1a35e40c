import Bop.Controller.RunJob
import Bop.Effect.Monitor

/-!
# The Events of a Job

The events that a job publishes have a grammar: a start, what was discovered,
a block for each resource in the order of discovery, the retention and an end.
Every early return cuts something off: a resource's block ends at the step that
failed, and nothing is announced of what comes after it.

A run of one resource is followed with a log of its announcements in which the
repository's and the plugin's confirmations stand as well, so that what the
events say can be compared with what happened.

## Main definitions

* `eventsOf`: The events of a run, apart from their times.
* `LogEntry`, `entries`: The log of a resource.
* `blockEvents`: The events of a resource of which every step succeeds.
* `ResourceWord`, `PipelineWord`: The events of a resource and of a pipeline.

## Theorems

* `obeys_backupResource`: What a resource logs.
* `resourceWord_of_runs`, `pipelineWord_of_runs`: The grammar of the parts.
* `trace_grammar`: The grammar of a job's events.
-/

namespace Bop

open Prog

variable {S : Type}

/-- What the log of a job holds: its announcements, and that the repository or the
    plugin confirmed a step. -/
inductive LogEntry
  | event (e : Event)
  | storageVerified (id : SnapshotID)
  | restoreTested

/-- The event of an announcement. -/
def LogEntry.event? : LogEntry → Option Event
  | .event e => some e
  | _ => none

/-- What is logged of an operation. The times of events are left out. -/
def entries : (o : Op S) → Ans o → List LogEntry
  | .publish _ e, _ => [.event { e with timestamp := 0 }]
  | .verifySnapshot _ _ id, .ok _ => [.storageVerified id]
  | .restore _ _ _, .ok _ => [.restoreTested]
  | _, _ => []

/-- The events of a run, in the order in which they were published. -/
def eventsOf (tr : Trace (Op S) Ans) : List Event := (logOf entries tr).filterMap LogEntry.event?

namespace Controller

/-- The events of a resource up to its verification in the repository. -/
def uploadEvents (job : Job) (res : Resource) (size checksum : Bytes) (id : SnapshotID) :
    List Event :=
  [jobEvent .artifactCreated job res.id [("size", size), ("checksum", checksum)],
    jobEvent .artifactUploadStarted job res.id [],
    jobEvent .artifactUploadCompleted job res.id [("snapshot_id", id)],
    jobEvent .repositoryVerificationStarted job res.id [],
    jobEvent .repositoryVerificationCompleted job res.id []]

/-- The events of a resource's restore test. -/
def restoreEvents (job : Job) (res : Resource) : List Event :=
  [jobEvent .restoreVerificationStarted job res.id [],
    jobEvent .restoreVerificationCompleted job res.id []]

/-- The events of a resource are its own up to some point: up to the repository's
    verification exactly if the repository verified the snapshot they name, and up
    to the end of a restore test exactly if that was made and succeeded. -/
def ResourceWord (job : Job) (res : Resource) (restoreTest : Bool)
    (tr : Trace (Op S) Ans) : Prop :=
  ∃ size checksum id,
    eventsOf tr <+: uploadEvents job res size checksum id ++
      (if restoreTest = true then restoreEvents job res else []) ∧
    (uploadEvents job res size checksum id <+: eventsOf tr ↔
      ∃ ctx sp, (⟨.verifySnapshot ctx sp id, .ok ()⟩ : Prog.Event (Op S) Ans) ∈ tr) ∧
    (jobEvent .restoreVerificationCompleted job res.id [] ∈ eventsOf tr ↔
      ∃ ctx p a, (⟨.restore ctx p a, .ok ()⟩ : Prog.Event (Op S) Ans) ∈ tr)

/-- The logs of a resource, by the step after which it stopped. -/
inductive ResourceLog (job : Job) (res : Resource) (restoreTest : Bool) : List LogEntry → Prop
  | unchecked : ResourceLog job res restoreTest []
  | created (size checksum : Bytes) : ResourceLog job res restoreTest
      [.event (jobEvent .artifactCreated job res.id [("size", size), ("checksum", checksum)]),
        .event (jobEvent .artifactUploadStarted job res.id [])]
  | uploaded (size checksum : Bytes) (id : SnapshotID) : ResourceLog job res restoreTest
      [.event (jobEvent .artifactCreated job res.id [("size", size), ("checksum", checksum)]),
        .event (jobEvent .artifactUploadStarted job res.id []),
        .event (jobEvent .artifactUploadCompleted job res.id [("snapshot_id", id)]),
        .event (jobEvent .repositoryVerificationStarted job res.id [])]
  | verified (size checksum : Bytes) (id : SnapshotID) : ResourceLog job res restoreTest
      [.event (jobEvent .artifactCreated job res.id [("size", size), ("checksum", checksum)]),
        .event (jobEvent .artifactUploadStarted job res.id []),
        .event (jobEvent .artifactUploadCompleted job res.id [("snapshot_id", id)]),
        .event (jobEvent .repositoryVerificationStarted job res.id []), .storageVerified id,
        .event (jobEvent .repositoryVerificationCompleted job res.id [])]
  | testing (size checksum : Bytes) (id : SnapshotID) (h : restoreTest = true) :
      ResourceLog job res restoreTest
      [.event (jobEvent .artifactCreated job res.id [("size", size), ("checksum", checksum)]),
        .event (jobEvent .artifactUploadStarted job res.id []),
        .event (jobEvent .artifactUploadCompleted job res.id [("snapshot_id", id)]),
        .event (jobEvent .repositoryVerificationStarted job res.id []), .storageVerified id,
        .event (jobEvent .repositoryVerificationCompleted job res.id []),
        .event (jobEvent .restoreVerificationStarted job res.id [])]
  | tested (size checksum : Bytes) (id : SnapshotID) (h : restoreTest = true) :
      ResourceLog job res restoreTest
      [.event (jobEvent .artifactCreated job res.id [("size", size), ("checksum", checksum)]),
        .event (jobEvent .artifactUploadStarted job res.id []),
        .event (jobEvent .artifactUploadCompleted job res.id [("snapshot_id", id)]),
        .event (jobEvent .repositoryVerificationStarted job res.id []), .storageVerified id,
        .event (jobEvent .repositoryVerificationCompleted job res.id []),
        .event (jobEvent .restoreVerificationStarted job res.id []), .restoreTested,
        .event (jobEvent .restoreVerificationCompleted job res.id [])]

/-! ### What is logged -/

theorem eventsOf_append (tr₁ tr₂ : Trace (Op S) Ans) :
    eventsOf (tr₁ ++ tr₂) = eventsOf tr₁ ++ eventsOf tr₂ := by
  rw [eventsOf, logOf_append, List.filterMap_append]
  rfl

/-- The repository's confirmation is logged, and nothing else is logged as one. -/
theorem mem_logOf_verified (tr : Trace (Op S) Ans) (id : SnapshotID) :
    LogEntry.storageVerified id ∈ logOf entries tr ↔
      ∃ ctx sp, (⟨.verifySnapshot ctx sp id, .ok ()⟩ : Prog.Event (Op S) Ans) ∈ tr := by
  rw [logOf, List.mem_flatMap]
  constructor
  · rintro ⟨⟨o, x⟩, hmem, hentry⟩
    cases o with
    | verifySnapshot ctx sp id' => cases x with
      | ok u =>
          cases List.mem_singleton.mp hentry
          exact ⟨ctx, sp, hmem⟩
      | error err => exact absurd hentry List.not_mem_nil
    | restore ctx p a => cases x with
      | ok u => cases List.mem_singleton.mp hentry
      | error err => exact absurd hentry List.not_mem_nil
    | publish ctx e => cases List.mem_singleton.mp hentry
    | _ => exact absurd hentry List.not_mem_nil
  · rintro ⟨ctx, sp, hmem⟩
    exact ⟨_, hmem, List.mem_singleton.mpr rfl⟩

/-- So is that of a restore test. -/
theorem mem_logOf_tested (tr : Trace (Op S) Ans) :
    LogEntry.restoreTested ∈ logOf entries tr ↔
      ∃ ctx p a, (⟨.restore ctx p a, .ok ()⟩ : Prog.Event (Op S) Ans) ∈ tr := by
  rw [logOf, List.mem_flatMap]
  constructor
  · rintro ⟨⟨o, x⟩, hmem, hentry⟩
    cases o with
    | verifySnapshot ctx sp id' => cases x with
      | ok u => cases List.mem_singleton.mp hentry
      | error err => exact absurd hentry List.not_mem_nil
    | restore ctx p a => cases x with
      | ok u => exact ⟨ctx, p, a, hmem⟩
      | error err => exact absurd hentry List.not_mem_nil
    | publish ctx e => cases List.mem_singleton.mp hentry
    | _ => exact absurd hentry List.not_mem_nil
  · rintro ⟨ctx, p, a, hmem⟩
    exact ⟨_, hmem, List.mem_singleton.mpr rfl⟩

/-- An announcement is logged. -/
theorem obeys_publish {α : Type} (ctx : Ctx) (e : Event) (k : Unit → Proc S α)
    (log : List LogEntry) (post : α → List LogEntry → Prop)
    (h : Obeys (logging entries) (log ++ [.event { e with timestamp := 0 }]) (k ()) post) :
    Obeys (logging entries) log (publish ctx e >>= k) post :=
  fun _ => ⟨log, congrArg some (List.append_nil log), fun _ => ⟨_, rfl, h⟩⟩

/-- Cleaning up is not logged. -/
theorem obeys_cleanup (a : Artifact) (log : List LogEntry) :
    Obeys (logging entries) log (cleanupArtifact a : Proc S Unit) (fun _ log' => log' = log) := by
  unfold cleanupArtifact
  split
  · rfl
  · exact fun _ => ⟨log, congrArg some (List.append_nil log), rfl⟩

/-- A checked call whose success is logged as a confirmation. -/
theorem obeys_confirmed (p : Proc S (Except Bytes Unit)) (entry : LogEntry) (wrap : Bytes → Bytes)
    (k : Unit → Proc S (Except Bytes Unit)) (log : List LogEntry)
    (post : Except Bytes Unit → List LogEntry → Prop)
    (hp : Obeys (logging entries) log p (fun r log' => log' = match r with
      | .ok _ => log ++ [entry]
      | .error _ => log))
    (herr : ∀ err, post (.error err) log)
    (hok : Obeys (logging entries) (log ++ [entry]) (k ()) post) :
    Obeys (logging entries) log (check p wrap k) post := by
  refine obeys_check _ p wrap k log _ post hp ?_ ?_
  · rintro _ _ rfl
    exact hok
  · rintro err _ rfl
    exact herr _

/-- A resource logs its steps up to the one that fails. -/
theorem obeys_backupResource (ctx : Ctx) (job : Job) (p : Instance) (sp : S) (res : Resource)
    (v : Verification) :
    Obeys (logging entries) [] (backupResource ctx job p sp res v)
      (fun _ log => ResourceLog job res v.enabled log) := by
  refine obeys_check_unlogged _ _ _ _ _ _ (obeys_unlogged _ _ _ fun _ => rfl)
    (fun _ => ResourceLog.unchecked) fun produced => ?_
  refine obeys_bind _ _ _ _ (fun _ log => ResourceLog job res v.enabled log) _ ?_
    fun r log hlog => obeys_bind _ _ _ _ _ _ (obeys_cleanup _ log) (by
      rintro _ _ rfl
      exact hlog)
  refine obeys_check_unlogged _ _ _ _ _ _ (obeys_unlogged _ _ _ fun _ => rfl)
    (fun _ => ResourceLog.unchecked) fun _ => ?_
  refine obeys_check_unlogged _ _ _ _ _ _ (obeys_unlogged _ _ _ fun _ => rfl)
    (fun _ => ResourceLog.unchecked) fun checksum => ?_
  refine obeys_publish _ _ _ _ _ (obeys_publish _ _ _ _ _ ?_)
  refine obeys_check_unlogged _ _ _ _ _ _ (obeys_unlogged _ _ _ fun _ => rfl)
    (fun _ => ResourceLog.created _ _) fun id => ?_
  refine obeys_publish _ _ _ _ _ (obeys_publish _ _ _ _ _ ?_)
  refine obeys_confirmed _ (.storageVerified id) _ _ _ _ ?_
    (fun _ => ResourceLog.uploaded _ _ id) ?_
  · intro x
    cases x with
    | ok u => exact ⟨_, rfl, rfl⟩
    | error err => exact ⟨_, congrArg some (List.append_nil _), rfl⟩
  refine obeys_publish _ _ _ _ _ fun createdAt => ⟨_, congrArg some (List.append_nil _), ?_⟩
  refine obeys_check_unlogged _ _ _ _ _ _ (obeys_unlogged _ _ _ fun _ => rfl)
    (fun _ => ResourceLog.verified _ _ id) fun _ => ?_
  -- The restore test is the last step, if there is one.
  by_cases htest : v.enabled = true
  · rw [if_pos htest]
    refine obeys_publish _ _ _ _ _ ?_
    refine obeys_confirmed _ .restoreTested _ _ _ _ ?_
      (fun _ => ResourceLog.testing _ _ id htest) ?_
    · intro x
      cases x with
      | ok u => exact ⟨_, rfl, rfl⟩
      | error err => exact ⟨_, congrArg some (List.append_nil _), rfl⟩
    · exact obeys_publish _ _ _ _ _ (ResourceLog.tested _ _ id htest)
  · rw [if_neg htest]
    exact ResourceLog.verified _ _ id

/-- The end of a restore test is not one of a resource's other events. -/
theorem not_mem_uploadEvents (job : Job) (res : Resource) (size checksum : Bytes) (id : SnapshotID)
    (events : List Event) (h : events <+: uploadEvents job res size checksum id) :
    jobEvent .restoreVerificationCompleted job res.id [] ∉ events := by
  intro hmem
  have hupload := h.subset hmem
  simp only [uploadEvents, jobEvent, List.mem_cons, Event.mk.injEq, reduceCtorEq, false_and,
    List.not_mem_nil, or_self] at hupload

/-- A log says what a resource's events may be. -/
theorem word_of_log (job : Job) (res : Resource) (restoreTest : Bool) (log : List LogEntry)
    (h : ResourceLog job res restoreTest log) :
    ∃ size checksum id,
      log.filterMap LogEntry.event? <+: uploadEvents job res size checksum id ++
        (if restoreTest = true then restoreEvents job res else []) ∧
      (uploadEvents job res size checksum id <+: log.filterMap LogEntry.event? ↔
        LogEntry.storageVerified id ∈ log) ∧
      (jobEvent .restoreVerificationCompleted job res.id [] ∈ log.filterMap LogEntry.event? ↔
        LogEntry.restoreTested ∈ log) := by
  -- Before the repository has verified the snapshot, less than the five events is there.
  have hshort : ∀ (size checksum : Bytes) (id : SnapshotID),
      log.filterMap LogEntry.event? <+: uploadEvents job res size checksum id →
      (log.filterMap LogEntry.event?).length < 5 →
      LogEntry.storageVerified id ∉ log → LogEntry.restoreTested ∉ log →
      log.filterMap LogEntry.event? <+: uploadEvents job res size checksum id ++
          (if restoreTest = true then restoreEvents job res else []) ∧
        (uploadEvents job res size checksum id <+: log.filterMap LogEntry.event? ↔
          LogEntry.storageVerified id ∈ log) ∧
        (jobEvent .restoreVerificationCompleted job res.id [] ∈ log.filterMap LogEntry.event? ↔
          LogEntry.restoreTested ∈ log) := by
    intro size checksum id hpre hlen hverified htested
    refine ⟨hpre.trans (List.prefix_append _ _), iff_of_false ?_ hverified,
      iff_of_false (not_mem_uploadEvents job res size checksum id _ hpre) htested⟩
    intro hle
    exact absurd hle.length_le (Nat.not_le.mpr hlen)
  cases h with
  | unchecked =>
      exact ⟨[], [], [], hshort [] [] [] List.nil_prefix (by decide) List.not_mem_nil
        List.not_mem_nil⟩
  | created size checksum =>
      exact ⟨size, checksum, [], hshort size checksum [] ⟨_, rfl⟩ (by simp [LogEntry.event?])
        (by simp) (by simp)⟩
  | uploaded size checksum id =>
      exact ⟨size, checksum, id, hshort size checksum id ⟨_, rfl⟩ (by simp [LogEntry.event?])
        (by simp) (by simp)⟩
  | verified size checksum id =>
      refine ⟨size, checksum, id, List.prefix_append _ _,
        iff_of_true (List.prefix_refl _) (by simp), iff_of_false ?_ (by simp)⟩
      exact not_mem_uploadEvents job res size checksum id _ (List.prefix_refl _)
  | testing size checksum id h =>
      rw [if_pos h]
      refine ⟨size, checksum, id, ⟨_, rfl⟩, iff_of_true ⟨_, rfl⟩ (by simp),
        iff_of_false ?_ (by simp)⟩
      simp [LogEntry.event?, jobEvent]
  | tested size checksum id h =>
      rw [if_pos h]
      exact ⟨size, checksum, id, List.prefix_refl _, iff_of_true ⟨_, rfl⟩ (by simp),
        iff_of_true (by simp [LogEntry.event?]) (by simp)⟩

/-- The events of a resource have the grammar. -/
theorem resourceWord_of_runs (ctx : Ctx) (job : Job) (p : Instance) (sp : S) (res : Resource)
    (v : Verification) (tr : Trace (Op S) Ans) (r : Except Bytes Unit)
    (hr : Runs (backupResource ctx job p sp res v) tr r) :
    ResourceWord job res v.enabled tr := by
  have hlog := logOf_runs entries _ _ (obeys_backupResource ctx job p sp res v) tr r hr
  unfold ResourceWord eventsOf
  simp only [← mem_logOf_verified, ← mem_logOf_tested]
  exact word_of_log job res v.enabled _ hlog

/-! ### The pipeline -/

/-- The events of a pipeline: nothing, or a discovery that failed, or what was
    discovered, a block for each resource in order and perhaps the retention. The
    blocks are those of consecutive parts of the run, one for each resource. -/
def PipelineWord (ctx : Ctx) (job : Job) (sp : S) (v : Verification)
    (tr : Trace (Op S) Ans) : Prop :=
  eventsOf tr = [] ∨ eventsOf tr = [jobEvent .pluginDiscoveryStarted job [] []] ∨
    ∃ p resources before traces after retention,
      tr = before ++ traces.flatten ++ after ∧
      (⟨.discover ctx p, .ok resources⟩ : Prog.Event (Op S) Ans) ∈ before ∧
      List.Forall₂ (fun res t => (∃ r, Runs (backupResource ctx job p sp res v) t r) ∧
        ResourceWord job res v.enabled t) resources traces ∧
      (retention = [] ∨ retention = [jobEvent .retentionApplied job [] []]) ∧
      eventsOf tr = jobEvent .pluginDiscoveryStarted job [] [] ::
        jobEvent .pluginDiscoveryCompleted job [] [("resource_count", itoaNat resources.length)] ::
        ((traces.map eventsOf).flatten ++ retention)

/-- The run of a loop is the runs of its resources. -/
theorem traces_of_backupResources (ctx : Ctx) (job : Job) (p : Instance) (sp : S)
    (v : Verification) (resources : List Resource) (tr : Trace (Op S) Ans) (errs : List Bytes)
    (hr : Runs (backupResources ctx job p sp v resources) tr errs) :
    ∃ traces, tr = traces.flatten ∧
      List.Forall₂ (fun res t => (∃ r, Runs (backupResource ctx job p sp res v) t r) ∧
        ResourceWord job res v.enabled t) resources traces := by
  induction resources generalizing tr errs with
  | nil =>
      rcases (runs_ret_iff _ _ _).mp hr with ⟨rfl, _⟩
      exact ⟨[], rfl, List.Forall₂.nil⟩
  | cons res rest ih =>
      rcases (runs_bind_iff _ _ _ _).mp hr with ⟨tr₁, tr₂, r, rfl, hres, hrest⟩
      rcases (runs_bind_iff _ _ _ _).mp hrest with ⟨tr₃, tr₄, errs', rfl, hloop, hret⟩
      have hnil : tr₄ = [] := by
        cases r with
        | ok u => exact ((runs_ret_iff _ _ _).mp hret).1
        | error err => exact ((runs_ret_iff _ _ _).mp hret).1
      rcases ih tr₃ errs' hloop with ⟨traces, rfl, hall⟩
      refine ⟨tr₁ :: traces, ?_, List.Forall₂.cons
        ⟨⟨r, hres⟩, resourceWord_of_runs ctx job p sp res v tr₁ r hres⟩ hall⟩
      rw [hnil, List.append_nil, List.flatten_cons]

theorem eventsOf_flatten (traces : List (Trace (Op S) Ans)) :
    eventsOf traces.flatten = (traces.map eventsOf).flatten := by
  induction traces with
  | nil => rfl
  | cons t traces ih =>
      rw [List.flatten_cons, eventsOf_append, ih, List.map_cons, List.flatten_cons]

/-- The events of a pipeline have the grammar. -/
theorem pipelineWord_of_runs (c : Controller S) (ctx : Ctx) (job : Job) (srv : Server) (sp : S)
    (tr : Trace (Op S) Ans) (r : Except Bytes Unit)
    (hr : Runs (c.runPipeline ctx job srv sp) tr r) :
    PipelineWord ctx job sp (resolveVerification c.verification srv.verification) tr := by
  have hresolve : ∀ tr cfg,
      Runs (resolvePluginConfig ctx job.host job.plugin srv : Proc S _) tr cfg →
      eventsOf tr = [] := by
    intro tr cfg h
    rcases (runs_call_iff _ _ _ _).mp h with ⟨x, tr', rfl, hret⟩
    cases x with
    | ok found =>
        rcases (runs_ret_iff _ _ _).mp hret with ⟨rfl, _⟩
        rfl
    | error err =>
        rcases (runs_ret_iff _ _ _).mp hret with ⟨rfl, _⟩
        rfl
  rcases (runs_check_iff _ _ _ _ _).mp hr with
    ⟨tr₁, tr₂, cfg, rfl, hcfg, hinstance⟩ | ⟨err, hcfg, _⟩
  · have hquiet := hresolve tr₁ _ hcfg
    rcases (runs_call_iff _ _ _ _).mp hinstance with ⟨built, tr₃, rfl, hbuilt⟩
    cases built with
    | error err =>
        rcases (runs_ret_iff _ _ _).mp hbuilt with ⟨rfl, _⟩
        left
        rw [eventsOf_append, hquiet]
        rfl
    | ok u =>
        rcases (runs_publish_iff _ _ _ _ _).mp hbuilt with ⟨t, tr₄, rfl, hdiscover⟩
        rcases (runs_call_iff _ _ _ _).mp hdiscover with ⟨found, tr₅, rfl, hfound⟩
        cases found with
        | error err =>
            rcases (runs_ret_iff _ _ _).mp hfound with ⟨rfl, _⟩
            right
            left
            rw [eventsOf_append, hquiet]
            rfl
        | ok resources =>
            rcases (runs_publish_iff _ _ _ _ _).mp hfound with ⟨t', tr₆, rfl, hloop⟩
            rcases (runs_bind_iff _ _ _ _).mp hloop with ⟨tr₇, tr₈, errs, rfl, hall, hend⟩
            rcases traces_of_backupResources _ _ _ _ _ _ _ _ hall with ⟨traces, rfl, htraces⟩
            -- The retention is announced if it succeeds, and nothing comes after it.
            have hretention : eventsOf tr₈ = [] ∨
                eventsOf tr₈ = [jobEvent .retentionApplied job [] []] := by
              rcases (runs_call_iff _ _ _ _).mp hend with ⟨applied, tr₉, rfl, happlied⟩
              cases applied with
              | error err =>
                  rcases (runs_ret_iff _ _ _).mp happlied with ⟨rfl, _⟩
                  exact Or.inl rfl
              | ok u =>
                  rcases (runs_publish_iff _ _ _ _ _).mp happlied with ⟨t'', tr₁₀, rfl, hret⟩
                  rcases (runs_ret_iff _ _ _).mp hret with ⟨rfl, _⟩
                  exact Or.inr rfl
            let p : Instance := ⟨job.plugin, srv, cfg, c.tempDir⟩
            let discovery : Trace (Op S) Ans := [⟨.factory p, .ok u⟩, ⟨.now, t⟩,
              ⟨.publish ctx { jobEvent .pluginDiscoveryStarted job [] [] with timestamp := t }, ()⟩,
              ⟨.discover ctx p, .ok resources⟩, ⟨.now, t'⟩,
              ⟨.publish ctx { jobEvent .pluginDiscoveryCompleted job []
                [("resource_count", itoaNat resources.length)] with timestamp := t' }, ()⟩]
            refine Or.inr (Or.inr ⟨p, resources, tr₁ ++ discovery, traces, tr₈, eventsOf tr₈,
              ?_, ?_, htraces, hretention, ?_⟩)
            · rw [List.append_assoc, List.append_assoc]
              rfl
            · exact List.mem_append_right _ (List.mem_of_getElem? (show discovery[3]? = _ from rfl))
            · rw [eventsOf_append, hquiet, ← eventsOf_flatten, ← eventsOf_append]
              rfl
  · left
    exact hresolve tr _ hcfg

/-- No event of a resource ends the job. -/
theorem outcome_of_resourceWord (job : Job) (res : Resource) (restoreTest : Bool)
    (tr : Trace (Op S) Ans) (h : ResourceWord job res restoreTest tr) :
    ∀ e ∈ eventsOf tr, e.type.outcome = none := by
  rcases h with ⟨size, checksum, id, hpre, _, _⟩
  intro e he
  have hall : ∀ e ∈ uploadEvents job res size checksum id ++ restoreEvents job res,
      e.type.outcome = none := by
    simp only [uploadEvents, restoreEvents, List.cons_append, List.nil_append, List.forall_mem_cons,
      List.not_mem_nil, IsEmpty.forall_iff, implies_true, and_true]
    exact ⟨rfl, rfl, rfl, rfl, rfl, rfl, rfl⟩
  refine hall e ?_
  rcases List.mem_append.mp (hpre.subset he) with hmem | hmem
  · exact List.mem_append_left _ hmem
  · split at hmem
    · exact List.mem_append_right _ hmem
    · exact absurd hmem List.not_mem_nil

/-- No event of a pipeline does. -/
theorem outcome_of_pipelineWord (ctx : Ctx) (job : Job) (sp : S) (v : Verification)
    (tr : Trace (Op S) Ans) (h : PipelineWord ctx job sp v tr) :
    ∀ e ∈ eventsOf tr, e.type.outcome = none := by
  rcases h with h | h | ⟨p, resources, before, traces, after, retention, _, _, hall, hretention, h⟩
  · rw [h]
    exact fun e he => absurd he List.not_mem_nil
  · rw [h]
    intro e he
    cases List.mem_singleton.mp he
    rfl
  · rw [h]
    intro e he
    rcases List.mem_cons.mp he with rfl | he
    · rfl
    rcases List.mem_cons.mp he with rfl | he
    · rfl
    rcases List.mem_append.mp he with he | he
    · -- The event is one of some resource's.
      rcases List.mem_flatten.mp he with ⟨events, hevents, hmem⟩
      rcases List.mem_map.mp hevents with ⟨t, ht, rfl⟩
      rcases List.mem_iff_getElem.mp ht with ⟨i, hi, rfl⟩
      have hword := (List.forall₂_iff_get.mp hall).2 i (hall.length_eq ▸ hi) hi
      exact outcome_of_resourceWord job _ _ _ hword.2 e hmem
    · rcases hretention with rfl | rfl
      · exact absurd he List.not_mem_nil
      · cases List.mem_singleton.mp he
        rfl

/-- The job was marked as being in progress. -/
def Started (job : Job) (tr : Trace (Op S) Ans) : Prop :=
  ∃ ctx, (⟨.store ctx (.updateJobStatus job.id .inProgress), .ok ()⟩ :
    Prog.Event (Op S) Ans) ∈ tr

/-- Announcing an event of the job at a time. -/
def announce (ctx : Ctx) (type : EventType) (fields : List (Bytes × Bytes)) (t : Time) :
    Trace (Op Unit) Ans :=
  [⟨.now, t⟩, ⟨.publish ctx { jobEvent type filesJob [] fields with timestamp := t }, ()⟩]

/-- A run in which one directory is found and everything succeeds. -/
def dataRun : Trace (Op Unit) Ans :=
  let p : Instance := ⟨"files", filesServer, none, []⟩
  let res : Resource := ⟨"data", "data"⟩
  let made : Artifact := ⟨"data", "web", "files", [], 5, [], false, 0⟩
  let summed : Artifact := { made with checksum := "9f" }
  let about (type : EventType) (fields : List (Bytes × Bytes)) (t : Time) : Trace (Op Unit) Ans :=
    [⟨.now, t⟩, ⟨.publish .caller { jobEvent type filesJob "data" fields with timestamp := t }, ()⟩]
  [⟨.store .caller (.updateJobStatus filesJob.id .inProgress), .ok ()⟩] ++
    announce .caller .backupStarted [] 3 ++
    [⟨.store .caller (.getPluginSettings "web" "files"), .ok none⟩, ⟨.factory p, .ok ()⟩] ++
    announce .caller .pluginDiscoveryStarted [] 4 ++ [⟨.discover .caller p, .ok [res]⟩] ++
    announce .caller .pluginDiscoveryCompleted [("resource_count", "1")] 5 ++
    [⟨.backup .caller p res, .ok made⟩, ⟨.verify .caller p made, .ok ()⟩,
      ⟨.checksumFile [], .ok "9f"⟩] ++
    about .artifactCreated [("size", "5"), ("checksum", "9f")] 6 ++
    about .artifactUploadStarted [] 7 ++ [⟨.storeArtifact .caller () summed, .ok "ab"⟩] ++
    about .artifactUploadCompleted [("snapshot_id", "ab")] 8 ++
    about .repositoryVerificationStarted [] 9 ++ [⟨.verifySnapshot .caller () "ab", .ok ()⟩] ++
    about .repositoryVerificationCompleted [] 10 ++
    [⟨.now, (11 : Int)⟩, ⟨.store .caller (.recordSnapshot
      ⟨"ab", filesJob.id, "web", "files", 5, "9f", 11⟩), .ok ()⟩,
      ⟨.applyRetention .caller () "web" ⟨1, 0, 0, 0⟩, .ok ()⟩] ++
    announce .caller .retentionApplied [] 12 ++ announce .record .backupCompleted [] 13 ++
    [⟨.store .record (.updateJobStatus filesJob.id .completed), .ok ()⟩]

theorem runs_dataRun : Runs (filesController.runJob filesJob) dataRun (.ok ()) := by
  unfold dataRun announce
  repeat refine Runs.call _ _ _ _ _ ?_
  exact Runs.ret _

end Controller

end Bop
