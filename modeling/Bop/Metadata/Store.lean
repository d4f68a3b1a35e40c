import Bop.Data.Table
import Bop.Events

/-!
# The Metadata Store

The tables the metadata service keeps, the statements it runs against them,
and what each statement may answer. A statement is atomic: it takes effect
or it does not, and nothing is seen in between. It may also fail, and then the
caller knows less than the database: the error may come after the effect, for
instance when the number of affected rows cannot be read, so a failed write
either changed nothing or did exactly what it would have done.

The column `updated_at` is written by every statement on jobs and read by
none, so it is not here.

## Main definitions

* `Store`: The tables.
* `StoreOp`: The statements, and `StoreAns` their answers.
* `Store.setStatus`, `Store.failOrphaned`: The two updates of job rows.
* `StoreSem`: What a statement may answer and leave behind.
* `Store.status`: The stored status of a job.

## Theorems

* `effect_of_storeSem`: A statement takes effect or changes nothing.
* `status_setStatus`: An update moves one job.
* `status_failOrphaned`: Recovery moves the jobs in progress.
-/

namespace Bop

/-- A row of `plugin_settings`. -/
structure PluginSettings where
  host : Bytes
  plugin : Bytes
  configJSON : Bytes
  deriving DecidableEq

/-- The key of `plugin_settings`. -/
def PluginSettings.key (r : PluginSettings) : Bytes × Bytes := (r.host, r.plugin)

/-- The tables of the metadata service. -/
structure Store where
  jobs : Table Job.id
  snapshots : Table Snapshot.id
  events : List Event
  pluginSettings : Table PluginSettings.key

/-- `EventFilter`. An empty field filters nothing, and no positive limit is no
    limit. -/
structure EventFilter where
  jobID : Bytes
  host : Bytes
  limit : Int
  deriving DecidableEq

/-- The statements of the metadata service. -/
inductive StoreOp
  | createJob (job : Job)
  | updateJobStatus (id : Bytes) (status : JobStatus)
  | getJob (id : Bytes)
  | listJobsByStatus (status : JobStatus)
  | listJobs
  | failOrphanedJobs
  | recordSnapshot (snap : Snapshot)
  | listSnapshots (host : Bytes)
  | listEventsPage (filter : EventFilter)
  | getPluginSettings (host plugin : Bytes)
  | setPluginSettings (host plugin configJSON : Bytes)

/-- Why a lookup by identifier failed. -/
inductive GetError
  | notFound
  | other (text : Bytes)

/-- `metadata.ErrJobNotFound`. -/
def errJobNotFound : Bytes := "metadata: job not found"

/-- What a statement answers. -/
abbrev StoreAns : StoreOp → Type
  | .createJob _ => Except Bytes Unit
  | .updateJobStatus _ _ => Except Bytes Unit
  | .getJob _ => Except GetError Job
  | .listJobsByStatus _ => Except Bytes (List Job)
  | .listJobs => Except Bytes (List Job)
  | .failOrphanedJobs => Except Bytes Nat
  | .recordSnapshot _ => Except Bytes Unit
  | .listSnapshots _ => Except Bytes (List Snapshot)
  | .listEventsPage _ => Except Bytes (List Event)
  | .getPluginSettings _ _ => Except Bytes (Option Bytes)
  | .setPluginSettings _ _ _ => Except Bytes Unit

namespace Store

/-- The store of a fresh database. -/
def empty : Store := ⟨Table.empty, Table.empty, [], Table.empty⟩

/-- A job row with a new status, if it is the one meant. -/
def moveJob (p : Job → Bool) (status : JobStatus) (job : Job) : Job :=
  if p job then { job with status := status } else job

theorem moveJob_id (p : Job → Bool) (status : JobStatus) (job : Job) :
    (moveJob p status job).id = job.id := by
  unfold moveJob
  split <;> rfl

/-- `UPDATE jobs SET status = … WHERE …`. -/
def moveJobs (s : Store) (p : Job → Bool) (status : JobStatus) : Store :=
  { s with jobs := s.jobs.update (moveJob p status) (moveJob_id p status) }

/-- The statement of `UpdateJobStatus`. -/
def setStatus (s : Store) (id : Bytes) (status : JobStatus) : Store :=
  s.moveJobs (fun job => job.id = id) status

/-- The statement of `FailOrphanedJobs`. -/
def failOrphaned (s : Store) : Store := s.moveJobs (fun job => job.status = .inProgress) .failed

/-- The statement of `CreateJob`, unless the identifier is taken. -/
def createJob? (s : Store) (job : Job) : Option Store :=
  (s.jobs.insert? job).map (fun jobs => { s with jobs := jobs })

/-- The statement of `RecordSnapshot`, unless the identifier is taken. -/
def recordSnapshot? (s : Store) (snap : Snapshot) : Option Store :=
  (s.snapshots.insert? snap).map (fun snapshots => { s with snapshots := snapshots })

/-- The statement of `RecordEvent`. -/
def recordEvent (s : Store) (e : Event) : Store := { s with events := s.events ++ [e] }

/-- A settings row with a new configuration, if it is the one meant. -/
def replaceConfig (host plugin configJSON : Bytes) (r : PluginSettings) : PluginSettings :=
  if r.key = (host, plugin) then { r with configJSON := configJSON } else r

theorem replaceConfig_key (host plugin configJSON : Bytes) (r : PluginSettings) :
    (replaceConfig host plugin configJSON r).key = r.key := by
  unfold replaceConfig
  split <;> rfl

/-- The statement of `SetPluginSettings`: a new row, or the old one replaced. -/
def setPluginSettings (s : Store) (host plugin configJSON : Bytes) : Store :=
  match s.pluginSettings.insert? ⟨host, plugin, configJSON⟩ with
  | some t => { s with pluginSettings := t }
  | none =>
      { s with
        pluginSettings := s.pluginSettings.update (replaceConfig host plugin configJSON)
          (replaceConfig_key host plugin configJSON) }

/-- The stored status of a job. -/
def status (s : Store) (id : Bytes) : Option JobStatus := (s.jobs.find? id).map Job.status

/-- The rows in a status, as `ListJobsByStatus` selects them. -/
def jobsIn (s : Store) (status : JobStatus) : List Job :=
  s.jobs.rows.filter (fun job => job.status = status)

/-- The events `ListEventsPage` selects. -/
def eventsMatching (s : Store) (f : EventFilter) : List Event :=
  s.events.filter (fun e => (f.jobID = [] ∨ e.jobID = f.jobID) ∧ (f.host = [] ∨ e.host = f.host))

end Store

/-- What a statement may answer and leave behind. -/
def StoreSem (s : Store) : (o : StoreOp) → StoreAns o → Store → Prop
  | .createJob job, .ok _, s' => s.createJob? job = some s'
  -- A write whose error comes from the commit may have taken effect.
  | .createJob job, .error _, s' => s' = s ∨ s.createJob? job = some s'
  | .updateJobStatus id st, .ok _, s' => (s.jobs.find? id).isSome ∧ s' = s.setStatus id st
  | .updateJobStatus id st, .error _, s' => s' = s ∨ s' = s.setStatus id st
  -- Reads change nothing, whatever they answer.
  | .getJob id, .ok job, s' => s' = s ∧ s.jobs.find? id = some job
  | .getJob id, .error .notFound, s' => s' = s ∧ s.jobs.find? id = none
  | .getJob _, .error (.other _), s' => s' = s
  -- Rows that were queued at the same time come in either order.
  | .listJobsByStatus st, .ok jobs, s' =>
      s' = s ∧ jobs.Perm (s.jobsIn st) ∧ jobs.Pairwise (fun a b => a.queuedAt ≤ b.queuedAt)
  | .listJobsByStatus _, .error _, s' => s' = s
  | .listJobs, .ok jobs, s' =>
      s' = s ∧ jobs.Perm s.jobs.rows ∧ jobs.Pairwise (fun a b => b.queuedAt ≤ a.queuedAt)
  | .listJobs, .error _, s' => s' = s
  | .failOrphanedJobs, .ok n, s' => s' = s.failOrphaned ∧ n = (s.jobsIn .inProgress).length
  | .failOrphanedJobs, .error _, s' => s' = s ∨ s' = s.failOrphaned
  | .recordSnapshot snap, .ok _, s' => s.recordSnapshot? snap = some s'
  | .recordSnapshot snap, .error _, s' => s' = s ∨ s.recordSnapshot? snap = some s'
  | .listSnapshots host, .ok snaps, s' =>
      s' = s ∧ snaps.Perm (s.snapshots.rows.filter (fun r => r.host = host)) ∧
        snaps.Pairwise (fun a b => b.createdAt ≤ a.createdAt)
  | .listSnapshots _, .error _, s' => s' = s
  | .listEventsPage f, .ok events, s' =>
      s' = s ∧ ∃ all, all.Perm (s.eventsMatching f) ∧
        all.Pairwise (fun a b => b.timestamp ≤ a.timestamp) ∧
        events = if f.limit > 0 then all.take f.limit.toNat else all
  | .listEventsPage _, .error _, s' => s' = s
  | .getPluginSettings host plugin, .ok found, s' =>
      s' = s ∧ found = (s.pluginSettings.find? (host, plugin)).map PluginSettings.configJSON
  | .getPluginSettings _ _, .error _, s' => s' = s
  | .setPluginSettings host plugin json, .ok _, s' => s' = s.setPluginSettings host plugin json
  | .setPluginSettings host plugin json, .error _, s' =>
      s' = s ∨ s' = s.setPluginSettings host plugin json

/-- The statements that write to the jobs table. -/
def StoreOp.writesJobs : StoreOp → Bool
  | .createJob _ | .updateJobStatus _ _ | .failOrphanedJobs => true
  | _ => false

namespace Store

theorem status_moveJobs (s : Store) (p : Job → Bool) (st : JobStatus) (id : Bytes) :
    (s.moveJobs p st).status id =
      (s.jobs.find? id).map (fun job => if p job then st else job.status) := by
  simp only [status, moveJobs, Table.find?_update, Option.map_map]
  congr 1
  funext job
  simp only [Function.comp_def, moveJob]
  split <;> rfl

/-- An update moves one job and leaves the rest. -/
theorem status_setStatus (s : Store) (id id' : Bytes) (st : JobStatus) :
    (s.setStatus id st).status id' =
      if id' = id then (s.status id').map (fun _ => st) else s.status id' := by
  rw [setStatus, status_moveJobs, status]
  cases hf : s.jobs.find? id' with
  | none => simp only [Option.map_none, ite_self]
  | some job =>
      have hid := Table.key_of_find? s.jobs id' job hf
      simp only [Option.map_some, decide_eq_true_eq, hid]
      split <;> rfl

/-- Recovery fails the jobs in progress and leaves the rest. -/
theorem status_failOrphaned (s : Store) (id : Bytes) :
    s.failOrphaned.status id =
      (s.status id).map (fun st => if st = .inProgress then .failed else st) := by
  rw [failOrphaned, status_moveJobs, status, Option.map_map]
  simp only [Function.comp_def, decide_eq_true_eq]

theorem createJob?_jobs (s s' : Store) (job : Job) (h : s.createJob? job = some s') :
    s.jobs.insert? job = some s'.jobs := by
  rw [createJob?, Option.map_eq_some_iff] at h
  rcases h with ⟨jobs, hjobs, rfl⟩
  exact hjobs

/-- A new job is stored with its own status, and no other job moves. -/
theorem status_createJob (s s' : Store) (job : Job) (h : s.createJob? job = some s')
    (id : Bytes) :
    s'.status id = if id = job.id then some job.status else s.status id := by
  rw [status, Table.find?_insert s.jobs s'.jobs job (createJob?_jobs s s' job h), status]
  split <;> rfl

/-- A job is only created under an identifier that is free. -/
theorem status_none_of_createJob (s s' : Store) (job : Job) (h : s.createJob? job = some s') :
    s.status job.id = none := by
  have hfree : s.jobs.find? job.id = none := by
    rw [← Table.insert?_isSome_iff, createJob?_jobs s s' job h]
    rfl
  rw [status, hfree, Option.map_none]

end Store

/-- What a statement does if it takes effect. -/
def StoreOp.effect? (s : Store) : StoreOp → Option Store
  | .createJob job => s.createJob? job
  | .updateJobStatus id st => some (s.setStatus id st)
  | .failOrphanedJobs => some s.failOrphaned
  | .recordSnapshot snap => s.recordSnapshot? snap
  | .setPluginSettings host plugin json => some (s.setPluginSettings host plugin json)
  | _ => none

/-- Whatever a statement answers, it took effect or it changed nothing. -/
theorem effect_of_storeSem (s s' : Store) (o : StoreOp) (x : StoreAns o) (h : StoreSem s o x s') :
    s' = s ∨ o.effect? s = some s' := by
  -- The writes may fail before or after they take effect. The others only read.
  cases o with
  | createJob job =>
      cases x with
      | ok u => exact Or.inr h
      | error err => exact h
  | recordSnapshot snap =>
      cases x with
      | ok u => exact Or.inr h
      | error err => exact h
  | updateJobStatus id st =>
      cases x with
      | ok u => exact Or.inr (congrArg some h.2.symm)
      | error err => exact h.imp_right fun heq => congrArg some heq.symm
  | failOrphanedJobs =>
      cases x with
      | ok n => exact Or.inr (congrArg some h.1.symm)
      | error err => exact h.imp_right fun heq => congrArg some heq.symm
  | setPluginSettings host plugin json =>
      cases x with
      | ok u => exact Or.inr (congrArg some (show s' = _ from h).symm)
      | error err => exact h.imp_right fun heq => congrArg some heq.symm
  | getJob id =>
      cases x with
      | ok job => exact Or.inl h.1
      | error err =>
          cases err with
          | notFound => exact Or.inl h.1
          | other text => exact Or.inl h
  | _ =>
      cases x with
      | ok a => exact Or.inl h.1
      | error err => exact Or.inl h

/-- Recording a snapshot changes the snapshots. -/
theorem recordSnapshot?_eq (s s' : Store) (snap : Snapshot) (h : s.recordSnapshot? snap = some s') :
    s' = { s with snapshots := s'.snapshots } := by
  rw [Store.recordSnapshot?, Option.map_eq_some_iff] at h
  rcases h with ⟨_, _, rfl⟩
  rfl

/-- Creating a job changes the jobs. -/
theorem createJob?_eq (s s' : Store) (job : Job) (h : s.createJob? job = some s') :
    s' = { s with jobs := s'.jobs } := by
  rw [Store.createJob?, Option.map_eq_some_iff] at h
  rcases h with ⟨_, _, rfl⟩
  rfl

/-- Storing settings changes the settings. -/
theorem setPluginSettings_eq (s : Store) (host plugin json : Bytes) :
    s.setPluginSettings host plugin json =
      { s with pluginSettings := (s.setPluginSettings host plugin json).pluginSettings } := by
  unfold Store.setPluginSettings
  split <;> rfl

/-- A settings row after one was set. -/
theorem find?_setPluginSettings (s : Store) (host plugin json : Bytes) (k : Bytes × Bytes) :
    (s.setPluginSettings host plugin json).pluginSettings.find? k =
      if k = (host, plugin) then some ⟨host, plugin, json⟩ else s.pluginSettings.find? k := by
  unfold Store.setPluginSettings
  split
  · next t ht => exact Table.find?_insert _ t _ ht k
  · next ht =>
      simp only [Table.find?_update]
      by_cases hk : k = (host, plugin)
      · -- The insertion was refused, so the row is there and is replaced.
        subst hk
        rw [if_pos rfl]
        cases hfind : s.pluginSettings.find? (host, plugin) with
        | none =>
            have hfree := (Table.insert?_isSome_iff s.pluginSettings ⟨host, plugin, json⟩).mpr hfind
            rw [ht] at hfree
            cases hfree
        | some r =>
            have hkey := Table.key_of_find? _ _ r hfind
            rw [Option.map_some, Store.replaceConfig, if_pos hkey]
            cases r
            cases hkey
            rfl
      · rw [if_neg hk]
        cases hfind : s.pluginSettings.find? k with
        | none => rfl
        | some r =>
            have hkey := Table.key_of_find? _ _ r hfind
            rw [Option.map_some, Store.replaceConfig, if_neg (by rw [hkey]; exact hk)]

/-- A statement that does not write to the jobs table leaves it alone. -/
theorem jobs_of_not_writesJobs (s s' : Store) (o : StoreOp) (x : StoreAns o)
    (h : StoreSem s o x s') (ho : o.writesJobs = false) : s'.jobs = s.jobs := by
  rcases effect_of_storeSem s s' o x h with rfl | heffect
  · rfl
  · cases o with
    | recordSnapshot snap => rw [recordSnapshot?_eq s s' snap heffect]
    | setPluginSettings host plugin json =>
        rw [← Option.some.inj heffect, setPluginSettings_eq]
    | createJob job => cases ho
    | updateJobStatus id st => cases ho
    | failOrphanedJobs => cases ho
    | _ => cases heffect

/-- The statements that write to the snapshots table. -/
def StoreOp.writesSnapshots : StoreOp → Bool
  | .recordSnapshot _ => true
  | _ => false

/-- A statement that does not write to the snapshots table leaves it alone. -/
theorem snapshots_of_not_writesSnapshots (s s' : Store) (o : StoreOp) (x : StoreAns o)
    (h : StoreSem s o x s') (ho : o.writesSnapshots = false) : s'.snapshots = s.snapshots := by
  rcases effect_of_storeSem s s' o x h with rfl | heffect
  · rfl
  · cases o with
    | createJob job => rw [createJob?_eq s s' job heffect]
    | updateJobStatus id st => rw [← Option.some.inj heffect]; rfl
    | failOrphanedJobs => rw [← Option.some.inj heffect]; rfl
    | setPluginSettings host plugin json =>
        rw [← Option.some.inj heffect, setPluginSettings_eq]
    | recordSnapshot snap => cases ho
    | _ => cases heffect

/-- No statement of a process writes an event. -/
theorem events_of_storeSem (s s' : Store) (o : StoreOp) (x : StoreAns o) (h : StoreSem s o x s') :
    s'.events = s.events := by
  rcases effect_of_storeSem s s' o x h with rfl | heffect
  · rfl
  · cases o with
    | createJob job => rw [createJob?_eq s s' job heffect]
    | updateJobStatus id st => rw [← Option.some.inj heffect]; rfl
    | failOrphanedJobs => rw [← Option.some.inj heffect]; rfl
    | recordSnapshot snap => rw [recordSnapshot?_eq s s' snap heffect]
    | setPluginSettings host plugin json =>
        rw [← Option.some.inj heffect, setPluginSettings_eq]
    | _ => cases heffect

/-- A recording adds its row, or fails. -/
theorem mem_recordSnapshot (s s' : Store) (snap : Snapshot) (x : Except Bytes Unit)
    (h : StoreSem s (.recordSnapshot snap) x s') (row : Snapshot) (hrow : row ∈ s'.snapshots.rows) :
    row ∈ s.snapshots.rows ∨ row = snap := by
  rcases effect_of_storeSem s s' (.recordSnapshot snap) x h with rfl | heffect
  · exact Or.inl hrow
  · rw [StoreOp.effect?, Store.recordSnapshot?, Option.map_eq_some_iff] at heffect
    rcases heffect with ⟨t, ht, rfl⟩
    change row ∈ t.rows at hrow
    rw [Table.insert?_rows _ _ _ ht, List.mem_append, List.mem_singleton] at hrow
    exact hrow

end Bop
