import Bop.Controller.Calls
import Bop.Plugin.BackupPlugin

/-!
# What a Job Leaves on the Controller

A job makes a file for every resource and is to leave none of them. Whoever
made the file removes it on the ways out of its own: the plugin until it
returns the artifact, the controller from then on. Each owns one file at most
at any time, so the resources follow each other with nothing in between.

The files are all of the machine. Those of the job are the ones its own
backups made.

## Main definitions

* `jobFiles`: What the operations of a job do to files.

## Theorems

* `cleanupArtifact_settled`: The artifact's file is removed.
* `backupResource_settled`: A resource leaves nothing, whatever fails.
* `runJob_settled`: Neither does a job.
* `no_artifact_outlives`: The files after a job are those before it.
-/

namespace Bop

open Prog
open Remote (RemoteOp RemoteAns)

variable {S : Type}

/-- What the operations of a job do to files, given the plugin that is built for
    each instance. Its entry points do what its programs do, and besides them only
    the removal of an artifact does anything. -/
def jobFiles (built : Instance → BackupPlugin) : Semantics (Op S) Ans LocalFiles
  | w, .backup _ p res, r, w' => ((built p).backup p.tempDir res).Does w r w'
  | w, .verify _ p a, r, w' => ((built p).verify a).Does w r w'
  | w, .restore _ p a, r, w' => ((built p).restore a).Does w r w'
  | w, .removeFile path, x, w' => Touches Named w (.removed path x) w'
  | w, _, _, w' => w' = w

/-- The operation neither makes nor removes an artifact. -/
def Op.sparesFiles : Op S → Bool
  | .backup _ _ _ => false
  | .removeFile _ => false
  | _ => true

/-- Such an operation leaves the files alone. -/
theorem sparesFiles_same (built : Instance → BackupPlugin) (w : LocalFiles) (o : Op S) (x : Ans o)
    (w' : LocalFiles) (ho : o.sparesFiles = true) (h : jobFiles built w o x w') : w' = w := by
  cases o with
  | backup | removeFile => cases ho
  | verify ctx p a => exact verify_same (built p) a x w w' h
  | restore ctx p a => exact restore_same (built p) a x w w' h
  | _ => exact h

namespace Controller

section Settled

variable (built : Instance → BackupPlugin) (d : LocalFiles)

/-- A program of such operations keeps everything. -/
theorem triple_spares {α : Type} (inv : LocalFiles → Prop) (p : Proc S α)
    (hp : Calls (fun o => o.sparesFiles = true) p) :
    Triple (jobFiles built) inv p (fun _ => inv) := by
  refine triple_of_calls (fun o => o.sparesFiles = true) inv (fun w o x w' ho hs hw => ?_) p hp
  rw [sparesFiles_same built w o x w' ho hs]
  exact hw

theorem calls_publish_spares (ctx : Ctx) (e : Event) :
    Calls (fun o : Op S => o.sparesFiles = true) (publish ctx e) :=
  calls_publish (P := fun o : Op S => o.sparesFiles = true) rfl (fun _ _ => rfl) ctx e

/-- The artifact's file is removed. -/
theorem cleanupArtifact_settled (a : Artifact) :
    Triple (jobFiles (S := S) built) (Closed Named d a.path) (cleanupArtifact a)
      (fun _ => Settled d) := by
  unfold cleanupArtifact
  split
  · next hnil => exact triple_ret _ fun w h => absurd hnil h.1.name
  · refine triple_bind (fun _ => Settled d) (call (.removeFile a.path)) _ ?_ fun _ =>
      triple_ret _ fun w h => h
    exact triple_op _ _ fun w x w' h hs => closed_removed x h hs

/-- A resource leaves nothing, whatever fails. -/
theorem backupResource_settled (ctx : Ctx) (job : Job) (p : Instance) (sp : S) (res : Resource)
    (v : Verification) :
    Triple (jobFiles built) (Settled d) (backupResource ctx job p sp res v)
      (fun _ => Settled d) := by
  rcases backupResource_shape ctx job p sp res v with ⟨body, heq, hbody⟩
  rw [heq]
  refine triple_check (HandedOver d) _ _ _ ?_ (fun produced => ?_) fun err w h => h
  · exact triple_op _ _ fun w r w' h hs => backup_handedOver d (built p) p.tempDir res r w w' h hs
  · -- The controller owns the file now, and the clean-up is deferred.
    refine triple_deferring (fun _ => Closed Named d produced.path) _ _ ?_ fun r =>
      cleanupArtifact_settled built d { produced with host := job.host, plugin := job.plugin }
    refine triple_spares built _ _ (hbody _ ?_ produced)
    exact ⟨rfl, fun _ _ _ _ _ _ => rfl, fun _ _ _ => rfl, fun _ _ _ => rfl, fun _ => rfl,
      fun _ _ => rfl, fun _ _ => rfl, fun _ _ => rfl⟩

/-- So do all of them, one after the other. -/
theorem backupResources_settled (ctx : Ctx) (job : Job) (p : Instance) (sp : S)
    (v : Verification) (resources : List Resource) :
    Triple (jobFiles built) (Settled d) (backupResources ctx job p sp v resources)
      (fun _ => Settled d) := by
  induction resources with
  | nil => exact triple_ret _ fun w h => h
  | cons res rest ih =>
      refine triple_bind (fun _ => Settled d) _ _
        (backupResource_settled built d ctx job p sp res v) fun r => ?_
      refine triple_bind (fun _ => Settled d) _ _ ih fun errs => ?_
      cases r <;> exact triple_ret _ fun w h => h

theorem runInstance_settled (ctx : Ctx) (job : Job) (p : Instance) (sp : S) (v : Verification) :
    Triple (jobFiles built) (Settled d) (runInstance ctx job p sp v) (fun _ => Settled d) := by
  have hspares : ∀ {α : Type} (q : Proc S α), Calls (fun o => o.sparesFiles = true) q →
      Triple (jobFiles built) (Settled d) q (fun _ => Settled d) := triple_spares built (Settled d)
  refine triple_check (fun _ => Settled d) _ _ _ (hspares _ (calls_call _ rfl)) (fun _ => ?_)
    fun err w h => h
  refine triple_bind (fun _ => Settled d) _ _ (hspares _ (calls_publish_spares _ _)) fun _ => ?_
  refine triple_check (fun _ => Settled d) _ _ _ (hspares _ (calls_call _ rfl))
    (fun resources => ?_) fun err w h => h
  refine triple_bind (fun _ => Settled d) _ _ (hspares _ (calls_publish_spares _ _)) fun _ => ?_
  refine triple_bind (fun _ => Settled d) _ _
    (backupResources_settled built d ctx job p sp v resources) fun errs => ?_
  refine triple_bind (fun _ => Settled d) _ _ (hspares _ (calls_call _ rfl)) fun applied => ?_
  cases applied with
  | error err => exact triple_ret _ fun w h => h
  | ok u => exact hspares _ (calls_bind _ _ _ (calls_publish_spares _ _) fun _ => trivial)

/-- A job leaves nothing, whatever fails. -/
theorem runJob_settled (c : Controller S) (job : Job) :
    Triple (jobFiles built) (Settled d) (c.runJob job) (fun _ => Settled d) := by
  -- Most of a job never touches a file.
  have hspares : ∀ {α : Type} (q : Proc S α), Calls (fun o => o.sparesFiles = true) q →
      Triple (jobFiles built) (Settled d) q (fun _ => Settled d) := triple_spares built (Settled d)
  have hdone : ∀ r : Except Bytes Unit,
      Triple (jobFiles (S := S) built) (Settled d) (.ret r) (fun _ => Settled d) := fun r =>
    triple_ret r fun w h => h
  unfold runJob
  split
  · exact hdone _
  · next srv _ =>
      split
      · exact hdone _
      · split
        · exact hdone _
        · next sp _ =>
            refine triple_check (fun _ => Settled d) _ _ _ (hspares _ (calls_call _ rfl))
              (fun _ => ?_) fun err w h => h
            refine triple_bind (fun _ => Settled d) _ _ (hspares _ (calls_publish_spares _ _))
              fun _ => ?_
            -- The pipeline is between two events, and only its plugin makes files.
            refine triple_bind (fun _ => Settled d) _ _ ?_ fun r => ?_
            · refine triple_check (fun _ => Settled d) _ _ _ (hspares _ ?_)
                (fun cfg => runInstance_settled built d _ job _ sp _) fun err w h => h
              exact calls_check _ _ _ _ (calls_call _ rfl) fun _ => trivial
            · exact hspares _ (calls_bind _ _ _ (calls_publish_spares _ _) fun _ =>
                calls_bind _ _ _ (calls_call _ rfl) fun _ => trivial)

end Settled

/-- The files after a job are those before it, with what they held, and whatever
    was removed is a file that one of the job's own backups made. -/
theorem no_artifact_outlives (c : Controller S) (job : Job) (built : Instance → BackupPlugin)
    (d d' : LocalFiles) (r : Except Bytes Unit) (hmade : d.made = ∅) (hremoved : d.removed = ∅)
    (h : Performs (jobFiles built) (c.runJob job) d r d') :
    d'.files = d.files ∧ d'.removed ⊆ d'.made ∧ ∀ path ∈ d'.made, d.files path = none := by
  have hend := runJob_settled built d c job d r d' (settled_self d hmade hremoved) h
  exact ⟨hend.same, hend.own, hend.fresh⟩

/-! ### A job that makes a file -/

/-- A machine without files. -/
def noFiles : LocalFiles := ⟨fun _ => none, ∅, ∅, ∅⟩

/-- What a removal does. -/
def removing (path : Bytes) (w : LocalFiles) : Except Bytes Unit × LocalFiles :=
  if w.files path = none then (.error "no such file", w)
  else (.ok (), { w with
    files := Function.update w.files path none, removed := insert path w.removed })

theorem touches_removing (path : Bytes) (w : LocalFiles) :
    Touches Named w (.removed path (removing path w).1) (removing path w).2 := by
  unfold removing
  by_cases h : w.files path = none
  · rw [if_pos h]
    exact Touches.absent w path _ h
  · rw [if_neg h]
    exact Touches.removed w path h

/-- The name of the file. -/
def journalFile : Bytes := "/tmp/logs-journal-1"

/-- What asking for a file does where that name is the only one left. -/
def making (w : LocalFiles) : Except Bytes Bytes × LocalFiles :=
  if w.files journalFile = none then
    (.ok journalFile, ⟨Function.update w.files journalFile (some []), insert journalFile w.held,
      insert journalFile w.made, w.removed⟩)
  else (.error "no name is left", w)

theorem touches_making (w : LocalFiles) : Touches Named w (.created (making w).1) (making w).2 := by
  unfold making
  by_cases h : w.files journalFile = none
  · rw [if_pos h]
    exact Touches.created w journalFile [] (by decide) h
  · rw [if_neg h]
    exact Touches.refused w _

/-- A host whose commands succeed and say nothing. -/
def quietHost : (o : RemoteOp) → LocalFiles → RemoteAns o × LocalFiles
  | .createTemp _ _, w => making w
  | .closeFile path, w => (.ok (), { w with held := w.held \ {path} })
  | .removeFile path, w => removing path w
  | .openFile _, w => (.ok ⟨[], none⟩, w)
  | .stat _, w => (.ok (0 : Int), w)
  | .run _ _ _, w => (.ok (), w)
  | .now, w => ((0 : Int), w)

theorem files_quietHost (o : RemoteOp) (w : LocalFiles) :
    Remote.files w o (quietHost o w).1 (quietHost o w).2 := by
  cases o with
  | createTemp dir pattern => exact touches_making w
  | closeFile path => exact Touches.closed w path
  | removeFile path => exact touches_removing path w
  | run command stdin stdout => cases stdout with
    | none => rfl
    | some path => exact Touches.unwritten w path
  | openFile | stat | now => rfl

/-- The plugin that backs the journal up. -/
def journalPlugin : BackupPlugin := .logs ⟨true, [], [], 0⟩

/-- A process whose store forgets and whose repository refuses everything. -/
def forgetful : (o : Op Unit) → LocalFiles → Ans o × LocalFiles
  | .store _ o, w => (match o with
      | .getJob _ => .error .notFound
      | .updateJobStatus _ _ => .ok ()
      | .getPluginSettings _ _ => .ok none
      | .createJob _ | .recordSnapshot _ | .setPluginSettings _ _ _ => .error []
      | .listJobsByStatus _ | .listJobs | .listSnapshots _ | .listEventsPage _ => .error []
      | .failOrphanedJobs => .error [], w)
  | .publish _ _, w => ((), w)
  | .enqueue _, w => (.error [], w)
  | .now, w => ((0 : Int), w)
  | .factory _, w => (.ok (), w)
  | .discover _ _, w => (.ok [⟨Logs.journalResource, "systemd journal"⟩], w)
  | .backup _ p res, w => exec quietHost (Logs.backup ⟨true, [], [], 0⟩ p.tempDir res) w
  | .verify _ _ a, w => exec quietHost (Logs.verify a) w
  | .restore _ _ _, w => exec quietHost Logs.restore w
  | .checksumFile _, w => (.ok [], w)
  | .removeFile path, w => removing path w
  | .storeArtifact _ _ _, w => (.error "repository is locked", w)
  | .verifySnapshot _ _ _, w => (.error [], w)
  | .applyRetention _ _ _ _, w => (.error [], w)

theorem jobFiles_forgetful (o : Op Unit) (w : LocalFiles) :
    jobFiles (fun _ => journalPlugin) w o (forgetful o w).1 (forgetful o w).2 := by
  cases o with
  | backup | verify | restore =>
      exact steps_exec Remote.files quietHost files_quietHost _ w
  | removeFile path => exact touches_removing path w
  | _ => rfl

/-- The journal's file is made and removed again when it cannot be stored. -/
theorem no_artifact_outlives_journal : ∃ d' r,
    Performs (jobFiles fun _ => journalPlugin) (filesController.runJob filesJob) noFiles r d' ∧
      journalFile ∈ d'.removed ∧ d'.files = noFiles.files := by
  have hrun := steps_exec (jobFiles fun _ => journalPlugin) forgetful jobFiles_forgetful
    (filesController.runJob filesJob) noFiles
  refine ⟨_, _, hrun, ?_, ?_⟩
  · exact Set.mem_insert _ _
  · exact (no_artifact_outlives filesController filesJob (fun _ => journalPlugin) noFiles _ _
      rfl rfl hrun).1

end Controller

end Bop
