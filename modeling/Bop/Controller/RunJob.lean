import Bop.Json.Dynamic
import Bop.Process

/-!
# Running a Job

The pipeline of one job: discover the resources, back each up, verify, hash,
store, verify again, record, optionally restore, and apply retention. One
resource's failure does not stop the others, so errors are collected.

`RunJob` brackets the pipeline with two writes to the job's row. Before the
first, an error means the job was never picked up. After it, every error ends
in the second, which runs under a context of its own.

## Main definitions

* `Controller`: The controller and what it was configured with.
* `storageFor`: The repository a host's backups live in.
* `configFrom`, `resolvePluginConfig`: The settings a plugin is built from.
* `backupResource`: One resource from backup to restore test.
* `runInstance`, `runPipeline`: All resources, then retention.
* `runJob`: The pipeline between its two status writes.
* `buildPlugin`: The same resolution without a job.
-/

namespace Bop

open Prog (check deferring)

variable {S : Type}

/-- The controller. Factories are known by the names they are registered
    under. -/
structure Controller (S : Type) where
  inventory : Inventory
  /-- The default repository. -/
  storage : S
  /-- The global default. -/
  verification : Verification
  tempDir : Bytes
  /-- Zero means no deadline. -/
  jobTimeout : Int
  factories : List Bytes
  /-- The named repositories. -/
  storages : GoMap S

namespace Controller

/-- The error of an unknown host. -/
def hostNotFound (host : Bytes) : Bytes :=
  "controller: host " ++ quoteGo host ++ " not found in inventory"

/-- The error of an unknown plugin. -/
def pluginNotRegistered (plugin : Bytes) : Bytes :=
  "controller: no plugin registered for " ++ quoteGo plugin

/-- `StorageFor`: the repository a host's backups live in. -/
def storageFor (c : Controller S) (host : Bytes) : Except Bytes S :=
  match c.inventory.servers.lookup host with
  | none => .error (hostNotFound host)
  | some srv =>
      if srv.storage = [] then .ok c.storage
      else match c.storages.lookup srv.storage with
        | none => .error ("controller: host " ++ quoteGo host ++ ": storage " ++
            quoteGo srv.storage ++ " is not defined in config.yaml storage.repositories")
        | some sp => .ok sp

/-- What a plugin is configured with, given what is stored for it: the stored
    document, or the inventory's when there is none. -/
def configFrom (host pluginName : Bytes) (srv : Server) :
    Option Bytes → Except Bytes (Option PluginConfig)
  | some configJSON => match Json.unmarshalMap configJSON with
    | .error err => .error ("stored plugin config for " ++ quoteGo host ++ "/" ++
        quoteGo pluginName ++ " is not valid JSON: " ++ err)
    | .ok raw => .ok (some ⟨raw⟩)
  | none => match srv.plugins.lookup pluginName with
    | none => .error ("plugin " ++ quoteGo pluginName ++ " is not configured for host " ++
        quoteGo host)
    | some cfg => .ok cfg

/-- What is stored for a host and a plugin, else what the inventory says. -/
def resolvePluginConfig (ctx : Ctx) (host pluginName : Bytes) (srv : Server) :
    Proc S (Except Bytes (Option PluginConfig)) :=
  check (store ctx (.getPluginSettings host pluginName))
    (fun err => "resolve plugin config for " ++ quoteGo host ++ "/" ++ quoteGo pluginName ++
      ": " ++ err) fun found =>
  return configFrom host pluginName srv found

/-- `BuildPlugin`: the plugin a job for this host would run with. -/
def buildPlugin (c : Controller S) (ctx : Ctx) (host pluginName : Bytes) :
    Proc S (Except Bytes Instance) :=
  match c.inventory.servers.lookup host with
  | none => return .error (hostNotFound host)
  | some srv =>
      if pluginName ∉ c.factories then return .error (pluginNotRegistered pluginName)
      else
        check (resolvePluginConfig ctx host pluginName srv) ("controller: " ++ ·) fun cfg =>
        let p : Instance := ⟨pluginName, srv, cfg, c.tempDir⟩
        check (call (.factory p)) (fun err => "controller: instantiate plugin " ++
          quoteGo pluginName ++ " for " ++ quoteGo host ++ ": " ++ err) fun _ =>
        return .ok p

/-- `resolveVerification`: an override replaces the default wholesale. -/
def resolveVerification (global : Verification) (override : Option Verification) :
    Verification :=
  match override with
  | some v => v
  | none => global

/-- An event about a job. The publisher stamps it. -/
def jobEvent (type : EventType) (job : Job) (resource : Bytes)
    (fields : List (Bytes × Bytes)) : Event :=
  ⟨type, job.id, job.host, job.plugin, resource, fields, 0⟩

/-- `cleanupArtifact`. A failure to remove the file is only logged. -/
def cleanupArtifact (a : Artifact) : Proc S Unit :=
  if a.path = [] then return () else do
    let _ ← call (.removeFile a.path)
    return ()

/-- `backupResource`: one resource through Backup, Verify, checksum, Store,
    storage-level Verify, recording and the optional restore test. -/
def backupResource (ctx : Ctx) (job : Job) (p : Instance) (sp : S) (res : Resource)
    (verification : Verification) : Proc S (Except Bytes Unit) :=
  check (call (.backup ctx p res)) ("backup: " ++ ·) fun produced =>
  let artifact := { produced with host := job.host, plugin := job.plugin }
  -- From here on the file is removed on every way out.
  deferring (cleanupArtifact artifact) <|
  check (call (.verify ctx p artifact)) ("verify artifact: " ++ ·) fun _ =>
  check (call (.checksumFile artifact.path)) ("checksum: " ++ ·) fun checksum => do
  let artifact := { artifact with checksum := checksum }
  publish ctx (jobEvent .artifactCreated job res.id
    [("size", itoa artifact.size), ("checksum", artifact.checksum)])
  publish ctx (jobEvent .artifactUploadStarted job res.id [])
  check (call (.storeArtifact ctx sp artifact)) ("store: " ++ ·) fun snapshotID => do
  publish ctx (jobEvent .artifactUploadCompleted job res.id [("snapshot_id", snapshotID)])
  publish ctx (jobEvent .repositoryVerificationStarted job res.id [])
  check (call (.verifySnapshot ctx sp snapshotID)) ("storage verify: " ++ ·) fun _ => do
  publish ctx (jobEvent .repositoryVerificationCompleted job res.id [])
  let createdAt ← now
  let snap : Snapshot := ⟨snapshotID, job.id, job.host, job.plugin, artifact.size,
    artifact.checksum, createdAt⟩
  check (store ctx (.recordSnapshot snap)) ("record snapshot: " ++ ·) fun _ =>
  if verification.enabled then do
    -- The target is a scratch name, never the live resource.
    let restoreTarget := { artifact with resourceID := res.id ++ restoreTestSuffix }
    publish ctx (jobEvent .restoreVerificationStarted job res.id [])
    check (call (.restore ctx p restoreTarget)) ("restore test: " ++ ·) fun _ => do
    publish ctx (jobEvent .restoreVerificationCompleted job res.id [])
    return .ok ()
  else return .ok ()

/-- The loop over the resources: every one is attempted, and the errors of
    those that failed are returned in order. -/
def backupResources (ctx : Ctx) (job : Job) (p : Instance) (sp : S)
    (verification : Verification) : List Resource → Proc S (List Bytes)
  | [] => return []
  | res :: rest => do
      let r ← backupResource ctx job p sp res verification
      let errs ← backupResources ctx job p sp verification rest
      match r with
      | .ok _ => return errs
      | .error err => return ("resource " ++ quoteGo res.id ++ ": " ++ err) :: errs

/-- The error of a pipeline that collected some. -/
def joined (errs : List Bytes) : Except Bytes Unit :=
  if errs = [] then .ok ()
  else .error (itoaNat errs.length ++ " error(s): " ++ join "\n" errs)

/-- `runPipeline` once the plugin's configuration is resolved. Retention is
    applied once, whatever became of the resources. -/
def runInstance (ctx : Ctx) (job : Job) (p : Instance) (sp : S) (verification : Verification) :
    Proc S (Except Bytes Unit) :=
  check (call (.factory p))
    (fun err => "instantiate plugin " ++ quoteGo job.plugin ++ ": " ++ err) fun _ => do
  publish ctx (jobEvent .pluginDiscoveryStarted job [] [])
  check (call (.discover ctx p))
    (fun err => "discover on " ++ quoteGo job.host ++ ": " ++ err) fun resources => do
  publish ctx (jobEvent .pluginDiscoveryCompleted job []
    [("resource_count", itoaNat resources.length)])
  let errs ← backupResources ctx job p sp verification resources
  match ← call (.applyRetention ctx sp job.host job.policy) with
  | .error err => return joined (errs ++ ["apply retention: " ++ err])
  | .ok _ =>
      publish ctx (jobEvent .retentionApplied job [] [])
      return joined errs

/-- `runPipeline`. -/
def runPipeline (c : Controller S) (ctx : Ctx) (job : Job) (srv : Server) (sp : S) :
    Proc S (Except Bytes Unit) :=
  check (resolvePluginConfig ctx job.host job.plugin srv) id fun cfg =>
  runInstance ctx job ⟨job.plugin, srv, cfg, c.tempDir⟩ sp
    (resolveVerification c.verification srv.verification)

/-- The context the pipeline runs under. -/
def pipelineCtx (c : Controller S) : Ctx := if c.jobTimeout > 0 then .pipeline else .caller

/-- The status a job ends in. -/
def finalStatus : Except Bytes Unit → JobStatus
  | .ok _ => .completed
  | .error _ => .failed

/-- The event a job ends with. -/
def completionEvent (job : Job) : Except Bytes Unit → Event
  | .ok _ => jobEvent .backupCompleted job [] []
  | .error err => jobEvent .backupFailed job [] [("error", err)]

/-- What `RunJob` returns, given how the pipeline ended and what the final
    write answered. -/
def jobResult (job : Job) : Except Bytes Unit → Except Bytes Unit → Except Bytes Unit
  | .error pipelineErr, .error err => .error ("controller: job " ++ job.id ++ " failed (" ++
      pipelineErr ++ "); additionally failed to record failure: " ++ err)
  | .ok _, .error err => .error ("controller: mark job " ++ job.id ++ " completed: " ++ err)
  | .error pipelineErr, .ok _ => .error ("controller: job " ++ job.id ++ " failed: " ++
      pipelineErr)
  | .ok _, .ok _ => .ok ()

/-- What `RunJob` does once the job is marked: announce it, run the pipeline
    and record how it ended, under a context of its own. -/
def runMarked (c : Controller S) (job : Job) (srv : Server) (sp : S) :
    Proc S (Except Bytes Unit) := do
  publish .caller (jobEvent .backupStarted job [] [])
  let pipelineErr ← runPipeline c c.pipelineCtx job srv sp
  -- The context of the job may have ended with the pipeline.
  publish .record (completionEvent job pipelineErr)
  let written ← store .record (.updateJobStatus job.id (finalStatus pipelineErr))
  return jobResult job pipelineErr written

/-- `RunJob`. -/
def runJob (c : Controller S) (job : Job) : Proc S (Except Bytes Unit) :=
  match c.inventory.servers.lookup job.host with
  | none => return .error (hostNotFound job.host)
  | some srv =>
      -- Refused jobs are not marked, so they stay queued.
      if job.plugin ∉ c.factories then return .error (pluginNotRegistered job.plugin)
      else match c.storageFor job.host with
        | .error err => return .error err
        | .ok sp =>
            check (store .caller (.updateJobStatus job.id .inProgress))
              (fun err => "controller: mark job " ++ job.id ++ " in_progress: " ++ err)
              fun _ => runMarked c job srv sp

end Controller

/-! ### One host -/

/-- A host with one plugin. -/
def filesServer : Server where
  host := "10.0.0.1"
  sshUser := "root"
  sshKey := []
  plugins := AList.singleton "files" none
  retention := ⟨1, 0, 0, 0⟩
  schedule := []
  verification := none
  storage := []

/-- A controller for one host. -/
def hostController {S : Type} (name : Bytes) (srv : Server) (sp : S) : Controller S where
  inventory := ⟨AList.singleton name srv⟩
  storage := sp
  verification := ⟨false, []⟩
  tempDir := []
  jobTimeout := 0
  factories := ["files"]
  storages := ∅

/-- The same where it does not matter what a repository is. -/
def filesController : Controller Unit := hostController "web" filesServer ()

/-- A job for that host. -/
def filesJob : Job := newJob "web" "files" ⟨1, 0, 0, 0⟩ 1 2

/-- A store in which that job was left queued. -/
def leftQueued : Store :=
  { Store.empty with
    jobs := ⟨[filesJob], List.nodup_singleton _⟩ }

end Bop
