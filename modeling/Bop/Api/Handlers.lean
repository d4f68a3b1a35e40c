import Bop.Api.Http
import Bop.Controller.RunJob
import Bop.Json.Decode
import Mathlib.Algebra.Group.Int.Defs

/-!
# The Handlers

What each endpoint does once the middleware has let a request through. The
handlers that read only query the metadata store. Two write: triggering a
backup creates a job and enqueues it for the controller's own consumer, and
setting a plugin's configuration replaces its row.

How a plugin's configuration looks on the wire differs from plugin to plugin
and is hidden behind an interface, so the two configuration handlers are
generic in it.

## Main definitions

* `ConfigDTO`: The wire format of one plugin's configuration.
* `listHosts`, `listJobs`, `getJob`, `listSnapshots`, `listEvents`: The reading
  endpoints.
* `getPluginConfig`, `setPluginConfig`: A plugin's stored configuration.
* `triggerBackup`: A new job for the consumer.
-/

namespace Bop

namespace Api

open Prog (check)

variable {S D : Type}

/-- `pluginConfigDTO`: the wire format of one plugin's configuration. -/
structure ConfigDTO (D : Type) where
  decode : Bytes → Option D
  toRawConfig : D → List (Bytes × Dyn)
  fromRawConfig : Option (List (Bytes × Dyn)) → D
  validate : D → Except Bytes Unit

/-- The order of Go strings. -/
def bytesLE (a b : Bytes) : Bool := a ≤ b

/-- `listHostsHandler`. -/
def listHosts (inv : Inventory) : Response D :=
  let hosts := inv.servers.entries.map (fun s =>
    { name := s.1
      host := s.2.host
      plugins := s.2.plugins.keys.mergeSort bytesLE
      schedule := s.2.schedule : HostSummary })
  ⟨200, .hosts (hosts.mergeSort (fun a b => bytesLE a.name b.name))⟩

/-- `newJobSummary`. -/
def newJobSummary (job : Job) : JobSummary :=
  ⟨job.id, job.host, job.plugin, job.policy, job.status.text, job.queuedAt⟩

/-- `validJobStatuses`, as the status a text names. -/
def parseJobStatus (text : Bytes) : Option JobStatus :=
  [.queued, .inProgress, .completed, .failed].find? (fun st => st.text = text)

/-- The answer to a list of jobs. -/
def jobsResponse : Except Bytes (List Job) → Response D
  | .error err => writeError 500 err
  | .ok jobs => ⟨200, .jobs (jobs.map newJobSummary)⟩

/-- `listJobsHandler`. -/
def listJobs (req : Request) : Proc S (Response D) :=
  let statusParam := first req.query "status"
  if statusParam = [] then do
    let jobs ← store .caller .listJobs
    return jobsResponse jobs
  else match parseJobStatus statusParam with
    | none => return writeError 400 ("status: unsupported value " ++ statusParam)
    | some status => do
        let jobs ← store .caller (.listJobsByStatus status)
        return jobsResponse jobs

/-- `getJobHandler`. -/
def getJob (id : Bytes) : Proc S (Response D) := do
  match ← store .caller (.getJob id) with
  | .error .notFound => return writeError 404 "job not found"
  | .error (.other err) => return writeError 500 err
  | .ok job => return ⟨200, .job (newJobSummary job)⟩

/-- `listSnapshotsHandler`. -/
def listSnapshots (req : Request) : Proc S (Response D) :=
  let host := first req.query "host"
  if host = [] then return writeError 400 "host query parameter is required"
  else do
    match ← store .caller (.listSnapshots host) with
    | .error err => return writeError 500 err
    | .ok snaps => return ⟨200, .snapshots snaps⟩

/-- The number of events a page holds when the request does not say, and the
    most it may ask for. -/
def defaultEventsLimit : Int := 100

def maxEventsLimit : Int := 1000

/-- The page size a request asks for, or `none` when it is not one. -/
def eventsLimit (raw : Bytes) : Option Int :=
  if raw = [] then some defaultEventsLimit
  else match atoi raw with
    | none => none
    | some n => if n ≤ 0 then none else some (if n > maxEventsLimit then maxEventsLimit else n)

/-- `listEventsHandler`. -/
def listEvents (req : Request) : Proc S (Response D) :=
  match eventsLimit (first req.query "limit") with
  | none => return writeError 400 "limit: must be a positive integer"
  | some limit => do
      match ← store .caller
        (.listEventsPage ⟨first req.query "job_id", first req.query "host", limit⟩) with
      | .error err => return writeError 500 err
      | .ok events => return ⟨200, .events events⟩

/-- The error of a plugin without a wire format. -/
def notConfigurable (pluginName : Bytes) : Response D :=
  writeError 400 ("web configuration isn't available for \"" ++ pluginName ++ "\"")

/-- `getPluginConfigHandler`. -/
def getPluginConfig (dtos : Bytes → Option (ConfigDTO D)) (host pluginName : Bytes) :
    Proc S (Response D) :=
  match dtos pluginName with
  | none => return notConfigurable pluginName
  | some dto => do
      match ← store .caller (.getPluginSettings host pluginName) with
      | .error err => return writeError 500 err
      | .ok none => return writeError 404 "no stored config for this host/plugin"
      | .ok (some configJSON) => match Json.unmarshalMap configJSON with
        | .error err => return writeError 500 ("stored config is not valid JSON: " ++ err)
        | .ok raw => return ⟨200, .config (dto.fromRawConfig raw)⟩

mutual

/-- What `json.Marshal` makes of an `interface{}`. A map's keys are sorted. -/
def toJson : Dyn → Json
  | .nil => .null
  | .bool b => .bool b
  | .int i => Json.int i
  | .float n => .num n
  | .str s => .str s
  | .list xs => .arr (toJsonElements xs)
  | .map ms => .obj ((toJsonMembers ms).mergeSort (fun a b => bytesLE a.1 b.1))

def toJsonElements : List Dyn → List Json
  | [] => []
  | x :: xs => toJson x :: toJsonElements xs

def toJsonMembers : List (Bytes × Dyn) → List (Bytes × Json)
  | [] => []
  | (k, v) :: ms => (k, toJson v) :: toJsonMembers ms

end

/-- `setPluginConfigHandler`. What is stored is the translated map, not the
    request's body. -/
def setPluginConfig (dtos : Bytes → Option (ConfigDTO D)) (host pluginName : Bytes)
    (req : Request) : Proc S (Response D) :=
  match dtos pluginName with
  | none => return notConfigurable pluginName
  | some ops =>
      if req.body.readErr.isSome then return writeError 400 "invalid JSON body"
      else match ops.decode req.body.data with
        | none => return writeError 400 "invalid JSON body"
        | some dto => match ops.validate dto with
          | .error err => return writeError 400 err
          | .ok _ => do
              let configJSON := Json.render (toJson (.map (ops.toRawConfig dto)))
              match ← store .caller (.setPluginSettings host pluginName configJSON) with
              | .error err => return writeError 500 err
              | .ok _ => return ⟨200, .config dto⟩

/-- `triggerBackupRequest`. -/
structure TriggerBackupRequest where
  host : Bytes
  plugin : Bytes

/-- Decoding one member of the request. -/
def TriggerBackupRequest.member (key : Bytes) (v : Json) (req : TriggerBackupRequest) :
    Option TriggerBackupRequest :=
  if Json.isField "host" key then
    (Json.decodeString v req.host).map (fun s => { req with host := s })
  else if Json.isField "plugin" key then
    (Json.decodeString v req.plugin).map (fun s => { req with plugin := s })
  else some req

/-- `json.NewDecoder(body).Decode(&req)`. -/
def TriggerBackupRequest.decode (body : FileContent) : Option TriggerBackupRequest := do
  let v ← Json.parseFirst body.data
  Json.decodeObject TriggerBackupRequest.member v ⟨[], []⟩

/-- `triggerBackupHandler`. The job row is written before the job is enqueued,
    so an enqueue that fails leaves it to be found on the next start. -/
def triggerBackup (ctl : Controller S) (body : FileContent) : Proc S (Response D) :=
  match TriggerBackupRequest.decode body with
  | none => return writeError 400 "invalid JSON body"
  | some req =>
      if req.host = [] ∨ req.plugin = [] then
        return writeError 400 "host and plugin are required"
      else do
        match ← ctl.buildPlugin .caller req.host req.plugin with
        | .error err => return writeError 404 err
        | .ok p =>
            let job ← createNewJob req.host req.plugin p.server.retention
            match ← store .caller (.createJob job) with
            | .error err => return writeError 500 ("create job: " ++ err)
            | .ok _ =>
                publish .caller ⟨.backupRequested, job.id, req.host, req.plugin, [], [], 0⟩
                -- A full queue is only logged.
                let _ ← call (.enqueue job)
                return ⟨202, .job (newJobSummary job)⟩

end Api

end Bop
