import Bop.Core

/-!
# Events

What the controller and the scheduler announce as they go. Publishing has no
error: a subscriber that fails or panics is none of the publisher's business.

## Main definitions

* `EventType`: What happened.
* `EventType.outcome`: How a job ended, for the events that say so.
* `Event`: One announcement, with the moment it was made.
-/

namespace Bop

/-- What happened. -/
inductive EventType
  | backupRequested | backupStarted | backupCompleted | backupFailed
  | pluginDiscoveryStarted | pluginDiscoveryCompleted
  | artifactCreated | artifactUploadStarted | artifactUploadCompleted
  | repositoryVerificationStarted | repositoryVerificationCompleted
  | restoreVerificationStarted | restoreVerificationCompleted
  | retentionApplied
  deriving DecidableEq

/-- An event type as it is stored and shown. -/
def EventType.text : EventType → Bytes
  | .backupRequested => "BackupRequested"
  | .backupStarted => "BackupStarted"
  | .backupCompleted => "BackupCompleted"
  | .backupFailed => "BackupFailed"
  | .pluginDiscoveryStarted => "PluginDiscoveryStarted"
  | .pluginDiscoveryCompleted => "PluginDiscoveryCompleted"
  | .artifactCreated => "ArtifactCreated"
  | .artifactUploadStarted => "ArtifactUploadStarted"
  | .artifactUploadCompleted => "ArtifactUploadCompleted"
  | .repositoryVerificationStarted => "RepositoryVerificationStarted"
  | .repositoryVerificationCompleted => "RepositoryVerificationCompleted"
  | .restoreVerificationStarted => "RestoreVerificationStarted"
  | .restoreVerificationCompleted => "RestoreVerificationCompleted"
  | .retentionApplied => "RetentionApplied"

/-- How a job ended, for the two events that end one. -/
def EventType.outcome : EventType → Option JobStatus
  | .backupCompleted => some .completed
  | .backupFailed => some .failed
  | _ => none

/-- One announcement. -/
structure Event where
  type : EventType
  jobID : Bytes
  host : Bytes
  plugin : Bytes
  /-- The resource's identifier, when the event is about one. -/
  resource : Bytes
  /-- The payload, which differs from type to type. -/
  fields : List (Bytes × Bytes)
  timestamp : Time
  deriving DecidableEq

end Bop
