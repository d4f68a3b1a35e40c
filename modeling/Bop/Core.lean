import Bop.Text.Bytes

/-!
# Domain Types

The types every port shares: what a plugin discovers and produces, what a
repository keeps, and the job that ties one run of the two together. A job's
identifier is made of its host, its plugin and the clock, and the clock is
read a second time for the queueing time, so building a job takes two
readings.

Times are nanoseconds since the epoch, in UTC.

## Main definitions

* `Resource`, `Artifact`, `Snapshot`: What a backup reads, makes and leaves.
* `Policy`, `Verification`: What a server asks of retention and restore tests.
* `JobStatus`, `Job`: A request to back up one host with one plugin.
* `newJob`: A job ready to be persisted as queued.
-/

namespace Bop

/-- A `time.Time` in UTC, in nanoseconds since the epoch. -/
abbrev Time := Int

/-- A unit a plugin can back up. -/
structure Resource where
  id : Bytes
  name : Bytes
  deriving DecidableEq

/-- The output of a plugin's backup, as the controller completes it. -/
structure Artifact where
  resourceID : Bytes
  host : Bytes
  plugin : Bytes
  path : Bytes
  size : Int
  checksum : Bytes
  encrypted : Bool
  createdAt : Time
  deriving DecidableEq

/-- A stored artifact's name in its repository. -/
abbrev SnapshotID := Bytes

/-- A stored artifact as the metadata service records it. -/
structure Snapshot where
  id : SnapshotID
  jobID : Bytes
  host : Bytes
  plugin : Bytes
  size : Int
  checksum : Bytes
  createdAt : Time
  deriving DecidableEq

/-- A retention policy. -/
structure Policy where
  daily : Int
  weekly : Int
  monthly : Int
  yearly : Int
  deriving DecidableEq

/-- The optional restore test. -/
structure Verification where
  enabled : Bool
  targetDir : Bytes
  deriving DecidableEq

/-- Where a job is in its life. -/
inductive JobStatus
  | queued | inProgress | completed | failed
  deriving DecidableEq

/-- A status as it is stored and shown. -/
def JobStatus.text : JobStatus → Bytes
  | .queued => "queued"
  | .inProgress => "in_progress"
  | .completed => "completed"
  | .failed => "failed"

/-- A request to back up one host with one plugin. -/
structure Job where
  id : Bytes
  host : Bytes
  plugin : Bytes
  policy : Policy
  status : JobStatus
  queuedAt : Time
  deriving DecidableEq

/-- `core.NewJob`, given its two readings of the clock. -/
def newJob (host plugin : Bytes) (policy : Policy) (unixNano queuedAt : Time) : Job where
  id := host ++ "-" ++ plugin ++ "-" ++ itoa unixNano
  host := host
  plugin := plugin
  policy := policy
  status := .queued
  queuedAt := queuedAt

/-- The suffix that marks a restore as a test. -/
def restoreTestSuffix : Bytes := "-bop-verify"

end Bop
