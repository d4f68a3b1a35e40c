import Bop.Effect.Program
import Bop.Inventory
import Bop.Metadata.Store

/-!
# What a Process Can Do

The operations a `bop` process calls on the world: the metadata store, the
queue, the event publisher, the clock, the plugin built for a job and the
repository its snapshots go to. Everything the controller, the scheduler, the
API and the command line do is a program over these.

A plugin and a repository are ports. The controller only calls them, so an
operation names the instance and its arguments, and what it does inside is
the business of whoever implements it. The repository type is a parameter.

An operation that can be cancelled names the context it runs under. Which
context that is matters: a job whose own context has expired must still be
able to record that it failed.

## Main definitions

* `Ctx`: The contexts operations run under.
* `Instance`: A plugin built for one host.
* `Op`, `Ans`: The operations and their answers.
* `Proc`: A program of a process.
* `call`: The program that calls one operation.

## Theorems

* `runs_publish_iff`: Announcing reads the clock and publishes.
* `ans_nonempty`: Every operation can be answered.
-/

namespace Bop

/-- The context an operation runs under. -/
inductive Ctx
  /-- The caller's own: the consumer's, the command's or the request's. -/
  | caller
  /-- The job's, which `JobTimeout` bounds. -/
  | pipeline
  /-- The fresh context of `RunJob`'s final write. -/
  | record
  /-- `context.Background()`. -/
  | background
  deriving DecidableEq

/-- A plugin, as a factory built it for one host. -/
structure Instance where
  plugin : Bytes
  server : Server
  config : Option PluginConfig
  tempDir : Bytes

/-- The operations of a process whose repositories have type `S`. -/
inductive Op (S : Type)
  | store (ctx : Ctx) (o : StoreOp)
  | publish (ctx : Ctx) (e : Event)
  | enqueue (job : Job)
  | now
  | factory (p : Instance)
  | discover (ctx : Ctx) (p : Instance)
  | backup (ctx : Ctx) (p : Instance) (res : Resource)
  | verify (ctx : Ctx) (p : Instance) (a : Artifact)
  | restore (ctx : Ctx) (p : Instance) (a : Artifact)
  | checksumFile (path : Bytes)
  | removeFile (path : Bytes)
  | storeArtifact (ctx : Ctx) (sp : S) (a : Artifact)
  | verifySnapshot (ctx : Ctx) (sp : S) (id : SnapshotID)
  | applyRetention (ctx : Ctx) (sp : S) (host : Bytes) (policy : Policy)

/-- What an operation answers. Publishing answers nothing at all. -/
abbrev Ans {S : Type} : Op S → Type
  | .store _ o => StoreAns o
  | .publish _ _ => Unit
  | .enqueue _ => Except Bytes Unit
  | .now => Time
  | .factory _ => Except Bytes Unit
  | .discover _ _ => Except Bytes (List Resource)
  | .backup _ _ _ => Except Bytes Artifact
  | .verify _ _ _ => Except Bytes Unit
  | .restore _ _ _ => Except Bytes Unit
  | .checksumFile _ => Except Bytes Bytes
  | .removeFile _ => Except Bytes Unit
  | .storeArtifact _ _ _ => Except Bytes SnapshotID
  | .verifySnapshot _ _ _ => Except Bytes Unit
  | .applyRetention _ _ _ _ => Except Bytes Unit

/-- A program of a process. -/
abbrev Proc (S α : Type) := Prog (Op S) Ans α

variable {S : Type}

/-- Calling one operation. -/
abbrev call (o : Op S) : Proc S (Ans o) := Prog.op o

/-- The clock. -/
abbrev now : Proc S Time := call .now

/-- A statement of the metadata store. -/
abbrev store (ctx : Ctx) (o : StoreOp) : Proc S (StoreAns o) := call (.store ctx o)

/-- Announcing an event, stamped with the time. A subscriber that panics is
    recovered from, so there is no error and no early exit. -/
def publish (ctx : Ctx) (e : Event) : Proc S Unit := do
  let timestamp ← now
  call (.publish ctx { e with timestamp := timestamp })

/-- `core.NewJob`. -/
def createNewJob (host plugin : Bytes) (policy : Policy) : Proc S Job := do
  let unixNano ← now
  let queuedAt ← now
  return newJob host plugin policy unixNano queuedAt

/-- A run that announces an event reads the clock and publishes before it goes on. -/
theorem runs_publish_iff {α : Type} (ctx : Ctx) (e : Event) (k : Unit → Proc S α)
    (tr : Prog.Trace (Op S) Ans) (r : α) :
    Prog.Runs (publish ctx e >>= k) tr r ↔
      ∃ t tr', tr = ⟨.now, t⟩ :: ⟨.publish ctx { e with timestamp := t }, ()⟩ :: tr' ∧
        Prog.Runs (k ()) tr' r := by
  constructor
  · intro h
    rcases (Prog.runs_call_iff _ _ _ _).mp h with ⟨t, tr₁, rfl, hpublish⟩
    rcases (Prog.runs_call_iff _ _ _ _).mp hpublish with ⟨_, tr₂, rfl, hk⟩
    exact ⟨t, tr₂, rfl, hk⟩
  · rintro ⟨t, tr', rfl, h⟩
    have hpublish := Prog.Runs.call (Op.publish ctx { e with timestamp := t }) k () tr' r h
    exact Prog.Runs.call Op.now _ t _ r hpublish

/-- Every operation can be answered. -/
theorem ans_nonempty (o : Op S) : Nonempty (Ans o) := by
  cases o with
  | store ctx o => cases o <;> first | exact ⟨.error []⟩ | exact ⟨.error .notFound⟩
  | publish => exact ⟨()⟩
  | now => exact ⟨(0 : Int)⟩
  | _ => exact ⟨.error []⟩

end Bop
