import Bop.Api.WriteScope
import Bop.Controller.Calls
import Bop.System.Model

/-!
# What a Producer Calls

A schedule that fires and a request that is served only make the calls listed
in `ProducerCalls`. Whatever holds of those calls holds of everything a
producer does.

## Main definitions

* `ProducerCalls`: A property of calls that a producer's calls have.

## Theorems

* `calls_producer`: What a producer calls.
-/

namespace Bop

open Prog

variable {S D Digest : Type}

/-- The property holds of every call of a schedule and of a request. -/
structure ProducerCalls (P : Op S → Prop) : Prop where
  reads : ∀ o, o.readsOnly = true → P o
  createJob : ∀ ctx job, P (.store ctx (.createJob job))
  setPluginSettings : ∀ ctx host plugin configJSON,
    P (.store ctx (.setPluginSettings host plugin configJSON))
  /-- The one event a producer announces. -/
  publish : ∀ ctx e, e.type = .backupRequested → P (.publish ctx e)
  enqueue : ∀ job, P (.enqueue job)

variable {P : Op S → Prop}

/-- Announcing and enqueueing a new job. -/
theorem calls_request {α : Type} (h : ProducerCalls P) (ctx : Ctx) (job : Job) (k : Proc S α)
    (hk : Calls P k) :
    Calls P (do
      publish ctx ⟨.backupRequested, job.id, job.host, job.plugin, [], [], 0⟩
      let _ ← call (.enqueue job)
      k) :=
  ⟨h.reads _ rfl, fun _ => ⟨h.publish ctx _ rfl, fun _ => ⟨h.enqueue job, fun _ => hk⟩⟩⟩

/-- A schedule. -/
theorem calls_dispatch (h : ProducerCalls P) (host : Bytes) (srv : Server)
    (order : List Bytes) : Calls P (Scheduler.dispatch host srv order : Proc S Unit) := by
  induction order with
  | nil => trivial
  | cons plugin rest ih =>
      refine ⟨h.reads _ rfl, fun _ => ⟨h.reads _ rfl, fun _ => ⟨h.createJob _ _, fun x => ?_⟩⟩⟩
      cases x with
      | error err => exact ih
      | ok u => exact calls_request h .background _ _ ih

namespace Api

/-- A triggered backup. -/
theorem calls_triggerBackup (h : ProducerCalls P) (ctl : Controller S) (body : FileContent) :
    Calls P (triggerBackup ctl body : Proc S (Response D)) := by
  unfold triggerBackup
  split
  · trivial
  · split
    · trivial
    · next req _ _ =>
        refine calls_bind _ _ _ (ctl.calls_buildPlugin _ _ _ (h.reads _ rfl)
          fun _ => h.reads _ rfl) fun r => ?_
        cases r with
        | error err => trivial
        | ok p =>
            refine ⟨h.reads _ rfl, fun _ => ⟨h.reads _ rfl, fun _ => ⟨h.createJob _ _,
              fun x => ?_⟩⟩⟩
            cases x with
            | error err => trivial
            | ok u => exact calls_request h .caller _ _ trivial

/-- Storing settings. -/
theorem calls_setPluginConfig (host plugin : Bytes)
    (h : ∀ ctx configJSON, P (.store ctx (.setPluginSettings host plugin configJSON)))
    (dtos : Bytes → Option (ConfigDTO D)) (req : Request) :
    Calls P (setPluginConfig dtos host plugin req : Proc S (Response D)) := by
  unfold setPluginConfig
  split
  · trivial
  · split
    · trivial
    · split
      · trivial
      · split
        · trivial
        · refine calls_bind _ _ _ (calls_call _ (h _ _)) fun x => ?_
          split <;> trivial

variable [DecidableEq Digest]

/-- Serving a request, whatever route it takes. -/
theorem calls_serve (h : ProducerCalls P) (s : Server S D Digest) (req : Request) :
    Calls P (s.serve req) := by
  have hreads : ∀ p : Proc S (Response D), ReadsOnly p → Calls P p :=
    fun p hp => calls_mono _ _ h.reads p hp
  -- The routes of the table, one after the other. Most of them only read.
  have hhandler : ∀ e ∈ s.table, ∀ vs, Calls P (e.handler req vs) := by
    intro e he vs
    simp only [Server.table, List.mem_cons, List.not_mem_nil, or_false] at he
    rcases he with rfl | rfl | rfl | rfl | rfl | rfl | rfl | rfl
    · trivial
    · exact hreads _ (readsOnly_listJobs req)
    · exact hreads _ (readsOnly_getJob _)
    · exact hreads _ (readsOnly_listSnapshots req)
    · exact hreads _ (readsOnly_listEvents req)
    · exact calls_triggerBackup h s.ctl req.body
    · exact hreads _ (readsOnly_getPluginConfig _ _ _)
    · exact calls_setPluginConfig _ _ (fun _ _ => h.setPluginSettings _ _ _ _) _ _
  unfold Server.serve
  cases hroute : s.route req with
  | none => trivial
  | some ev =>
      rcases ev with ⟨e, vs⟩
      simp only [authMiddleware]
      split
      · trivial
      · split
        · exact hhandler e (mem_table_of_route s req e vs hroute) vs
        · trivial

end Api

/-- What a producer calls. -/
theorem calls_producer [DecidableEq Digest] (h : ProducerCalls P) (api : Api.Server S D Digest)
    (p : Proc S Unit) (hp : Producer api p) : Calls P p := by
  cases hp with
  | dispatch host srv order => exact calls_dispatch h host srv order
  | serve req => exact calls_bind _ _ _ (Api.calls_serve h api req) fun _ => trivial

end Bop
