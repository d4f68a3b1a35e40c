import Bop.System.Protocol

/-!
# Announcing and Writing

The consumer announces how a job ended once, with the terminal event, and the
next thing it does is to write the status the event says. Everything else it
does, and everything any other program does, says nothing about how a job
ended.

## Main definitions

* `Op.mute`: An operation that says nothing about how a job ended.
* `Told`, `tellMonitor`, `TellCall`: What the consumer has announced and
  written.
* `Mute`: A program none of whose operations says anything.

## Theorems

* `tellCall_of_monitor`: The calls the monitor allows.
* `runJob_tells`: A job announces how it ended once and then writes that.
* `startup_mute`, `producer_mute`: The other programs are mute.
-/

namespace Bop

open Prog

variable {S D Digest : Type} [DecidableEq Digest]

/-! ### What the consumer tells -/

/-- How much of a job's end is told. -/
inductive Told
  /-- The pipeline has not begun. -/
  | unbegun
  /-- The pipeline has begun. -/
  | silent
  /-- The terminal event is out, and the status is to be written. -/
  | announced (st : JobStatus)
  /-- The status was written, or the write failed. -/
  | closed

/-- The operation says nothing about how a job ended. -/
def Op.mute : Op S → Bool
  | .publish _ e => e.type.outcome.isNone
  | .store _ (.updateJobStatus _ st) => !st.terminal
  | _ => true

/-- A consumer announces how its job ended once, and then writes that. -/
def tellMonitor (id : Bytes) : Monitor (Op S) Ans Told
  | .unbegun, o, _ =>
      if o.beginsPipeline then some .silent else if o.mute then some .unbegun else none
  | .silent, .publish _ e, _ => match e.type.outcome with
      | none => some .silent
      | some st => if e.jobID = id then some (.announced st) else none
  | .silent, o, _ => if o.mute then some .silent else none
  | .announced st, .store _ (.updateJobStatus i st'), _ =>
      if i = id ∧ st' = st then some .closed else none
  | _, _, _ => none

/-- The calls the monitor allows. -/
inductive TellCall (id : Bytes) : Told → Prog.Event (Op S) Ans → Told → Prop
  /-- A call before the pipeline. -/
  | prepare (e : Prog.Event (Op S) Ans) (hmute : e.1.mute = true) :
      TellCall id .unbegun e .unbegun
  /-- The call the pipeline begins with. -/
  | begin (e : Prog.Event (Op S) Ans) (hmute : e.1.mute = true)
      (hbegin : e.1.beginsPipeline = true) :
      TellCall id .unbegun e .silent
  /-- A call of the pipeline. -/
  | work (e : Prog.Event (Op S) Ans) (hmute : e.1.mute = true) : TellCall id .silent e .silent
  /-- The terminal event. -/
  | announce (ctx : Ctx) (e : Event) (st : JobStatus) (hid : e.jobID = id)
      (hst : e.type.outcome = some st) : TellCall id .silent ⟨.publish ctx e, ()⟩ (.announced st)
  /-- The write of the status. -/
  | record (ctx : Ctx) (st : JobStatus) (x : Except Bytes Unit) :
      TellCall id (.announced st) ⟨.store ctx (.updateJobStatus id st), x⟩ .closed

/-- What the monitor allows is one of these calls. -/
theorem tellCall_of_monitor (id : Bytes) (a a' : Told) (o : Op S) (x : Ans o)
    (hm : tellMonitor id a o x = some a') : TellCall id a ⟨o, x⟩ a' := by
  -- By how far the runner has told its story.
  cases a with
  | unbegun =>
      have hmute : o.beginsPipeline = true → o.mute = true := by
        cases o with
        | store ctx o => cases o <;> first | exact fun _ => rfl | exact fun h => by cases h
        | _ => exact fun h => by cases h
      simp only [tellMonitor] at hm
      split at hm
      · next hbegin =>
          cases hm
          exact TellCall.begin ⟨o, x⟩ (hmute hbegin) hbegin
      · split at hm
        · next hquiet =>
            cases hm
            exact TellCall.prepare ⟨o, x⟩ hquiet
        · cases hm
  | silent =>
      have hwork : (if o.mute then some Told.silent else none) = some a' →
          TellCall id .silent ⟨o, x⟩ a' := by
        intro hm
        split at hm
        · next hmute =>
            cases hm
            exact TellCall.work ⟨o, x⟩ hmute
        · cases hm
      cases o with
      | publish ctx e =>
          simp only [tellMonitor] at hm
          split at hm
          · next hnone =>
              cases hm
              exact TellCall.work _ (Option.isNone_iff_eq_none.mpr hnone)
          · next st hst =>
              split at hm
              · next hid =>
                  cases hm
                  exact TellCall.announce ctx e st hid hst
              · cases hm
      | _ => exact hwork hm
  | announced st =>
      cases o with
      | store ctx o =>
          cases o with
          | updateJobStatus i st' =>
              simp only [tellMonitor] at hm
              split at hm
              · next heq =>
                  rcases heq with ⟨rfl, rfl⟩
                  cases hm
                  exact TellCall.record ctx st' x
              · cases hm
          | _ => cases hm
      | _ => cases hm
  | closed => cases hm

/-- A mute operation leaves a consumer silent. -/
theorem tell_silent (id : Bytes) (o : Op S) (h : o.mute = true) (x : Ans o) :
    tellMonitor id .silent o x = some .silent := by
  cases o with
  | publish ctx e =>
      have hnone : e.type.outcome = none := Option.isNone_iff_eq_none.mp h
      simp only [tellMonitor, hnone]
  | store ctx o =>
      cases o with
      | updateJobStatus i st => exact if_pos h
      | _ => rfl
  | _ => rfl

/-- The calls of a pipeline are mute. -/
theorem mute_calls (job : Job) (sp : S) : JobCalls (fun o => o.mute = true) job sp where
  now := rfl
  publish := fun _ _ _ _ _ ht => Option.isNone_iff_eq_none.mpr ht
  factory := fun _ => rfl
  discover := fun _ _ => rfl
  backup := fun _ _ _ => rfl
  verify := fun _ _ _ => rfl
  restore := fun _ _ _ => rfl
  checksumFile := fun _ => rfl
  removeFile := fun _ => rfl
  storeArtifact := fun _ _ => rfl
  verifySnapshot := fun _ _ => rfl
  recordSnapshot := fun _ _ => rfl
  applyRetention := fun _ => rfl

namespace Controller

/-- The terminal event of a job says what its row is to say. -/
theorem completionEvent_outcome (job : Job) (r : Except Bytes Unit) :
    (completionEvent job r).type.outcome = some (finalStatus r) ∧
      (completionEvent job r).jobID = job.id := by
  cases r <;> exact ⟨rfl, rfl⟩

/-- A marked job announces how it ended and then writes that. -/
theorem runMarked_tells (c : Controller S) (job : Job) (srv : Server) (sp : S) :
    Obeys (tellMonitor job.id) .unbegun (runMarked c job srv sp) (fun _ q => q = .closed) := by
  refine fun _ => ⟨.unbegun, rfl, fun _ => ⟨.unbegun, rfl, ?_⟩⟩
  -- The first call of the pipeline begins it, and all of its calls are mute.
  rcases runPipeline_begins (mute_calls job sp) c c.pipelineCtx srv with ⟨k, hk, hmute⟩
  change Obeys (tellMonitor job.id) .unbegun (runPipeline c c.pipelineCtx job srv sp >>= _) _
  rw [hk]
  intro x
  refine ⟨.silent, rfl, ?_⟩
  refine obeys_bind _ _ _ _ _ _
    (obeys_of_calls _ (fun o => o.mute = true) Told.silent (tell_silent job.id) _ (hmute x)) ?_
  rintro r q rfl
  rcases completionEvent_outcome job r with ⟨houtcome, hid⟩
  refine fun _ => ⟨.silent, rfl, fun _ => ⟨.announced (finalStatus r), ?_, ?_⟩⟩
  · simp only [tellMonitor, houtcome, hid, if_true]
  · intro written
    exact ⟨.closed, if_pos ⟨rfl, rfl⟩, rfl⟩

/-- `RunJob` tells nothing or everything. -/
theorem runJob_tells (c : Controller S) (job : Job) :
    Obeys (tellMonitor job.id) .unbegun (runJob c job)
      (fun _ q => q = .unbegun ∨ q = .closed) := by
  unfold runJob
  split
  · exact Or.inl rfl
  · next srv hsrv =>
      split
      · exact Or.inl rfl
      · split
        · exact Or.inl rfl
        · next sp hsp =>
            intro x
            refine ⟨.unbegun, rfl, ?_⟩
            cases x with
            | error err => exact Or.inl rfl
            | ok u =>
                exact obeys_mono _ _ _ _ _ (runMarked_tells c job srv sp) (fun _ _ => Or.inr)

end Controller

/-- Everything a program calls is mute. -/
abbrev Mute {α : Type} (p : Proc S α) : Prop := Calls (fun o : Op S => o.mute = true) p

/-- The recovery is mute. -/
theorem startup_mute : Mute (Cli.startup : Proc S (Except Bytes Unit)) := by
  refine calls_check _ _ _ _ (calls_call _ rfl) fun _ => ?_
  refine calls_check _ _ _ _ ?_ fun _ => trivial
  refine calls_check _ _ _ _ (calls_call _ rfl) fun jobs => ?_
  refine calls_bind _ _ _ (calls_forEach _ _ _ fun job _ => ?_) fun _ => trivial
  exact calls_bind _ _ _ (calls_call _ rfl) fun _ => trivial

/-- The calls of a producer are mute. -/
theorem mute_producerCalls : ProducerCalls (fun o : Op S => o.mute = true) where
  reads := by
    intro o h
    cases o with
    | store ctx o => cases o <;> first | rfl | cases h
    | publish ctx e => cases h
    | _ => rfl
  createJob := fun _ _ => rfl
  setPluginSettings := fun _ _ _ _ => rfl
  publish := fun _ e he => by rw [Op.mute, he]; rfl
  enqueue := fun _ => rfl

/-- Schedules and requests are mute. -/
theorem producer_mute (api : Api.Server S D Digest) (p : Proc S Unit) (hp : Producer api p) :
    Mute p := calls_producer mute_producerCalls api p hp

end Bop
