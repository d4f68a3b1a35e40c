import Bop.Api.Handlers
import Bop.Controller.Calls
import Bop.Effect.Panic
import Bop.Queue
import Bop.Scheduler
import Bop.System.Reference

/-!
# Publishers That Panic or Are Slow

Whoever publishes an event calls a publisher it knows nothing about, and that
publisher may panic. The controller and the scheduler publish through a method
that defers a recovery. The handler that triggers a backup calls the publisher
itself, between creating the job and enqueueing it, so a panic there ends the
request and the job is left in the store only.

A publisher also takes its time. The pipeline and the final write of `RunJob`
have contexts with a deadline, and the events of either are published under
the same context, so what a publisher takes is taken from the calls that
follow. The final status is written after the terminal event, under its five
seconds.

A publisher is any object at all. All that matters is whether it panics and
how long it takes, and it may decide both by everything it was given so far.
`events.Multi` is one publisher made of many, and it recovers every one of
them, but it waits for them too.

The rest of the world answers as it likes, and may remember anything, but it
does not see what a publisher does, unless that makes a call too late. From
then on nothing is assumed of it. The clock it reads and the moment it ends a
context without a deadline go by the calls, not by the time that passes. The
rows in which a publisher keeps events are the publisher's.

## Main definitions

* `EmitOp`, `EmitAns`: A process and the subscribers it publishes to.
* `Publisher`, `Multi.publish`: One publisher, or many behind one.
* `Controller.emitting`, `Scheduler.emitting`, `Api.emitting`: How each of them
  publishes.
* `Environment`, `Late`, `Ambient`, `Ambient.answer`: The world around a
  process.
* `Seen`, `Unaffected`: What is compared, and with what.
* `InTime`: No call is made too late.
* `Emits`: A request whose job is announced.

## Theorems

* `agrees_recovered`: A recovered publication is as good as none.
* `receivesAll_multi`: Behind `events.Multi` every subscriber receives every
  event once and in order.
* `unaffected_recovered_iff`: What a publisher that is recovered can do.
* `leaves_triggerBackup`: What the handler does.
* `emission_nonfatal_iff`: When no publisher can do any harm.
-/

namespace Bop

open Prog

variable {S D E : Type}

/-! ### Publishing -/

/-- The operations of a process together with the subscribers it publishes
    to. -/
inductive EmitOp (S : Type)
  | process (o : Op S)
  /-- `Publisher.Publish` of one subscriber. -/
  | deliver (subscriber : Nat) (ctx : Ctx) (e : Event)

/-- Their answers. A subscriber answers whether it panicked. -/
abbrev EmitAns {S : Type} : EmitOp S → Type
  | .process o => Ans o
  | .deliver _ _ _ => Bool

/-- A program of a process with its subscribers. -/
abbrev EmitProc (S α : Type) := Prog (EmitOp S) EmitAns α

/-- One subscriber's `Publish`. -/
def deliverTo (subscriber : Nat) (ctx : Ctx) (e : Event) : EmitProc S (Option Unit) := do
  let panicked ← op (.deliver subscriber ctx e)
  return if panicked then none else some ()

/-- `Multi.publishOne`. -/
def Multi.publishOne (ctx : Ctx) (e : Event) (subscriber : Nat) : EmitProc S (Option Unit) :=
  recovering (deliverTo subscriber ctx e)

/-- `Multi.Publish`, given the subscribers. -/
def Multi.publish (ctx : Ctx) (e : Event) : List Nat → EmitProc S (Option Unit)
  | [] => return some ()
  | sub :: rest => unlessPanic (publishOne ctx e sub) fun _ => publish ctx e rest

/-- A publisher: any subscriber by itself, or `events.Multi` with so many. -/
inductive Publisher
  | sole
  | multi (n : Nat)

/-- `Publisher.Publish`. -/
def Publisher.publish : Publisher → Ctx → Event → EmitProc S (Option Unit)
  | .sole, ctx, e => deliverTo 0 ctx e
  | .multi n, ctx, e => Multi.publish ctx e (List.range n)

/-- The operations of a process that publishes like this. -/
def emitting (publish : Ctx → Event → EmitProc S (Option Unit)) :
    (o : Op S) → EmitProc S (Option (Ans o))
  | .publish ctx e => do
      let _ ← op (.process (.publish ctx e))
      publish ctx e
  | o => do
      let x ← op (.process o)
      return some x

/-- `Controller.publish` recovers. -/
def Controller.emitting (pub : Publisher) : (o : Op S) → EmitProc S (Option (Ans o)) :=
  Bop.emitting fun ctx e => recovering (pub.publish ctx e)

/-- `Scheduler.publish` recovers. -/
def Scheduler.emitting (pub : Publisher) : (o : Op S) → EmitProc S (Option (Ans o)) :=
  Bop.emitting fun ctx e => recovering (pub.publish ctx e)

/-- `triggerBackupHandler` calls `ctl.Events.Publish` itself. What leaves it
    ends the request. -/
def Api.emitting (pub : Publisher) : (o : Op S) → EmitProc S (Option (Ans o)) :=
  Bop.emitting fun ctx e => pub.publish ctx e

/-! ### The world -/

/-- The context ends by itself after a while: `JobTimeout`, and the five seconds
    of the final write. -/
def Ctx.hasDeadline : Ctx → Bool
  | .pipeline => true
  | .record => true
  | _ => false

/-- The context an operation is given. -/
def Op.ctx : Op S → Option Ctx
  | .store ctx _ => some ctx
  | .publish ctx _ => some ctx
  | .discover ctx _ => some ctx
  | .backup ctx _ _ => some ctx
  | .verify ctx _ _ => some ctx
  | .restore ctx _ _ => some ctx
  | .storeArtifact ctx _ _ => some ctx
  | .verifySnapshot ctx _ _ => some ctx
  | .applyRetention ctx _ _ _ => some ctx
  | _ => none

/-- The context with a deadline an operation is given. -/
def Op.deadline (o : Op S) : Option Ctx := o.ctx.filter Ctx.hasDeadline

/-- Everything but the queue and the publishers: the store and any state. -/
structure Environment (S E : Type) where
  answer : (o : Op S) → Store × E → Ans o × (Store × E)
  /-- How much later a call can be made without its context ending sooner in it
      than it would have, if there is a limit. -/
  slack : Op S → Store × E → Option Nat

/-- What the environment does once a call was made too late. -/
abbrev Late (S E : Type) := (o : Op S) → Store × E → Ans o × (Store × E)

/-- What a subscriber does with an event. Every call of it comes to an end. -/
structure Reaction where
  panics : Bool
  /-- How long it takes. -/
  takes : Nat

/-- What each subscriber does, given all it received. -/
abbrev Behaviour := Nat → List (Ctx × Event) → Reaction

/-- Subscribers that do nothing. -/
def idle : Behaviour := fun _ _ => ⟨false, 0⟩

/-- The world around a process. -/
structure Ambient (S E : Type) where
  rest : Store × E
  queue : Memory
  /-- The calls to repositories. -/
  storageCalls : List (Op S)
  /-- The events that were published. -/
  published : List (Ctx × Event)
  /-- What each subscriber received. -/
  received : Nat → List (Ctx × Event)
  /-- How long publishing took under each context. -/
  spent : Ctx → Nat
  /-- A call was made too late. -/
  late : Bool

/-- A program starts, with contexts of its own. -/
def Ambient.fresh (w : Ambient S E) : Ambient S E :=
  { w with published := [], spent := fun _ => 0, late := false }

/-- A call to a repository. -/
def Op.callsStorage : Op S → Bool
  | .storeArtifact _ _ _ => true
  | .verifySnapshot _ _ _ => true
  | .applyRetention _ _ _ _ => true
  | _ => false

/-- How much later than otherwise a call is made, as far as its context is
    concerned. -/
def Ambient.delay (w : Ambient S E) (o : Op S) : Nat := o.deadline.elim 0 w.spent

/-- A call is made too late, or one was. -/
def Ambient.overdue (env : Environment S E) (w : Ambient S E) (o : Op S) : Bool :=
  w.late || (env.slack o w.rest).any (· < w.delay o)

/-- What the world answers. -/
def Ambient.answer (env : Environment S E) (late : Late S E) (beh : Behaviour) :
    (o : EmitOp S) → Ambient S E → EmitAns o × Ambient S E
  | .deliver sub ctx e, w =>
      let given := w.received sub ++ [(ctx, e)]
      let r := beh sub given
      (r.panics, { w with
        received := Function.update w.received sub given
        spent := Function.update w.spent ctx (w.spent ctx + r.takes) })
  | .process (.publish ctx e), w => ((), { w with published := w.published ++ [(ctx, e)] })
  | .process (.enqueue job), w => match w.queue.enqueue? job with
    | some q => (.ok (), { w with queue := q })
    | none => (.error Memory.errQueueFull, w)
  | .process o, w =>
      let r := if w.overdue env o then late o w.rest else env.answer o w.rest
      (r.1, { w with
        rest := r.2
        storageCalls := if o.callsStorage then w.storageCalls ++ [o] else w.storageCalls
        late := w.overdue env o })

/-- What a program leaves behind. -/
def leaves {α : Type} (impl : (o : Op S) → EmitProc S (Option (Ans o))) (env : Environment S E)
    (late : Late S E) (beh : Behaviour) (p : Proc S α) (w : Ambient S E) : Ambient S E :=
  (exec (Ambient.answer env late beh) (panicking impl p) w.fresh).2

/-- Job rows, snapshot rows, storage calls and queue contents. -/
structure Seen (S : Type) where
  jobs : Table Job.id
  snapshots : Table Snapshot.id
  storageCalls : List (Op S)
  queued : List Job

/-- What is seen of a world. -/
def Ambient.seen (w : Ambient S E) : Seen S :=
  ⟨w.rest.1.jobs, w.rest.1.snapshots, w.storageCalls, w.queue.jobs⟩

/-- A program leaves the same as with a publisher that does nothing. -/
def Unaffected {α : Type} (impl : Publisher → (o : Op S) → EmitProc S (Option (Ans o)))
    (env : Environment S E) (late : Late S E) (pub : Publisher) (beh : Behaviour) (p : Proc S α)
    (w : Ambient S E) : Prop :=
  (leaves (impl pub) env late beh p w).seen = (leaves (impl .sole) env env.answer idle p w).seen

/-- Publishing never takes so long that a call of the program is made too late
    for its context. -/
def InTime {α : Type} (impl : Publisher → (o : Op S) → EmitProc S (Option (Ans o)))
    (env : Environment S E) (pub : Publisher) (beh : Behaviour) (p : Proc S α)
    (w : Ambient S E) : Prop :=
  (leaves (impl pub) env env.answer beh p w).late = false

/-! ### What a publication does -/

/-- The publication panics. -/
def Publisher.panics : Publisher → Behaviour → (Nat → List (Ctx × Event)) → Ctx → Event → Bool
  | .sole, beh, received, ctx, e => (beh 0 (received 0 ++ [(ctx, e)])).panics
  | .multi _, _, _, _, _ => false

/-- How long the publication takes. -/
def Publisher.takes : Publisher → Behaviour → (Nat → List (Ctx × Event)) → Ctx → Event → Nat
  | .sole, beh, received, ctx, e => (beh 0 (received 0 ++ [(ctx, e)])).takes
  | .multi n, beh, received, ctx, e =>
      ((List.range n).map fun i => (beh i (received i ++ [(ctx, e)])).takes).foldr Nat.add 0

/-- What was received after a publication. -/
def Publisher.deliver : Publisher → (Nat → List (Ctx × Event)) → Ctx → Event →
    Nat → List (Ctx × Event)
  | .sole, received, ctx, e => Function.update received 0 (received 0 ++ [(ctx, e)])
  | .multi n, received, ctx, e => fun i =>
      if i < n then received i ++ [(ctx, e)] else received i

/-- The world after a publication. -/
def Ambient.heard (pub : Publisher) (beh : Behaviour) (ctx : Ctx) (e : Event)
    (w : Ambient S E) : Ambient S E :=
  { w with
    received := pub.deliver w.received ctx e
    spent := Function.update w.spent ctx (w.spent ctx + pub.takes beh w.received ctx e) }

section Publications

variable (env : Environment S E) (late : Late S E) (beh : Behaviour) (ctx : Ctx) (e : Event)

/-- One subscriber behind `events.Multi` receives the event. -/
theorem exec_publishOne (sub : Nat) (w : Ambient S E) :
    exec (Ambient.answer env late beh) (Multi.publishOne ctx e sub) w =
      (some (), { w with
        received := Function.update w.received sub (w.received sub ++ [(ctx, e)])
        spent := Function.update w.spent ctx
          (w.spent ctx + (beh sub (w.received sub ++ [(ctx, e)])).takes) }) :=
  exec_recovering _ _ _

/-- `events.Multi` delivers to every one of its subscribers, and takes as long as
    they do together. -/
theorem exec_multi (subs : List Nat) (hnodup : subs.Nodup) (w : Ambient S E) :
    exec (Ambient.answer env late beh) (Multi.publish ctx e subs) w =
      (some (), { w with
        received := fun i => if i ∈ subs then w.received i ++ [(ctx, e)] else w.received i
        spent := Function.update w.spent ctx (w.spent ctx +
          (subs.map fun i => (beh i (w.received i ++ [(ctx, e)])).takes).foldr Nat.add 0) }) := by
  induction subs generalizing w with
  | nil =>
      simp only [Multi.publish, pure_eq, exec, List.not_mem_nil, if_false, List.map_nil,
        List.foldr_nil, Nat.add_zero, Function.update_eq_self]
  | cons sub rest ih =>
      have hfresh : sub ∉ rest := (List.nodup_cons.mp hnodup).1
      -- The first subscriber is not among the rest, so it receives the event once.
      have haside : ∀ i ∈ rest, Function.update w.received sub (w.received sub ++ [(ctx, e)]) i =
          w.received i :=
        fun i hi => Function.update_of_ne (ne_of_mem_of_not_mem hi hfresh) _ _
      rw [Multi.publish,
        exec_unlessPanic_some _ _ _ _ _ _ (exec_publishOne env late beh ctx e sub w),
        ih (List.nodup_cons.mp hnodup).2]
      congr 2
      · funext i
        by_cases hi : i = sub
        · subst hi
          simp only [hfresh, if_false, Function.update_self, List.mem_cons, true_or, if_true]
        · simp only [Function.update_of_ne hi, List.mem_cons, hi, false_or]
      · have htakes : (rest.map fun i => (beh i
            (Function.update w.received sub (w.received sub ++ [(ctx, e)]) i ++
              [(ctx, e)])).takes) =
            rest.map fun i => (beh i (w.received i ++ [(ctx, e)])).takes :=
          List.map_congr_left fun i hi => by rw [haside i hi]
        simp only [Function.update_self, Function.update_idem, htakes, List.map_cons,
          List.foldr_cons, Nat.add_eq, Nat.add_assoc]

/-- What a publication does to the world. -/
theorem exec_publish (pub : Publisher) (w : Ambient S E) :
    exec (Ambient.answer env late beh) (pub.publish ctx e) w =
      (if pub.panics beh w.received ctx e then none else some (), w.heard pub beh ctx e) := by
  cases pub with
  | sole => rfl
  | multi n =>
      rw [Publisher.publish, exec_multi env late beh ctx e _ List.nodup_range w]
      simp only [List.mem_range, Ambient.heard, Publisher.panics, Publisher.deliver,
        Publisher.takes, Bool.false_eq_true, if_false]

end Publications

/-! ### Worlds that differ in what was received -/

/-- Two worlds agree on all that can be seen of them. -/
structure Beside (w₁ w₂ : Ambient S E) : Prop where
  rest : w₁.rest = w₂.rest
  queue : w₁.queue = w₂.queue
  storageCalls : w₁.storageCalls = w₂.storageCalls

/-- Such worlds look the same. -/
theorem seen_of_beside (w₁ w₂ : Ambient S E) (h : Beside w₁ w₂) : w₁.seen = w₂.seen := by
  rw [Ambient.seen, Ambient.seen, h.rest, h.queue, h.storageCalls]

/-- A recovered publication is as good as any other, in an environment that does
    the same when a call is late. -/
theorem agrees_recovered (env : Environment S E) (beh₁ beh₂ : Behaviour) (pub₁ pub₂ : Publisher)
    (o : Op S) :
    Agrees (Ambient.answer env env.answer beh₁) (Ambient.answer env env.answer beh₂) Beside
      (emitting (fun ctx e => recovering (pub₁.publish ctx e)) o)
      (emitting (fun ctx e => recovering (pub₂.publish ctx e)) o) := by
  intro w₁ w₂ hw
  cases o with
  | publish ctx e =>
      simp only [emitting, op_bind, exec, Ambient.answer]
      rw [exec_recovering, exec_recovering, exec_publish, exec_publish]
      exact ⟨rfl, hw.rest, hw.queue, hw.storageCalls⟩
  | enqueue job =>
      simp only [emitting, op_bind, pure_eq, exec, Ambient.answer, hw.queue]
      cases w₂.queue.enqueue? job with
      | none => exact ⟨rfl, hw⟩
      | some q => exact ⟨rfl, hw.rest, rfl, hw.storageCalls⟩
  | _ =>
      simp only [emitting, op_bind, pure_eq, exec, Ambient.answer, hw.rest, ite_self]
      exact ⟨trivial, rfl, hw.queue, by rw [hw.storageCalls]⟩

/-! ### Calls that are late -/

section Lateness

variable {α : Type} (env : Environment S E) (late : Late S E) (beh : Behaviour)

/-- A call that was late stays so. -/
theorem late_answer (o : EmitOp S) (w : Ambient S E) (h : w.late = true) :
    (Ambient.answer env late beh o w).2.late = true := by
  cases o with
  | deliver sub ctx e => exact h
  | process o =>
      cases o with
      | publish ctx e => exact h
      | enqueue job =>
          simp only [Ambient.answer]
          cases w.queue.enqueue? job with
          | none => exact h
          | some q => exact h
      | _ => simp only [Ambient.answer, Ambient.overdue, h, Bool.true_or]

/-- Up to a call that is late, what the environment does then makes no
    difference. -/
theorem answer_until (late' : Late S E) (o : EmitOp S) (w : Ambient S E) :
    Ambient.answer env late beh o w = Ambient.answer env late' beh o w ∨
      (Ambient.answer env late' beh o w).2.late = true := by
  cases o with
  | deliver sub ctx e => exact Or.inl rfl
  | process o =>
      cases o with
      | publish ctx e => exact Or.inl rfl
      | enqueue job => exact Or.inl rfl
      | _ =>
          simp only [Ambient.answer]
          split
          · next h => exact Or.inr h
          · exact Or.inl rfl

/-- So it makes none for a program, unless a call of that is late. -/
theorem leaves_until (late' : Late S E) (impl : (o : Op S) → EmitProc S (Option (Ans o)))
    (p : Proc S α) (w : Ambient S E) :
    leaves impl env late beh p w = leaves impl env late' beh p w ∨
      (leaves impl env late' beh p w).late = true :=
  (exec_until _ _ (fun w => w.late = true) (late_answer env late' beh)
    (answer_until env late beh late') (panicking impl p) w.fresh).imp (congrArg Prod.snd) id

/-- Where every publication is recovered and no call is late, the publisher
    changes nothing. -/
theorem unaffected_recovered (pub : Publisher) (p : Proc S α) (w : Ambient S E)
    (hintime : InTime (fun pub => emitting fun ctx e => recovering (pub.publish ctx e)) env pub
      beh p w) :
    Unaffected (fun pub => emitting fun ctx e => recovering (pub.publish ctx e)) env late pub beh
      p w := by
  rcases leaves_until env late beh env.answer _ p w with hsame | hlate
  · rw [Unaffected, hsame]
    refine seen_of_beside _ _ (agrees_panicking _ _ Beside _ _ (fun o => ?_) p w.fresh w.fresh
      ⟨rfl, rfl, rfl⟩).2
    exact agrees_recovered env beh idle pub .sole o
  · rw [InTime, hlate] at hintime
    cases hintime

/-- A world in which a late call costs every row but those of `t`. -/
def wrecking (t : Store) (answers : (o : Op S) → Ans o) : Late S E := fun o s =>
  (answers o, (t, s.2))

/-- Once a call was late, those rows are all there is. -/
theorem wrecked_answer (t : Store) (answers : (o : Op S) → Ans o) (o : EmitOp S)
    (w : Ambient S E) (h : w.late = true → w.rest.1 = t) :
    (Ambient.answer env (wrecking t answers) beh o w).2.late = true →
      (Ambient.answer env (wrecking t answers) beh o w).2.rest.1 = t := by
  cases o with
  | deliver sub ctx e => exact h
  | process o =>
      cases o with
      | publish ctx e => exact h
      | enqueue job =>
          simp only [Ambient.answer]
          cases w.queue.enqueue? job with
          | none => exact h
          | some q => exact h
      | _ =>
          intro hlate
          simp only [Ambient.answer] at hlate ⊢
          rw [hlate]
          rfl

/-- Some store does not have these job rows. -/
theorem exists_jobs_ne (jobs : Table Job.id) : ∃ t : Store, t.jobs ≠ jobs := by
  by_cases h : Store.empty.jobs = jobs
  · refine ⟨leftQueued, fun heq => ?_⟩
    have hlength := congrArg (fun t => t.rows.length) (heq.trans h.symm)
    revert hlength
    decide
  · exact ⟨Store.empty, h⟩

/-- A call that is late can cost everything. -/
theorem inTime_of_unaffected (impl : Publisher → (o : Op S) → EmitProc S (Option (Ans o)))
    (pub : Publisher) (p : Proc S α) (w : Ambient S E)
    (h : ∀ late, Unaffected impl env late pub beh p w) : InTime impl env pub beh p w := by
  by_contra hlate
  have hlate' : (leaves (impl pub) env env.answer beh p w).late = true := by
    simpa only [InTime, Bool.not_eq_false] using hlate
  rcases exists_jobs_ne (leaves (impl .sole) env env.answer idle p w).seen.jobs with ⟨t, ht⟩
  let answers : (o : Op S) → Ans o := fun o => Classical.choice (ans_nonempty o)
  -- In the world that such a call wrecks, it is just as late.
  have hwrecked : (leaves (impl pub) env (wrecking t answers) beh p w).late = true := by
    rcases leaves_until env env.answer beh (wrecking t answers) (impl pub) p w with heq | hwrecked
    · rw [← heq]
      exact hlate'
    · exact hwrecked
  have hrows := exec_invariant (Ambient.answer env (wrecking t answers) beh) (fun _ => True)
    (fun w => w.late = true → w.rest.1 = t) (fun o w _ => wrecked_answer env beh t answers o w)
    (panicking (impl pub) p) (calls_of_forall _ (fun _ => trivial) _) w.fresh
    (fun hfresh => nomatch hfresh)
  have hsame := congrArg Seen.jobs (h (wrecking t answers))
  refine ht (Eq.trans ?_ hsame)
  exact (congrArg Store.jobs (hrows hwrecked)).symm

/-- Behind a recovery, a publisher changes nothing exactly if no call is made too
    late because of it. -/
theorem unaffected_recovered_iff (pub : Publisher) (p : Proc S α) (w : Ambient S E) :
    (∀ late, Unaffected (fun pub => emitting fun ctx e => recovering (pub.publish ctx e)) env late
      pub beh p w) ↔
    InTime (fun pub => emitting fun ctx e => recovering (pub.publish ctx e)) env pub beh p w :=
  ⟨inTime_of_unaffected env beh _ pub p w,
    fun h late => unaffected_recovered env late beh pub p w h⟩

/-- A program whose contexts have no deadline makes no call too late. -/
theorem inTime_of_calls (publish : Publisher → Ctx → Event → EmitProc S (Option Unit))
    (pub : Publisher) (p : Proc S α) (hp : Calls (fun o : Op S => o.deadline = none) p)
    (w : Ambient S E)
    (hpub : ∀ ctx e w, (exec (Ambient.answer env env.answer beh) (publish pub ctx e) w).2.late =
      w.late) :
    InTime (fun pub => emitting (publish pub)) env pub beh p w := by
  refine panicking_invariant _ _ _ (fun w => w.late = false) (fun o w ho hw => ?_) p hp w.fresh rfl
  cases o with
  | publish ctx e => exact (hpub ctx e _).trans hw
  | enqueue job =>
      simp only [emitting, op_bind, pure_eq, exec, Ambient.answer]
      cases w.queue.enqueue? job with
      | none => exact hw
      | some q => exact hw
  | _ =>
      -- Nothing was spent of a context that has no deadline.
      simp only [emitting, op_bind, pure_eq, exec, Ambient.answer, Ambient.overdue, hw,
        Ambient.delay, ho, Option.elim, Nat.not_lt_zero, decide_false, Bool.false_or,
        Option.any_false]

end Lateness

/-! ### Many subscribers -/

/-- Behind `events.Multi` every subscriber receives what the program publishes,
    once and in order. -/
def ReceivesAll {α : Type} (impl : Publisher → (o : Op S) → EmitProc S (Option (Ans o)))
    (env : Environment S E) (late : Late S E) (n : Nat) (beh : Behaviour) (p : Proc S α)
    (w : Ambient S E) : Prop :=
  ∀ i, i < n → (leaves (impl (.multi n)) env late beh p w).received i =
    w.received i ++ (leaves (impl (.multi n)) env late beh p w).published

section Subscribers

variable {α : Type} (env : Environment S E) (late : Late S E) (beh : Behaviour)

/-- What the subscribers have received is what was published. -/
def AllHeard (n : Nat) (before : Nat → List (Ctx × Event)) (w : Ambient S E) : Prop :=
  ∀ i, i < n → w.received i = before i ++ w.published

/-- A publication is told to all of them. -/
theorem allHeard_heard (n : Nat) (before : Nat → List (Ctx × Event)) (w : Ambient S E) (ctx : Ctx)
    (e : Event) (h : AllHeard n before w) :
    AllHeard n before
      ({ w with published := w.published ++ [(ctx, e)] }.heard (.multi n) beh ctx e) := by
  intro i hi
  simp only [Ambient.heard, Publisher.deliver, hi, if_true]
  rw [h i hi, List.append_assoc]

/-- Behind `events.Multi` every subscriber receives every event once and in
    order, whatever the subscribers do, and whether or not whoever publishes
    recovers. -/
theorem receivesAll_multi (n : Nat) (p : Proc S α) (w : Ambient S E)
    (publish : Publisher → Ctx → Event → EmitProc S (Option Unit))
    (hpub : (∀ pub ctx e, publish pub ctx e = pub.publish ctx e) ∨
      ∀ pub ctx e, publish pub ctx e = recovering (pub.publish ctx e)) :
    ReceivesAll (fun pub => emitting (publish pub)) env late n beh p w := by
  refine panicking_invariant _ _ (fun _ => True) (AllHeard n w.received) (fun o v _ hv => ?_) p
    (calls_of_forall _ (fun _ => trivial) p) w.fresh fun i _ => (List.append_nil _).symm
  cases o with
  | publish ctx e =>
      have hheard := allHeard_heard beh n w.received v ctx e hv
      simp only [emitting, op_bind, exec, Ambient.answer]
      rcases hpub with hpub | hpub
      · rw [hpub, exec_publish]
        exact hheard
      · rw [hpub, exec_recovering, exec_publish]
        exact hheard
  | enqueue job =>
      simp only [emitting, op_bind, pure_eq, exec, Ambient.answer]
      cases v.queue.enqueue? job with
      | none => exact hv
      | some q => exact hv
  | _ => exact hv

end Subscribers

/-! ### The handler -/

/-- The environment alone answers these, and they cannot be late. -/
def Op.answeredByEnvironment : Op S → Bool
  | .publish _ _ => false
  | .enqueue _ => false
  | o => !o.callsStorage && o.deadline.isNone

/-- A request whose job is announced: it names a host and a plugin that can be
    built, and the job could be created. -/
inductive Emits (env : Environment S E) (ctl : Controller S) (body : FileContent)
    (s : Store × E) : Job → Event → Store × E → Prop
  | announce (req : Api.TriggerBackupRequest) (p : Instance) (job : Job) (s₁ s₂ s₃ : Store × E)
      (hdecode : Api.TriggerBackupRequest.decode body = some req)
      (hhost : req.host ≠ []) (hplugin : req.plugin ≠ [])
      (hbuild : exec env.answer (ctl.buildPlugin .caller req.host req.plugin) s = (.ok p, s₁))
      (hjob : exec env.answer (createNewJob req.host req.plugin p.server.retention) s₁ = (job, s₂))
      (hcreate : env.answer (.store .caller (.createJob job)) s₂ = (.ok (), s₃)) :
      Emits env ctl body s job
        ⟨.backupRequested, job.id, req.host, req.plugin, [], [], (env.answer .now s₃).1⟩
        (env.answer .now s₃).2

/-- The job goes to the queue, if there is room. -/
def Ambient.enqueue (w : Ambient S E) (job : Job) : Ambient S E :=
  match w.queue.enqueue? job with
  | some q => { w with queue := q }
  | none => w

/-- What the handler leaves once the job is announced. -/
def announced (pub : Publisher) (beh : Behaviour) (job : Job) (e : Event) (w : Ambient S E) :
    Ambient S E :=
  let after : Ambient S E :=
    { w with published := w.published ++ [(Ctx.caller, e)] }.heard pub beh .caller e
  if pub.panics beh w.received .caller e then after else after.enqueue job

section Handler

variable (env : Environment S E) (ctl : Controller S) (body : FileContent)

/-- What an announcement says of a request. -/
theorem emits_request (s t : Store × E) (job : Job) (e : Event) (req : Api.TriggerBackupRequest)
    (hdecode : Api.TriggerBackupRequest.decode body = some req)
    (h : Emits env ctl body s job e t) :
    req.host ≠ [] ∧ req.plugin ≠ [] ∧ ∃ p s₁ s₂ s₃,
      exec env.answer (ctl.buildPlugin .caller req.host req.plugin) s = (.ok p, s₁) ∧
      exec env.answer (createNewJob req.host req.plugin p.server.retention) s₁ = (job, s₂) ∧
      env.answer (.store .caller (.createJob job)) s₂ = (.ok (), s₃) ∧
      e = ⟨.backupRequested, job.id, req.host, req.plugin, [], [], (env.answer .now s₃).1⟩ := by
  cases h with
  | announce req' p _ s₁ s₂ s₃ hdecode' hhost hplugin hbuild hjob hcreate =>
      obtain rfl := Option.some.inj (hdecode.symm.trans hdecode')
      exact ⟨hhost, hplugin, p, s₁, s₂, s₃, hbuild, hjob, hcreate, rfl⟩

/-- Only one announcement can be made. -/
theorem emits_unique (s : Store × E) (job job' : Job) (e e' : Event) (t t' : Store × E)
    (h : Emits env ctl body s job e t) (h' : Emits env ctl body s job' e' t') :
    job = job' ∧ e = e' := by
  cases h with
  | announce req p _ s₁ s₂ s₃ hdecode _ _ hbuild hjob hcreate =>
      rcases emits_request env ctl body s t' job' e' req hdecode h' with
        ⟨_, _, p', s₁', s₂', s₃', hbuild', hjob', hcreate', rfl⟩
      obtain ⟨hp, rfl⟩ := Prod.mk.inj (hbuild.symm.trans hbuild')
      obtain rfl := Except.ok.inj hp
      obtain ⟨rfl, rfl⟩ := Prod.mk.inj (hjob.symm.trans hjob')
      obtain ⟨_, rfl⟩ := Prod.mk.inj (hcreate.symm.trans hcreate')
      exact ⟨rfl, rfl⟩

/-- A program that the environment alone answers changes the environment
    alone. -/
theorem exec_answeredByEnvironment {α : Type} (pub : Publisher) (late : Late S E)
    (beh : Behaviour) (p : Proc S α) (hp : Calls (fun o => o.answeredByEnvironment = true) p)
    (w : Ambient S E) (hw : w.late = false) (a : α) (s : Store × E)
    (h : exec env.answer p w.rest = (a, s)) :
    exec (Ambient.answer env late beh) (panicking (Api.emitting pub) p) w =
      (some a, { w with rest := s }) := by
  have hexec := exec_panicking (Ambient.answer env late beh) env.answer (Api.emitting pub)
    (fun (w : Ambient S E) t => { w with rest := t, late := false }) _ ?_ p hp w w.rest
  · rw [h, ← hw] at hexec
    exact hexec
  · intro o ho v t
    -- Such a call has no deadline, so it is not late.
    have hintime : ({ v with rest := t, late := false } : Ambient S E).overdue env o = false := by
      have hdeadline : o.deadline = none := by
        cases o with
        | publish => cases ho
        | enqueue => cases ho
        | _ =>
            simp only [Op.answeredByEnvironment, Bool.and_eq_true, Option.isNone_iff_eq_none] at ho
            exact ho.2
      simp only [Ambient.overdue, Ambient.delay, hdeadline, Option.elim, Nat.not_lt_zero,
        decide_false, Bool.false_or, Option.any_false]
    cases o with
    | publish => cases ho
    | enqueue => cases ho
    | storeArtifact => cases ho
    | verifySnapshot => cases ho
    | applyRetention => cases ho
    | _ =>
        simp only [Api.emitting, emitting, op_bind, pure_eq, exec, Ambient.answer, hintime,
          Bool.false_eq_true, if_false, Op.callsStorage]

/-- Enqueueing a job. -/
theorem exec_enqueue {α : Type} (pub : Publisher) (late : Late S E) (beh : Behaviour) (job : Job)
    (r : α) (w : Ambient S E) :
    (exec (Ambient.answer env late beh) (panicking (Api.emitting pub) (do
      let _ ← call (.enqueue job)
      return r)) w).2 = w.enqueue job := by
  change (Ambient.answer env late beh (.process (.enqueue job)) w).2 = _
  rw [Ambient.answer, Ambient.enqueue]
  cases w.queue.enqueue? job with
  | none => rfl
  | some q => rfl

/-- Announcing and enqueueing a job. -/
theorem exec_announce {α : Type} (pub : Publisher) (late : Late S E) (beh : Behaviour) (job : Job)
    (e : Event) (r : α) (w : Ambient S E) :
    (exec (Ambient.answer env late beh) (panicking (Api.emitting pub) (do
      call (.publish .caller e)
      let _ ← call (.enqueue job)
      return r)) w).2 = announced pub beh job e w := by
  change (exec (Ambient.answer env late beh) (unlessPanic (pub.publish .caller e) fun _ =>
    panicking (Api.emitting pub) (do
      let _ ← call (.enqueue job)
      return r)) { w with published := w.published ++ [(Ctx.caller, e)] }).2 = _
  have hpub := exec_publish env late beh .caller e pub
    { w with published := w.published ++ [(Ctx.caller, e)] }
  by_cases hpanics : pub.panics beh w.received .caller e = true
  · rw [if_pos hpanics] at hpub
    rw [announced, if_pos hpanics, exec_unlessPanic_none _ _ _ _ _ hpub]
  · rw [if_neg hpanics] at hpub
    rw [announced, if_neg hpanics, exec_unlessPanic_some _ _ _ _ _ _ hpub, exec_enqueue]

/-- Everything the handler does: either it announces a job, or it changes the
    environment alone. -/
theorem leaves_triggerBackup (D : Type) (w : Ambient S E) :
    (∃ job e s, Emits env ctl body w.rest job e s ∧ ∀ pub late beh,
      leaves (Api.emitting pub) env late beh (Api.triggerBackup ctl body : Proc S (Api.Response D))
        w = announced pub beh job e { w.fresh with rest := s }) ∨
    (∀ job e s, ¬ Emits env ctl body w.rest job e s) ∧ ∃ s, ∀ pub late beh,
      leaves (Api.emitting pub) env late beh (Api.triggerBackup ctl body : Proc S (Api.Response D))
        w = { w.fresh with rest := s } := by
  unfold Api.triggerBackup
  -- Up to the announcement nothing is published, so the publisher makes no difference.
  cases hdecode : Api.TriggerBackupRequest.decode body with
  | none =>
      refine Or.inr ⟨?_, w.rest, fun _ _ _ => rfl⟩
      rintro job e s ⟨req, p, _, s₁, s₂, s₃, hdecode', _⟩
      rw [hdecode] at hdecode'
      cases hdecode'
  | some req =>
      by_cases hnamed : req.host = [] ∨ req.plugin = []
      · simp only [hnamed, if_true]
        refine Or.inr ⟨fun job e s hemits => ?_, w.rest, fun _ _ _ => rfl⟩
        rcases emits_request env ctl body _ _ _ _ req hdecode hemits with ⟨hhost, hplugin, _⟩
        exact hnamed.elim hhost hplugin
      · simp only [hnamed, if_false]
        rcases not_or.mp hnamed with ⟨hhost, hplugin⟩
        have hquiet : Calls (fun o => o.answeredByEnvironment = true)
            (ctl.buildPlugin .caller req.host req.plugin) :=
          ctl.calls_buildPlugin _ _ _ rfl fun _ => rfl
        rcases hbuild : exec env.answer (ctl.buildPlugin .caller req.host req.plugin) w.rest with
          ⟨r, s₁⟩
        have hbuilt := fun pub late beh =>
          exec_answeredByEnvironment env pub late beh _ hquiet w.fresh rfl r s₁ hbuild
        cases r with
        | error err =>
            refine Or.inr ⟨fun job e s hemits => ?_, s₁, fun pub late beh => ?_⟩
            · rcases emits_request env ctl body _ _ _ _ req hdecode hemits with
                ⟨_, _, p, _, _, _, hbuild', _⟩
              rw [hbuild] at hbuild'
              cases hbuild'
            · rw [leaves, exec_panicking_bind _ _ _ _ _ _ _ (hbuilt pub late beh)]
              rfl
        | ok p =>
            -- The plugin was built. The job is made and then persisted.
            let make : Proc S Job := createNewJob req.host req.plugin p.server.retention
            rcases hjob : exec env.answer make s₁ with ⟨job, s₂⟩
            have hmade := fun pub late beh => exec_answeredByEnvironment env pub late beh make
              ⟨rfl, fun _ => ⟨rfl, fun _ => trivial⟩⟩ { w.fresh with rest := s₁ } rfl job
              s₂ hjob
            rcases hcreate : env.answer (.store .caller (.createJob job)) s₂ with ⟨r, s₃⟩
            have hcreated := fun pub late beh => exec_answeredByEnvironment env pub late beh
              (store .caller (.createJob job)) ⟨rfl, fun _ => trivial⟩
              { w.fresh with rest := s₂ } rfl r s₃ hcreate
            cases r with
            | error err =>
                refine Or.inr ⟨fun job' e s hemits => ?_, s₃, fun pub late beh => ?_⟩
                · rcases emits_request env ctl body _ _ _ _ req hdecode hemits with
                    ⟨_, _, p', _, _, _, hbuild', hjob', hcreate', _⟩
                  obtain ⟨hp, rfl⟩ := Prod.mk.inj (hbuild.symm.trans hbuild')
                  obtain rfl := Except.ok.inj hp
                  obtain ⟨rfl, rfl⟩ := Prod.mk.inj (hjob.symm.trans hjob')
                  rw [hcreate] at hcreate'
                  cases hcreate'
                · -- The refusal comes after three quiet calls.
                  rw [leaves, exec_panicking_bind _ _ _ _ _ _ _ (hbuilt pub late beh),
                    exec_panicking_bind _ _ _ _ _ _ _ (hmade pub late beh),
                    exec_panicking_bind _ _ _ _ _ _ _ (hcreated pub late beh)]
                  rfl
            | ok _ =>
                have hstamped := fun pub late beh => exec_answeredByEnvironment env pub late beh
                  now ⟨rfl, fun _ => trivial⟩ { w.fresh with rest := s₃ } rfl _ _ rfl
                refine Or.inl ⟨job, _, _, Emits.announce req p job s₁ s₂ s₃ hdecode hhost hplugin
                  hbuild hjob hcreate, fun pub late beh => ?_⟩
                rw [leaves, exec_panicking_bind _ _ _ _ _ _ _ (hbuilt pub late beh),
                  exec_panicking_bind _ _ _ _ _ _ _ (hmade pub late beh),
                  exec_panicking_bind _ _ _ _ _ _ _ (hcreated pub late beh)]
                change (exec _ (panicking _ (now >>= fun timestamp => (do
                  call (.publish .caller ⟨.backupRequested, job.id, req.host, req.plugin, [], [],
                    timestamp⟩)
                  let _ ← call (.enqueue job)
                  return _))) _).2 = _
                rw [exec_panicking_bind _ _ _ _ _ _ _ (hstamped pub late beh)]
                exact exec_announce env pub late beh job _ _ { w.fresh with rest := _ }

/-- What is seen then. -/
theorem seen_announced (pub : Publisher) (beh : Behaviour) (job : Job) (e : Event)
    (s : Store × E) (w : Ambient S E) :
    (announced pub beh job e { w.fresh with rest := s }).seen =
      ⟨s.1.jobs, s.1.snapshots, w.storageCalls,
        if pub.panics beh w.received .caller e then w.queue.jobs
        else ((w.queue.enqueue? job).getD w.queue).jobs⟩ := by
  change (if pub.panics beh w.received .caller e then _ else _ : Ambient S E).seen = _
  split
  · rfl
  · rw [Ambient.enqueue]
    change Ambient.seen (match w.queue.enqueue? job with
      | some q => _
      | none => _) = _
    cases w.queue.enqueue? job with
    | none => rfl
    | some q => rfl

/-- The handler leaves the same exactly if the publisher does not panic when
    its job is announced, or there is no room for the job anyway. How long it
    takes does not matter. -/
theorem unaffected_triggerBackup_iff (late : Late S E) (pub : Publisher) (beh : Behaviour)
    (w : Ambient S E) :
    Unaffected Api.emitting env late pub beh
        (Api.triggerBackup ctl body : Proc S (Api.Response D)) w ↔
      ∀ job e s, Emits env ctl body w.rest job e s →
        pub.panics beh w.received .caller e = true →
        w.queue.jobs.length = w.queue.capacity := by
  rw [Unaffected]
  rcases leaves_triggerBackup env ctl body D w with
    ⟨job, e, s, hemits, hleaves⟩ | ⟨hnone, s, hleaves⟩
  · rw [hleaves, hleaves, seen_announced, seen_announced]
    have hcalm : Publisher.sole.panics idle w.received .caller e = false := rfl
    rw [hcalm, if_neg Bool.false_ne_true]
    constructor
    · intro hsame job' e' s' hemits' hpanics
      rcases emits_unique env ctl body _ _ _ _ _ _ _ hemits hemits' with ⟨rfl, rfl⟩
      rw [if_pos hpanics] at hsame
      by_cases hfull : w.queue.enqueue? job = none
      · exact (w.queue.enqueue?_eq_none_iff job).mp hfull
      · -- With room, the job is in one queue and not in the other.
        rcases Option.ne_none_iff_exists'.mp hfull with ⟨q, hq⟩
        have hqueued := congrArg (fun v => v.queued.length) hsame
        simp only [hq, Option.getD_some, (Memory.enqueue?_jobs _ _ _ hq).1, List.length_append,
          List.length_singleton] at hqueued
        omega
    · intro hcond
      by_cases hpanics : pub.panics beh w.received .caller e = true
      · have hfull := (w.queue.enqueue?_eq_none_iff job).mpr (hcond job e s hemits hpanics)
        rw [if_pos hpanics, hfull, Option.getD_none]
      · rw [if_neg hpanics]
  · rw [hleaves, hleaves]
    exact ⟨fun _ job e s hemits => absurd hemits (hnone job e s), fun _ => rfl⟩

end Handler

/-- A schedule publishes under a context that has no deadline. -/
theorem dispatch_deadlines (host : Bytes) (srv : Server) (order : List Bytes) :
    Calls (fun o : Op S => o.deadline = none) (Scheduler.dispatch host srv order) := by
  induction order with
  | nil => trivial
  | cons pluginName rest ih =>
      refine ⟨rfl, fun _ => ⟨rfl, fun _ => ⟨rfl, fun r => ?_⟩⟩⟩
      cases r with
      | error err => exact ih
      | ok _ => exact ⟨rfl, fun _ => ⟨rfl, fun _ => ⟨rfl, fun _ => ih⟩⟩⟩

/-- No publisher makes a schedule's calls late. -/
theorem inTime_dispatch (env : Environment S E) (pub : Publisher) (beh : Behaviour)
    (host : Bytes) (srv : Server) (order : List Bytes) (w : Ambient S E) :
    InTime Scheduler.emitting env pub beh (Scheduler.dispatch host srv order) w := by
  refine inTime_of_calls env beh (fun pub ctx e => recovering (pub.publish ctx e)) pub _
    (dispatch_deadlines host srv order) w fun ctx e v => ?_
  rw [exec_recovering, exec_publish]
  rfl

/-- Whatever publisher is installed, jobs, schedules and requests leave the
    same rows, storage calls and queue as with one that does nothing, and
    behind `events.Multi` every subscriber receives every event, exactly if
    publishing never makes a call of a job too late for its context, and the
    publisher does not panic when a request's job is announced, or the queue is
    full by then. What becomes of a call that is too late is left open. -/
theorem emission_nonfatal_iff (env : Environment S E) (pub : Publisher) (beh : Behaviour)
    (c : Controller S) (job : Job) (host : Bytes) (srv : Server) (order : List Bytes)
    (body : FileContent) (w : Ambient S E) :
    (∀ late, Unaffected Controller.emitting env late pub beh (c.runJob job) w ∧
      Unaffected Scheduler.emitting env late pub beh (Scheduler.dispatch host srv order) w ∧
      Unaffected Api.emitting env late pub beh
        (Api.triggerBackup c body : Proc S (Api.Response D)) w ∧
      ∀ n behaviour, ReceivesAll Controller.emitting env late n behaviour (c.runJob job) w ∧
        ReceivesAll Scheduler.emitting env late n behaviour (Scheduler.dispatch host srv order)
          w ∧
        ReceivesAll Api.emitting env late n behaviour
          (Api.triggerBackup c body : Proc S (Api.Response D)) w) ↔
      InTime Controller.emitting env pub beh (c.runJob job) w ∧
        ∀ job e s, Emits env c body w.rest job e s →
          pub.panics beh w.received .caller e = true →
          w.queue.jobs.length = w.queue.capacity := by
  constructor
  · intro h
    refine ⟨(unaffected_recovered_iff env beh pub _ w).mp fun late => (h late).1, ?_⟩
    exact (unaffected_triggerBackup_iff env c body env.answer pub beh w).mp (h env.answer).2.2.1
  · rintro ⟨hintime, hcalm⟩ late
    refine ⟨unaffected_recovered env late beh pub _ w hintime,
      unaffected_recovered env late beh pub _ w (inTime_dispatch env pub beh host srv order w),
      (unaffected_triggerBackup_iff env c body late pub beh w).mpr hcalm,
      fun n behaviour => ⟨?_, ?_, ?_⟩⟩
    · exact receivesAll_multi env late behaviour n _ w _ (Or.inr fun _ _ _ => rfl)
    · exact receivesAll_multi env late behaviour n _ w _ (Or.inr fun _ _ _ => rfl)
    · exact receivesAll_multi env late behaviour n _ w _ (Or.inl fun _ _ _ => rfl)

/-! ### One request -/

/-- A store that never fails, without anything else, where nothing is ever too
    late. -/
def plainEnvironment : Environment Unit Unit where
  answer := fun o s =>
    let r := Shared.answer idlePlugin 9 o ⟨s.1, Memory.new queueCapacity⟩
    (r.1, (r.2.store, ()))
  slack := fun _ _ => none

/-- Nothing has happened yet. -/
def plainWorld : Ambient Unit Unit where
  rest := (Store.empty, ())
  queue := Memory.new queueCapacity
  storageCalls := []
  published := []
  received := fun _ => []
  spent := fun _ => 0
  late := false

/-- A request for the plugin of the one host. -/
def filesRequest : FileContent :=
  ⟨"\x7b\"host\":\"web\",\"plugin\":\"files\"\x7d", none⟩

/-- A publisher that panics leaves the job of a request out of the queue. -/
theorem not_nonfatal : ¬ ∀ beh : Behaviour, Unaffected Api.emitting plainEnvironment
    plainEnvironment.answer .sole beh
    (Api.triggerBackup filesController filesRequest : Proc Unit (Api.Response Unit))
    plainWorld := by
  intro hall
  have hqueued := congrArg (fun v => v.queued.length) (hall fun _ _ => ⟨true, 0⟩)
  revert hqueued
  decide +kernel

end Bop
