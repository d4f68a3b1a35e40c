import Bop.System.Protocol
import Mathlib.Algebra.Order.Group.Multiset
import Mathlib.Data.List.ReduceOption
import Mathlib.Tactic.Abel

/-!
# The Controller Keeps a Ledger

Every step of a controller process is one step of the ledger, or none at all.
The claims are read off the process: the jobs in the queue, the ones a
producer has persisted and not yet enqueued, the ones the recovery has listed
and not yet enqueued, and the one the consumer has. A thread is known by the
monitor it obeys, so the argument is one case for each monitor and never looks
at a program.

The store may have other users. They are the frame: claims and begun jobs that
the process does not know of and does not touch, except where its recovery
reads or writes rows by their status alone (`Spares`).

## Main definitions

* `waitingFor`: The claims of a queue.
* `Consumes`, `Holds`: The claims of a controller process.
* `Recovers`, `Spares`: The statements of the recovery, and what a frame must
  not hold when they are made.
* `Sys.ledger`: The ledger of a system with a frame.
* `Follows`: The ledger keeps up with a step.

## Theorems

* `runner_step`, `producer_step`, `boot_step`: One call of one thread.
* `controller_step`: A step of the system is a step of the ledger.
-/

namespace Bop

open Prog Relation

variable {S D Digest : Type} [DecidableEq Digest]

/-- Jobs that wait to be run. -/
def waitingFor (jobs : List Job) : Multiset (Bytes × Phase) :=
  jobs.map (fun job => (job.id, Phase.waiting))

@[simp] theorem waitingFor_nil : waitingFor [] = 0 := rfl

@[simp] theorem waitingFor_append (jobs jobs' : List Job) :
    waitingFor (jobs ++ jobs') = waitingFor jobs + waitingFor jobs' := by
  rw [waitingFor, List.map_append, ← Multiset.coe_add]
  rfl

@[simp] theorem waitingFor_cons (job : Job) (jobs : List Job) :
    waitingFor (job :: jobs) = (job.id, .waiting) ::ₘ waitingFor jobs := rfl

/-! ### The rows after a statement -/

/-- An update writes to its row, or it failed and wrote to none. -/
theorem status_updated (s s' : Store) (id : Bytes) (st : JobStatus) (x : Except Bytes Unit)
    (h : StoreSem s (.updateJobStatus id st) x s') :
    s'.status = Function.update s.status id (some st) ∨
      (∃ err, x = .error err) ∧ s'.status = s.status := by
  have hset : ∀ id', (s.setStatus id st).status id' =
      if id' = id then (s.status id').map (fun _ => st) else s.status id' :=
    fun id' => s.status_setStatus id id' st
  -- Where there is a row, it is replaced, and no other one is.
  have hmove : (s.status id).isSome →
      (s.setStatus id st).status = Function.update s.status id (some st) := by
    intro hsome
    rcases Option.isSome_iff_exists.mp hsome with ⟨st', hst'⟩
    funext id'
    rw [hset]
    by_cases hid : id' = id
    · subst hid
      rw [if_pos rfl, hst', Function.update_self, Option.map_some]
    · rw [if_neg hid, Function.update_of_ne hid]
  cases x with
  | ok u =>
      rcases h with ⟨hfound, rfl⟩
      exact Or.inl (hmove (by rw [Store.status, Option.isSome_map]; exact hfound))
  | error err =>
      rcases h with rfl | rfl
      · exact Or.inr ⟨⟨err, rfl⟩, rfl⟩
      · cases hrow : s.status id with
        | some st' => exact Or.inl (hmove (by rw [hrow]; rfl))
        | none =>
            refine Or.inr ⟨⟨err, rfl⟩, ?_⟩
            funext id'
            rw [hset]
            by_cases hid : id' = id
            · rw [if_pos hid, hid, hrow, Option.map_none]
            · rw [if_neg hid]

/-- A creation writes a new row, or it failed and wrote none. -/
theorem status_created (s s' : Store) (job : Job) (x : Except Bytes Unit)
    (h : StoreSem s (.createJob job) x s') :
    (s.status job.id = none ∧ s'.status = Function.update s.status job.id (some job.status)) ∨
      (∃ err, x = .error err) ∧ s' = s := by
  have hcreated : s.createJob? job = some s' → s.status job.id = none ∧
      s'.status = Function.update s.status job.id (some job.status) := by
    intro hs
    refine ⟨Store.status_none_of_createJob s s' job hs, ?_⟩
    funext id
    rw [Store.status_createJob s s' job hs]
    by_cases hid : id = job.id
    · subst hid
      rw [if_pos rfl, Function.update_self]
    · rw [if_neg hid, Function.update_of_ne hid]
  cases x with
  | ok u => exact Or.inl (hcreated h)
  | error err =>
      rcases h with rfl | h
      · exact Or.inr ⟨⟨err, rfl⟩, rfl⟩
      · exact Or.inl (hcreated h)

/-- The recovery of rows, or it failed and recovered none. -/
theorem status_recovered (s s' : Store) (x : Except Bytes Nat)
    (h : StoreSem s .failOrphanedJobs x s') :
    (s' = s.failOrphaned ∧ s'.status = fun id => (s.status id).map failActive) ∨ s' = s := by
  have hfail : s.failOrphaned.status = fun id => (s.status id).map failActive := by
    funext id
    exact s.status_failOrphaned id
  cases x with
  | ok n =>
      rcases h with ⟨rfl, _⟩
      exact Or.inl ⟨rfl, hfail⟩
  | error err =>
      rcases h with rfl | rfl
      · exact Or.inr rfl
      · exact Or.inl ⟨rfl, hfail⟩

/-- The rows of a listing are distinct and in the status that was asked for. -/
theorem listed_rows (s s' : Store) (st : JobStatus) (jobs : List Job)
    (h : StoreSem s (.listJobsByStatus st) (.ok jobs) s') :
    s' = s ∧ (jobs.map Job.id).Nodup ∧ ∀ job ∈ jobs, s.status job.id = some st := by
  rcases h with ⟨rfl, hperm, _⟩
  refine ⟨rfl, ?_, ?_⟩
  · rw [(hperm.map Job.id).nodup_iff]
    exact s'.jobs.nodup.sublist (List.filter_sublist.map Job.id)
  · intro job hjob
    rcases List.mem_filter.mp (hperm.mem_iff.mp hjob) with ⟨hrow, hst⟩
    rw [Store.status, (Table.mem_iff_find? s'.jobs job).mp hrow, Option.map_some,
      of_decide_eq_true hst]

/-! ### One call of one thread -/

section Calls

variable (w w' : Shared) (rest : Multiset (Bytes × Phase)) (begun : Multiset Bytes)

/-- A call that leaves the jobs alone is no step at all. -/
theorem quiet_step (o : Op S) (x : Ans o) (ho : o.leavesJobs = true) (h : SharedSem w o x w') :
    w'.store.status = w.store.status ∧ w'.queue = w.queue := by
  rcases shared_of_leavesJobs w w' o x ho h with ⟨hjobs, hqueue⟩
  refine ⟨?_, hqueue⟩
  funext id
  rw [Store.status, hjobs]
  rfl

/-- A call of whoever runs a job. -/
theorem runner_step (id : Bytes) (phase phase' : Phase) (o : Op S) (x : Ans o)
    (hm : runMonitor id phase o x = some phase') (h : SharedSem w o x w') :
    w'.queue = w.queue ∧
      ReflGen Ledger.Step ⟨w.store.status, (id, phase) ::ₘ rest, begun⟩
        ⟨w'.store.status, (id, phase') ::ₘ rest,
          if o.beginsPipeline then id ::ₘ begun else begun⟩ := by
  -- A claim that waits is marked, and the caller may be told otherwise.
  have hmark : ∀ phase', phase' = .marked ∨ phase' = .closed → ReflGen Ledger.Step
      ⟨w.store.status, (id, .waiting) ::ₘ rest, begun⟩
      ⟨Function.update w.store.status id (some .inProgress), (id, phase') ::ₘ rest, begun⟩ :=
    fun phase' hphase => ReflGen.single (Ledger.Step.mark ⟨w.store.status, _, begun⟩ id phase' rest
      hphase rfl)
  have habandon : ∀ phase, ReflGen Ledger.Step ⟨w.store.status, (id, phase) ::ₘ rest, begun⟩
      ⟨w.store.status, (id, .closed) ::ₘ rest, begun⟩ :=
    fun phase => ReflGen.single (Ledger.Step.abandon _ id phase rest rfl)
  cases runCall_of_monitor id phase phase' o x hm with
  | mark ctx =>
      refine ⟨h.2, ?_⟩
      rcases status_updated _ _ _ _ _ h.1 with hstatus | ⟨⟨err, herr⟩, _⟩
      · rw [hstatus]
        exact hmark .marked (Or.inl rfl)
      · cases herr
  | giveUp ctx err =>
      refine ⟨h.2, ?_⟩
      rcases status_updated _ _ _ _ _ h.1 with hstatus | ⟨_, hstatus⟩
      · -- The write took effect and its caller is told that it failed.
        rw [hstatus]
        exact hmark .closed (Or.inr rfl)
      · rw [hstatus]
        exact habandon .waiting
  | announce _ hq =>
      rcases quiet_step w w' o x hq.1 h with ⟨hstatus, hqueue⟩
      rw [if_neg (Bool.not_eq_true _ ▸ hq.2), hstatus]
      exact ⟨hqueue, ReflGen.refl⟩
  | begin _ hleaves hbegin =>
      rcases quiet_step w w' o x hleaves h with ⟨hstatus, hqueue⟩
      rw [if_pos hbegin, hstatus]
      exact ⟨hqueue, ReflGen.single (Ledger.Step.begin _ id rest rfl)⟩
  | work _ hq =>
      rcases quiet_step w w' o x hq.1 h with ⟨hstatus, hqueue⟩
      rw [if_neg (Bool.not_eq_true _ ▸ hq.2), hstatus]
      exact ⟨hqueue, ReflGen.refl⟩
  | finish ctx st _ hst =>
      refine ⟨h.2, ?_⟩
      rcases status_updated _ _ _ _ _ h.1 with hstatus | ⟨_, hstatus⟩
      · rw [hstatus]
        exact ReflGen.single (Ledger.Step.finish _ id rest st hst rfl)
      · rw [hstatus]
        exact habandon .running

/-- Offering a claimed job to the queue moves its claim there. A full queue
    refuses it, and then the claim is dropped and the row stays. -/
theorem enqueue_step (job : Job) (others : List Job) (x : Except Bytes Unit)
    (h : SharedSem w (.enqueue job : Op S) x w') :
    ReflGen Ledger.Step
      ⟨w.store.status, waitingFor (w.queue.jobs ++ job :: others) + rest, begun⟩
      ⟨w'.store.status, waitingFor (w'.queue.jobs ++ others) + rest, begun⟩ := by
  cases x with
  | ok u =>
      rcases h with ⟨hstore, hqueue⟩
      rw [hstore, (Memory.enqueue?_jobs _ _ _ hqueue).1, List.append_assoc,
        List.singleton_append]
  | error err =>
      rw [show w' = w from h]
      refine ReflGen.single (Ledger.Step.drop _ _ ?_)
      simp only [waitingFor_append, waitingFor_cons]
      refine Multiset.add_le_add_right (Multiset.add_le_add_left ?_)
      exact Multiset.le_cons_self _ _

/-- Listing the queued rows claims all of them, if nobody claims one yet. -/
theorem claim_step (jobs : List Job)
    (h : StoreSem w.store (.listJobsByStatus .queued) (.ok jobs) w'.store)
    (hi : Ledger.Inv ⟨w.store.status, rest, begun⟩)
    (hspare : ∀ id p, (id, p) ∈ rest → p ≠ .waiting ∧ p ≠ .closed) :
    ReflGen Ledger.Step ⟨w.store.status, rest, begun⟩
      ⟨w'.store.status, waitingFor jobs + rest, begun⟩ := by
  rcases listed_rows _ _ _ _ h with ⟨heq, hnodup, hqueued⟩
  rw [heq]
  have hstatus : ∀ id ∈ (jobs.map Job.id : List Bytes), w.store.status id = some .queued := by
    intro id hid
    rcases List.mem_map.mp hid with ⟨job, hjob, rfl⟩
    exact hqueued job hjob
  have hfree : Disjoint ((jobs.map Job.id : List Bytes) : Multiset Bytes)
      (rest.map Prod.fst) := by
    rw [Multiset.disjoint_left]
    intro id hid hclaimed
    rcases Multiset.mem_map.mp hclaimed with ⟨⟨_, p⟩, hp, rfl⟩
    have hheld := hi.held _ p hp
    have hrow := hstatus _ hid
    -- The row of such a claim would have to be in another status.
    cases p with
    | waiting => exact (hspare _ _ hp).1 rfl
    | marked => exact absurd (hheld.1.symm.trans hrow) (by decide)
    | running => exact absurd (hheld.symm.trans hrow) (by decide)
    | closed => exact (hspare _ _ hp).2 rfl
  have hstep := Ledger.Step.claim ⟨w.store.status, rest, begun⟩
    (jobs.map Job.id : List Bytes) hnodup hstatus hfree
  rw [Multiset.map_coe, List.map_map] at hstep
  exact ReflGen.single hstep

/-- A call of a producer: it persists a job and claims it, or it gives the
    claim to the queue. -/
theorem producer_step (pending pending' : Option Job) (o : Op S) (x : Ans o)
    (hm : produceMonitor pending o x = some pending') (h : SharedSem w o x w') :
    ReflGen Ledger.Step
      ⟨w.store.status, waitingFor (w.queue.jobs ++ pending.toList) + rest, begun⟩
      ⟨w'.store.status, waitingFor (w'.queue.jobs ++ pending'.toList) + rest, begun⟩ := by
  have hquiet : (if o.leavesJobs then some pending else none) = some pending' →
      ReflGen Ledger.Step
        ⟨w.store.status, waitingFor (w.queue.jobs ++ pending.toList) + rest, begun⟩
        ⟨w'.store.status, waitingFor (w'.queue.jobs ++ pending'.toList) + rest, begun⟩ := by
    intro hm
    split at hm
    · next hleaves =>
        cases hm
        rcases quiet_step w w' o x hleaves h with ⟨hstatus, hqueue⟩
        rw [hstatus, hqueue]
    · cases hm
  cases o with
  | store ctx o =>
      cases o with
      | createJob job =>
          cases pending with
          | some _ => cases hm
          | none =>
              simp only [produceMonitor] at hm
              split at hm
              · next hqueued =>
                  rw [h.2]
                  rcases status_created _ _ _ _ h.1 with ⟨hnew, hstatus⟩ | ⟨⟨err, rfl⟩, heq⟩
                  · rw [hstatus, hqueued]
                    cases x with
                    | ok u =>
                        cases hm
                        -- The row is there and claimed by whoever made it.
                        have hstep := Ledger.Step.createClaim
                          ⟨w.store.status, waitingFor w.queue.jobs + rest, begun⟩ job.id hnew
                        simp only [Option.toList_some, Option.toList_none, List.append_nil,
                          waitingFor_append, waitingFor_cons, waitingFor_nil, Multiset.add_cons,
                          Multiset.cons_add, Multiset.add_zero]
                        exact ReflGen.single hstep
                    | error err =>
                        cases hm
                        exact ReflGen.single (Ledger.Step.create
                          ⟨w.store.status, waitingFor (w.queue.jobs ++ []) + rest, begun⟩
                          job.id hnew)
                  · cases hm
                    rw [heq]
              · cases hm
      | _ => cases pending <;> exact hquiet hm
  | enqueue job =>
      cases pending with
      | none => cases hm
      | some pendingJob =>
          simp only [produceMonitor] at hm
          split at hm
          · next heq =>
              subst heq
              cases hm
              exact enqueue_step w w' rest begun job [] x h
          · cases hm
  | _ => cases pending <;> exact hquiet hm

/-- What a frame must not hold when the recovery makes a statement: a job that
    is being run when rows in progress are failed, and one that may be stored
    as queued when queued rows are listed. -/
def Spares (frame : Multiset (Bytes × Phase)) (w w' : Shared) : Prog.Event (Op S) Ans → Prop
  | ⟨.store _ .failOrphanedJobs, _⟩ =>
      w'.store = w.store.failOrphaned → ∀ id p, (id, p) ∈ frame → p ≠ .marked ∧ p ≠ .running
  | ⟨.store _ (.listJobsByStatus .queued), .ok _⟩ =>
      ∀ id p, (id, p) ∈ frame → p ≠ .waiting ∧ p ≠ .closed
  | _ => True

/-- An empty frame is spared. -/
theorem spares_zero (e : Prog.Event (Op S) Ans) : Spares 0 w w' e := by
  unfold Spares
  split
  · exact fun _ id p hmem => absurd hmem (Multiset.notMem_zero _)
  · exact fun id p hmem => absurd hmem (Multiset.notMem_zero _)
  · trivial

/-- A call of the recovery: it fails rows nobody runs, claims the queued ones,
    and gives each claim to the queue or gives it up. -/
theorem boot_step (todo todo' : Option (List Job)) (o : Op S) (x : Ans o)
    (hq : todo = none → w.queue.jobs = [])
    (hi : Ledger.Inv ⟨w.store.status, waitingFor (w.queue.jobs ++ todo.getD []) + rest, begun⟩)
    (hspare : Spares rest w w' ⟨o, x⟩)
    (hm : bootMonitor todo o x = some todo') (h : SharedSem w o x w') :
    (todo' = none → w'.queue.jobs = []) ∧
      ReflGen Ledger.Step
        ⟨w.store.status, waitingFor (w.queue.jobs ++ todo.getD []) + rest, begun⟩
        ⟨w'.store.status, waitingFor (w'.queue.jobs ++ todo'.getD []) + rest, begun⟩ := by
  cases todo with
  | none =>
      have hempty := hq rfl
      simp only [hempty, Option.getD_none, List.append_nil, waitingFor_nil,
        Multiset.zero_add] at hi ⊢
      cases o with
      | store ctx o =>
          have hqueue : w'.queue = w.queue := h.2
          cases o with
          | failOrphanedJobs =>
              cases hm
              refine ⟨fun _ => by rw [hqueue, hempty], ?_⟩
              simp only [hqueue, hempty, Option.getD_none, List.append_nil, waitingFor_nil,
                Multiset.zero_add]
              -- What was marked or running failed, and no claim of another process is for such a
              -- row.
              rcases status_recovered _ _ _ h.1 with ⟨heffect, hstatus⟩ | heq
              · rw [hstatus]
                exact ReflGen.single (Ledger.Step.orphan ⟨w.store.status, rest, begun⟩
                  (hspare heffect))
              · rw [heq]
          | listJobsByStatus st =>
              simp only [bootMonitor] at hm
              split at hm
              · next hst =>
                  subst hst
                  cases x with
                  | error err =>
                      cases hm
                      refine ⟨fun _ => by rw [hqueue, hempty], ?_⟩
                      simp only [hqueue, hempty, Option.getD_none, List.append_nil,
                        waitingFor_nil, Multiset.zero_add]
                      rw [show w'.store = w.store from h.1]
                  | ok jobs =>
                      cases hm
                      refine ⟨fun hnone => (by cases hnone), ?_⟩
                      simp only [hqueue, hempty, Option.getD_some, List.nil_append]
                      exact claim_step w w' rest begun jobs h.1 hi hspare
              · cases hm
          | _ => cases hm
      | _ => cases hm
  | some jobs =>
      cases jobs with
      | nil => cases hm
      | cons job jobs =>
          cases o with
          | enqueue j =>
              simp only [bootMonitor] at hm
              split at hm
              · next heq =>
                  subst heq
                  cases hm
                  exact ⟨fun hnone => (by cases hnone), enqueue_step w w' rest begun j jobs x h⟩
              · cases hm
          | _ => cases hm

end Calls

/-! ### A step of the process -/

/-- The claim of the consumer. -/
inductive Consumes : Option (Job × Proc S (Except Bytes Unit)) → Multiset (Bytes × Phase) → Prop
  | idle : Consumes none 0
  | busy (job : Job) (p : Proc S (Except Bytes Unit)) (phase : Phase)
      (hp : Obeys (runMonitor job.id) phase p (fun _ _ => True)) :
      Consumes (some (job, p)) {(job.id, phase)}

/-- The claims of a process and its queue. -/
inductive Holds (q : List Job) : Option (Threads S) → Multiset (Bytes × Phase) → Prop
  /-- There is no process. -/
  | off (hq : q = []) : Holds q none 0
  /-- The recovery claims what it has listed. -/
  | booting (p : Proc S (Except Bytes Unit)) (todo : Option (List Job))
      (hp : Obeys bootMonitor todo p (fun _ _ => True)) (hq : todo = none → q = []) :
      Holds q (some ⟨some p, [], none⟩) (waitingFor (q ++ todo.getD []))
  /-- A producer claims what it has persisted. -/
  | ready (producers : List (Proc S Unit)) (pending : List (Option Job))
      (consumer : Option (Job × Proc S (Except Bytes Unit))) (claim : Multiset (Bytes × Phase))
      (hp : List.Forall₂ (fun o p => Obeys produceMonitor o p (fun _ _ => True)) pending producers)
      (hc : Consumes consumer claim) :
      Holds q (some ⟨none, producers, consumer⟩) (waitingFor (q ++ pending.reduceOption) + claim)

/-- The ledger of a system: its rows, the claims of its process and a frame,
    and the pipelines begun by it and by others. -/
def Sys.ledger (s : Sys S) (claims : Multiset (Bytes × Phase)) (begun : Multiset Bytes) :
    Ledger Bytes := ⟨s.shared.store.status, claims, s.begun + begun⟩

/-- The step is the startup recovery making this call and getting this answer. -/
def Recovers (e : Prog.Event (Op S) Ans) (s s' : Sys S) : Prop :=
  ∃ t k, s.threads = some t ∧ t.boot = some (.call e.1 k) ∧
    SharedSem s.shared e.1 e.2 s'.shared ∧
    s' = { s with shared := s'.shared, threads := some { t with boot := some (k e.2) } }

/-- Lists related element by element, with one pair singled out. -/
theorem forall₂_middle {α β : Type} (R : α → β → Prop) (us : List α) (before after : List β)
    (b : β) (h : List.Forall₂ R us (before ++ b :: after)) :
    ∃ us₁ u us₂, us = us₁ ++ u :: us₂ ∧ R u b ∧
      ∀ u' b', R u' b' → List.Forall₂ R (us₁ ++ u' :: us₂) (before ++ b' :: after) := by
  have hbefore := List.forall₂_take_append us before _ h
  rcases List.forall₂_cons_right_iff.mp (List.forall₂_drop_append us before _ h) with
    ⟨u, us₂, hu, hafter, hdrop⟩
  refine ⟨us.take before.length, u, us₂, ?_, hu, fun u' b' hr => ?_⟩
  · rw [← hdrop, List.take_append_drop]
  · exact List.rel_append hbefore (List.Forall₂.cons hr hafter)

/-- The claims of the producers, with one of them singled out. -/
theorem pending_middle (q : List Job) (us₁ us₂ : List (Option Job)) (u : Option Job)
    (claim frame : Multiset (Bytes × Phase)) :
    waitingFor (q ++ (us₁ ++ u :: us₂).reduceOption) + claim + frame =
      waitingFor (q ++ u.toList) +
        (waitingFor us₁.reduceOption + waitingFor us₂.reduceOption + claim + frame) := by
  have hu : waitingFor (u :: us₂).reduceOption =
      waitingFor u.toList + waitingFor us₂.reduceOption := by
    rw [← waitingFor_append]
    cases u with
    | none => rfl
    | some job => rfl
  rw [List.reduceOption_append, waitingFor_append, waitingFor_append, waitingFor_append, hu]
  abel

/-- A pipeline that is begun, if any, is one more of those begun. -/
theorem coe_begun (begins : Bool) (xs : List Bytes) (id : Bytes) (others : Multiset Bytes) :
    ((if begins then xs ++ [id] else xs : List Bytes) + others : Multiset Bytes) =
      if begins then id ::ₘ (xs + others) else xs + others := by
  split
  · rw [← Multiset.coe_add, Multiset.coe_singleton, ← Multiset.singleton_add]
    abel
  · rfl

theorem new_jobs : (Memory.new queueCapacity).jobs = [] := rfl

/-! ### A step of each kind -/

/-- The ledger keeps up: the claims of a process become those it has afterwards in
    one step of the ledger, or none, and what else is claimed stays as it is. -/
def Follows (s s' : Sys S) (claims frame : Multiset (Bytes × Phase)) (begun : Multiset Bytes) :
    Prop :=
  ∃ claims', Holds s'.shared.queue.jobs s'.threads claims' ∧
    ReflGen Ledger.Step (s.ledger (claims + frame) begun) (s'.ledger (claims' + frame) begun)

section Follows

variable (s : Sys S) (t : Threads S) (claims frame : Multiset (Bytes × Phase))
  (begun : Multiset Bytes)

/-- Giving claims up is a step of the ledger. -/
theorem ledger_drop (claims' : Multiset (Bytes × Phase)) (h : claims' ≤ claims) :
    ReflGen Ledger.Step (s.ledger (claims + frame) begun) (s.ledger (claims' + frame) begun) :=
  ReflGen.single (Ledger.Step.drop _ _ (Multiset.add_le_add_right h))

theorem follows_bootCall (s' : Sys S) (o : Op S) (k : Ans o → Proc S (Except Bytes Unit))
    (x : Ans o) (ht : s.threads = some t) (hboot : t.boot = some (.call o k))
    (hw : SharedSem s.shared o x s'.shared)
    (hs' : s' = { s with shared := s'.shared, threads := some { t with boot := some (k x) } })
    (hh : Holds s.shared.queue.jobs s.threads claims)
    (hi : Ledger.Inv (s.ledger (claims + frame) begun))
    (hspare : Spares frame s.shared s'.shared ⟨o, x⟩) : Follows s s' claims frame begun := by
  rw [ht] at hh
  cases hh with
  | ready => cases hboot
  | booting p todo hp hq =>
      cases hboot
      rcases obeys_call _ _ o _ _ hp x with ⟨todo', hm, hp'⟩
      rcases boot_step s.shared s'.shared frame (s.begun + begun) todo todo' o x hq hi hspare hm hw
        with ⟨hq', hsteps⟩
      rw [hs']
      exact ⟨_, Holds.booting (k x) todo' hp' hq', hsteps⟩

theorem follows_ready (ht : s.threads = some t) (hboot : t.boot = some (.ret (.ok ())))
    (hh : Holds s.shared.queue.jobs s.threads claims) :
    Follows s { s with threads := some { t with boot := none } } claims frame begun := by
  rw [ht] at hh
  cases hh with
  | ready => cases hboot
  | booting p todo hp hq =>
      refine ⟨_, Holds.ready [] [] none 0 List.Forall₂.nil Consumes.idle,
        ledger_drop s _ frame begun _ ?_⟩
      simp only [waitingFor_append, List.reduceOption_nil, waitingFor_nil, Multiset.add_zero]
      exact Multiset.le_add_right _ _

theorem follows_produce (api : Api.Server S D Digest) (p : Proc S Unit) (ht : s.threads = some t)
    (hready : t.boot = none) (hp : Producer api p)
    (hh : Holds s.shared.queue.jobs s.threads claims) :
    Follows s { s with threads := some { t with producers := p :: t.producers } } claims frame
      begun := by
  rw [ht] at hh
  cases hh with
  | booting => cases hready
  | ready producers pending consumer claim hps hc =>
      have hobeys := obeys_mono _ _ _ _ (fun _ _ => True) (producer_obeys api p hp)
        (fun _ _ _ => trivial)
      exact ⟨_, Holds.ready (p :: producers) (none :: pending) consumer claim
        (List.Forall₂.cons hobeys hps) hc, ReflGen.refl⟩

theorem follows_producerCall (before after : List (Proc S Unit)) (o : Op S)
    (k : Ans o → Proc S Unit) (x : Ans o) (w : Shared) (ht : s.threads = some t)
    (hproducers : t.producers = before ++ .call o k :: after) (hw : SharedSem s.shared o x w)
    (hh : Holds s.shared.queue.jobs s.threads claims) :
    Follows s { s with
      shared := w, threads := some { t with producers := before ++ k x :: after } } claims frame
      begun := by
  rw [ht] at hh
  cases hh with
  | booting => cases before <;> cases hproducers
  | ready producers pending consumer claim hps hc =>
      cases hproducers
      rcases forall₂_middle _ pending before after _ hps with ⟨us₁, u, us₂, rfl, hp, hall⟩
      rcases obeys_call _ _ o _ _ hp x with ⟨u', hm, hp'⟩
      refine ⟨_, Holds.ready _ (us₁ ++ u' :: us₂) consumer claim (hall _ _ hp') hc, ?_⟩
      rw [pending_middle, pending_middle]
      exact producer_step s.shared w _ _ u u' o x hm hw

/-- The job that is taken stays claimed. -/
theorem follows_dequeue (c : Controller S) (job : Job) (q : Memory) (ht : s.threads = some t)
    (hready : t.boot = none) (hidle : t.consumer = none)
    (hq : s.shared.queue.dequeue? = some (job, q))
    (hh : Holds s.shared.queue.jobs s.threads claims) :
    Follows s { s with
      shared := { s.shared with queue := q }
      threads := some { t with consumer := some (job, c.runJob job) } } claims frame begun := by
  rw [ht] at hh
  cases hh with
  | booting => cases hready
  | ready producers pending consumer claim hps hc =>
      cases hidle
      cases hc
      have hobeys := obeys_mono _ _ _ _ (fun _ _ => True) (c.runJob_obeys job)
        (fun _ _ _ => trivial)
      refine ⟨_, Holds.ready producers pending _ _ hps (Consumes.busy job _ _ hobeys), ?_⟩
      rw [Memory.dequeue?_jobs _ _ _ hq]
      simp only [List.cons_append, waitingFor_cons, Multiset.add_zero]
      rw [← Multiset.singleton_add, Multiset.add_comm {_}]
      exact ReflGen.refl

theorem follows_consumerCall (job : Job) (o : Op S) (k : Ans o → Proc S (Except Bytes Unit))
    (x : Ans o) (w : Shared) (ht : s.threads = some t)
    (hconsumer : t.consumer = some (job, .call o k)) (hw : SharedSem s.shared o x w)
    (hh : Holds s.shared.queue.jobs s.threads claims) :
    Follows s ⟨w, some { t with consumer := some (job, k x) },
      if o.beginsPipeline then s.begun ++ [job.id] else s.begun⟩ claims frame begun := by
  rw [ht] at hh
  cases hh with
  | booting => cases hconsumer
  | ready producers pending consumer claim hps hc =>
      cases hconsumer
      cases hc with
      | busy _ _ phase hp =>
          rcases obeys_call _ _ o _ _ hp x with ⟨phase', hm, hp'⟩
          have hpull : ∀ ph : Phase, waitingFor (s.shared.queue.jobs ++ pending.reduceOption) +
              {(job.id, ph)} + frame = (job.id, ph) ::ₘ
              (waitingFor (s.shared.queue.jobs ++ pending.reduceOption) + frame) := by
            intro ph
            rw [← Multiset.singleton_add]
            abel
          rcases runner_step s.shared w
            (waitingFor (s.shared.queue.jobs ++ pending.reduceOption) + frame)
            (s.begun + begun) job.id phase phase' o x hm hw with ⟨hqueue, hsteps⟩
          refine ⟨_, Holds.ready producers pending _ _ hps (Consumes.busy job _ _ hp'), ?_⟩
          simp only [hqueue, hpull]
          rw [← coe_begun] at hsteps
          exact hsteps

theorem follows_consumerDone (job : Job) (r : Except Bytes Unit) (ht : s.threads = some t)
    (hconsumer : t.consumer = some (job, .ret r))
    (hh : Holds s.shared.queue.jobs s.threads claims) :
    Follows s { s with threads := some { t with consumer := none } } claims frame begun := by
  rw [ht] at hh
  cases hh with
  | booting => cases hconsumer
  | ready producers pending consumer claim hps hc =>
      refine ⟨_, Holds.ready producers pending none 0 hps Consumes.idle,
        ledger_drop s _ frame begun _ ?_⟩
      rw [Multiset.add_zero]
      exact Multiset.le_add_right _ _

end Follows

/-- A step of the system is a step of the ledger, or none at all, around every
    frame that the recovery spares. -/
theorem controller_step (c : Controller S) (api : Api.Server S D Digest) (s s' : Sys S)
    (h : Step c api s s') (claims frame : Multiset (Bytes × Phase)) (begun : Multiset Bytes)
    (hh : Holds s.shared.queue.jobs s.threads claims)
    (hi : Ledger.Inv (s.ledger (claims + frame) begun))
    (hspare : ∀ e, Recovers e s s' → Spares frame s.shared s'.shared e) :
    Follows s s' claims frame begun := by
  have hnone : ReflGen Ledger.Step (s.ledger (claims + frame) begun)
      (s.ledger (0 + frame) begun) :=
    ledger_drop s claims frame begun 0 (Multiset.zero_le _)
  -- The phases of a process in their order, and then a crash at any time.
  cases h with
  | boot =>
      exact ⟨0, Holds.booting _ none startup_obeys (fun _ => new_jobs), hnone⟩
  | bootCall t o k x w ht hboot hw =>
      exact follows_bootCall s t claims frame begun _ o k x ht hboot hw rfl hh hi
        (hspare ⟨o, x⟩ ⟨t, k, ht, hboot, hw, rfl⟩)
  | ready t ht hboot => exact follows_ready s t claims frame begun ht hboot hh
  | produce t p ht hready hp => exact follows_produce s t claims frame begun api p ht hready hp hh
  | producerCall t before after o k x w ht hproducers hw =>
      exact follows_producerCall s t claims frame begun before after o k x w ht hproducers hw hh
  | dequeue t job q ht hready hidle hq =>
      exact follows_dequeue s t claims frame begun c job q ht hready hidle hq hh
  | consumerCall t job o k x w ht hconsumer hw =>
      exact follows_consumerCall s t claims frame begun job o k x w ht hconsumer hw hh
  | consumerDone t job r ht hconsumer =>
      exact follows_consumerDone s t claims frame begun job r ht hconsumer hh
  | crash => exact ⟨0, Holds.off new_jobs, hnone⟩

end Bop
