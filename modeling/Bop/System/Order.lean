import Bop.System.AtMostOnce
import Bop.System.Recovery

/-!
# First Come, First Served

The order in which a process runs its jobs. Whatever is put in the queue stands
in one line, the recovered jobs first, and the one consumer takes the line from
its front. So no job overtakes another: when a pipeline begins, every job that
was accepted before it has been taken, and its run is over.

A line is noted beside the system and opened anew when a process starts or ends.
What a crash leaves queued is at the front of the next one, the oldest first,
and the jobs behind it were not even stored when the process started.

## Main definitions

* `Line`: What went through the queue of one process.
* `Line.next`: What one step adds to it.
* `Queues`: The systems that can be reached, each with its line.
* `Sources`: Where what is in the line comes from.
* `Orderly`: What holds of a line at any time.

## Theorems

* `orderly_step`, `orderly_run`: It does.
* `first_come_first_served`: No job overtakes another.
-/

namespace Bop

open Prog Relation

variable {S D Digest : Type} [DecidableEq Digest]

/-! ### Lines -/

/-- What a process found and what went through its queue. -/
structure Line where
  /-- The store the process started over. -/
  opened : Store
  /-- The jobs whose pipeline was begun before. -/
  earlier : List Bytes
  /-- The jobs that were put in the queue, in order. -/
  accepted : List Job
  /-- The jobs the consumer took, in order. -/
  taken : List Job

/-- A line nobody stands in yet. -/
def Line.opening (s : Sys S) : Line := ⟨s.shared.store, s.begun, [], []⟩

/-- The line after a step. When a process starts or ends a new one is opened. -/
def Line.next (line : Line) (s s' : Sys S) : Line :=
  let before := s.shared.queue.jobs
  let after := s'.shared.queue.jobs
  if s.threads.isSome = s'.threads.isSome then
    { line with
      accepted := line.accepted ++ after.drop before.length
      taken := line.taken ++ before.take (before.length - after.length) }
  else Line.opening s'

/-- The systems that can be reached from a store, each with its line. -/
inductive Queues (c : Controller S) (api : Api.Server S D Digest) (store : Store) :
    Sys S → Line → Prop
  | initial : Queues c api store (Sys.initial store) (Line.opening (Sys.initial store : Sys S))
  | step (s s' : Sys S) (line : Line) (h : Queues c api store s line) (hstep : Step c api s s') :
      Queues c api store s' (line.next s s')

section Next

variable (line : Line) (s s' : Sys S)

theorem next_same (hthreads : s'.threads.isSome = s.threads.isSome)
    (hqueue : s'.shared.queue.jobs = s.shared.queue.jobs) : line.next s s' = line := by
  rw [Line.next, if_pos hthreads.symm, hqueue, List.drop_length, Nat.sub_self, List.take_zero,
    List.append_nil, List.append_nil]

theorem next_put (job : Job) (hthreads : s'.threads.isSome = s.threads.isSome)
    (hqueue : s'.shared.queue.jobs = s.shared.queue.jobs ++ [job]) :
    line.next s s' = { line with accepted := line.accepted ++ [job] } := by
  have htook : s.shared.queue.jobs.length - (s.shared.queue.jobs ++ [job]).length = 0 := by
    rw [List.length_append, Nat.sub_eq_zero_of_le (Nat.le_add_right _ _)]
  rw [Line.next, if_pos hthreads.symm, hqueue, List.drop_left, htook, List.take_zero,
    List.append_nil]

theorem next_took (job : Job) (hthreads : s'.threads.isSome = s.threads.isSome)
    (hqueue : s.shared.queue.jobs = job :: s'.shared.queue.jobs) :
    line.next s s' = { line with taken := line.taken ++ [job] } := by
  have htook : (job :: s'.shared.queue.jobs).length - s'.shared.queue.jobs.length = 1 := by
    rw [List.length_cons, Nat.add_sub_cancel_left]
  have hput : s'.shared.queue.jobs.drop (job :: s'.shared.queue.jobs).length = [] :=
    List.drop_eq_nil_of_le (Nat.le_succ _)
  rw [Line.next, if_pos hthreads.symm, hqueue, htook, hput, List.append_nil]
  rfl

theorem next_turn (hthreads : s'.threads.isSome ≠ s.threads.isSome) :
    line.next s s' = Line.opening s' := if_neg fun h => hthreads h.symm

end Next

/-! ### The order of a line -/

/-- Different jobs that stood queued in a store, the oldest first. -/
structure Waited (opened : Store) (jobs : List Job) : Prop where
  queued : ∀ job ∈ jobs, job ∈ opened.jobsIn .queued
  oldest : jobs.Pairwise (fun a b => a.queuedAt ≤ b.queuedAt)
  distinct : (jobs.map Job.id).Nodup

/-- Different jobs that are stored now and were not at the start. -/
structure New (opened now : Store) (jobs : List Job) : Prop where
  unstored : ∀ job ∈ jobs, opened.status job.id = none
  stored : ∀ job ∈ jobs, (now.status job.id).isSome
  distinct : (jobs.map Job.id).Nodup

/-- Where what is in the line comes from. -/
inductive Sources (line : Line) (w : Shared) : Option (Threads S) → Prop
  /-- There is no process. -/
  | off (haccepted : line.accepted = []) : Sources line w none
  /-- The recovery puts what it listed in the line. -/
  | booting (p : Proc S (Except Bytes Unit)) (todo : Option (List Job))
      (hp : Obeys bootMonitor todo p (fun _ _ => True))
      (hfirst : todo = none → line.accepted = [] ∧
        w.store.jobsIn .queued = line.opened.jobsIn .queued)
      (hwaited : Waited line.opened (line.accepted ++ todo.getD [])) :
      Sources line w (some ⟨some p, [], none⟩)
  /-- Then the producers put what they have stored in it. -/
  | ready (producers : List (Proc S Unit)) (pending : List (Option Job))
      (consumer : Option (Job × Proc S (Except Bytes Unit))) (recovered produced : List Job)
      (hp : List.Forall₂ (fun o p => Obeys produceMonitor o p (fun _ _ => True)) pending producers)
      (haccepted : line.accepted = recovered ++ produced)
      (hwaited : Waited line.opened recovered)
      (hnew : New line.opened w.store (produced ++ pending.reduceOption)) :
      Sources line w (some ⟨none, producers, consumer⟩)

/-- What holds of a line at any time. -/
structure Orderly (s : Sys S) (line : Line) : Prop where
  /-- What was accepted was taken, or it stands in the queue. -/
  queue : line.accepted = line.taken ++ s.shared.queue.jobs
  /-- The pipelines of this process were begun in the order of the line. -/
  begun : ∃ now, s.begun = line.earlier ++ now ∧ now.Sublist (line.taken.map Job.id)
  /-- The job being run was the last to be taken. -/
  last : ∀ job, (s.threads.bind Threads.consumer).map Prod.fst = some job →
    ∃ front, line.taken = front ++ [job]
  /-- What was stored at the start moved along edges. -/
  moved : ∀ id, ReflTransGen Edge (line.opened.status id) (s.status id)
  sources : Sources line s.shared s.threads

/-- A line that was just opened is in order. -/
theorem orderly_opening (s : Sys S) (hqueue : s.shared.queue.jobs = [])
    (hconsumer : s.threads.bind Threads.consumer = none)
    (hsources : Sources (Line.opening s) s.shared s.threads) : Orderly s (Line.opening s) := by
  refine ⟨?_, ⟨[], (List.append_nil _).symm, List.nil_sublist _⟩, ?_, fun _ => .refl, hsources⟩
  · rw [hqueue]
    rfl
  · intro job hjob
    rw [hconsumer] at hjob
    cases hjob

/-! ### The queue and the operations -/

/-- Only an offer changes the queue. -/
theorem queue_kept (w w' : Shared) (o : Op S) (x : Ans o) (h : SharedSem w o x w')
    (ho : ∀ job, o ≠ .enqueue job) : w'.queue.jobs = w.queue.jobs := by
  cases o with
  | store ctx o => rw [h.2]
  | publish ctx e => rw [h.2]
  | enqueue job => exact absurd rfl (ho job)
  | _ =>
      have heq : w' = w := h
      rw [heq]

/-- A job that is offered goes to the end of the line, or nothing happens. -/
theorem queue_offered (w w' : Shared) (job : Job) (x : Except Bytes Unit)
    (h : SharedSem w (.enqueue job : Op S) x w') :
    w'.queue.jobs = w.queue.jobs ++ [job] ∨ w'.queue.jobs = w.queue.jobs := by
  cases x with
  | ok u => exact Or.inl (Memory.enqueue?_jobs _ _ _ h.2).1
  | error err =>
      have heq : w' = w := h
      rw [heq]
      exact Or.inr rfl

/-- Whoever runs a job offers none. -/
theorem runMonitor_offers (id : Bytes) (phase phase' : Phase) (o : Op S) (x : Ans o)
    (hm : runMonitor id phase o x = some phase') (job : Job) : o ≠ .enqueue job := by
  rintro rfl
  cases runCall_of_monitor id phase phase' _ x hm with
  | announce _ hq => cases hq.1
  | begin _ hleaves _ => cases hleaves
  | work _ hq => cases hq.1

/-- Some of the jobs that waited. -/
theorem Waited.sublist {opened : Store} {jobs some : List Job} (h : Waited opened jobs)
    (hsub : some.Sublist jobs) : Waited opened some :=
  ⟨fun job hjob => h.queued job (hsub.subset hjob), h.oldest.sublist hsub,
    h.distinct.sublist (hsub.map Job.id)⟩

/-- New jobs in any other order. -/
theorem New.perm {opened now : Store} {jobs jobs' : List Job} (h : New opened now jobs)
    (hperm : jobs.Perm jobs') : New opened now jobs' :=
  ⟨fun job hjob => h.unstored job (hperm.symm.subset hjob),
    fun job hjob => h.stored job (hperm.symm.subset hjob),
    (hperm.map Job.id).nodup_iff.mp h.distinct⟩

/-- Some of them, later. -/
theorem New.later {opened now now' : Store} {jobs some : List Job} (h : New opened now jobs)
    (hsub : some.Sublist jobs)
    (hkept : ∀ id, (now.status id).isSome → (now'.status id).isSome) : New opened now' some :=
  ⟨fun job hjob => h.unstored job (hsub.subset hjob),
    fun job hjob => hkept _ (h.stored job (hsub.subset hjob)), h.distinct.sublist (hsub.map Job.id)⟩

/-! ### A call of each thread -/

/-- What a call leaves of a line: what is offered, if it is accepted, stands at
    its end. -/
def Line.Gains (line line' : Line) (w w' : Shared) : Prop :=
  (line' = line ∧ w'.queue.jobs = w.queue.jobs) ∨
    ∃ job, line' = { line with accepted := line.accepted ++ [job] } ∧
      w'.queue.jobs = w.queue.jobs ++ [job]

/-- A call of the recovery. -/
theorem booting_call (line : Line) (w w' : Shared) (o : Op S)
    (k : Ans o → Proc S (Except Bytes Unit)) (x : Ans o)
    (h : Sources line w (some ⟨some (.call o k), [], none⟩)) (hw : SharedSem w o x w') :
    ∃ line', line.Gains line' w w' ∧ Sources line' w' (some ⟨some (k x), [], none⟩) := by
  cases h with
  | booting p todo hp hfirst hwaited =>
      rcases hp x with ⟨todo', hm, hk⟩
      cases todo with
      | none =>
          rcases hfirst rfl with ⟨haccepted, hqueued⟩
          cases o with
          | store ctx o =>
              have hqueue : w'.queue.jobs = w.queue.jobs := by rw [hw.2]
              cases o with
              | failOrphanedJobs =>
                  cases hm
                  have hjobs : w'.store.jobsIn .queued = w.store.jobsIn .queued := by
                    have heq : w'.store = w.store ∨ w'.store = w.store.failOrphaned := by
                      cases x with
                      | ok n => exact Or.inr hw.1.1
                      | error err => exact hw.1
                    rcases heq with heq | heq
                    · rw [heq]
                    · rw [heq, jobsIn_failOrphaned]
                  exact ⟨line, Or.inl ⟨rfl, hqueue⟩, Sources.booting _ none hk
                    (fun _ => ⟨haccepted, hjobs.trans hqueued⟩) hwaited⟩
              | listJobsByStatus st =>
                  simp only [bootMonitor] at hm
                  split at hm
                  · next hst =>
                      subst hst
                      cases x with
                      | error err =>
                          cases hm
                          have hstore : w'.store = w.store := hw.1
                          exact ⟨line, Or.inl ⟨rfl, hqueue⟩, Sources.booting _ none hk
                            (fun _ => ⟨haccepted, hstore ▸ hqueued⟩) hwaited⟩
                      | ok jobs =>
                          cases hm
                          rcases listed_rows _ _ _ _ hw.1 with ⟨_, hdistinct, _⟩
                          rcases hw.1 with ⟨_, hperm, hsorted⟩
                          refine ⟨line, Or.inl ⟨rfl, hqueue⟩, Sources.booting _ (some jobs) hk
                            (fun hnone => by cases hnone) ?_⟩
                          rw [haccepted]
                          refine ⟨fun job hjob => ?_, hsorted, hdistinct⟩
                          rw [← hqueued]
                          exact hperm.subset hjob
                  · cases hm
              | _ => cases hm
          | _ => cases hm
      | some jobs =>
          cases jobs with
          | nil => cases hm
          | cons job jobs =>
              cases o with
              | enqueue j =>
                  simp only [bootMonitor] at hm
                  split at hm
                  · next heq =>
                      subst heq
                      cases hm
                      rcases queue_offered w w' j x hw with hqueue | hqueue
                      · refine ⟨_, Or.inr ⟨j, rfl, hqueue⟩, Sources.booting _ (some jobs) hk
                          (fun hnone => by cases hnone) ?_⟩
                        rwa [List.append_assoc]
                      · exact ⟨_, Or.inl ⟨rfl, hqueue⟩, Sources.booting _ (some jobs) hk
                          (fun hnone => by cases hnone)
                          (hwaited.sublist ((List.sublist_cons_self j jobs).append_left _))⟩
                  · cases hm
              | _ => cases hm

/-- A row that is not there was not there at the start. -/
theorem new_of_moved (a b : Option JobStatus) (h : ReflTransGen Edge a b) (hb : b = none) :
    a = none := by
  cases ha : a with
  | none => rfl
  | some st =>
      have hsome := edges_isSome a b h (by rw [ha]; rfl)
      rw [hb] at hsome
      cases hsome

/-- What a call of a producer does to what it claims. -/
inductive Claims (w w' : Shared) : Op S → Option Job → Option Job → Prop
  /-- Nothing. -/
  | stay (o : Op S) (pending : Option Job) (ho : ∀ job, o ≠ .enqueue job) :
      Claims w w' o pending pending
  /-- It has stored a job that was not there. -/
  | create (o : Op S) (job : Job) (ho : ∀ job, o ≠ .enqueue job)
      (hnone : w.store.status job.id = none) (hsome : (w'.store.status job.id).isSome) :
      Claims w w' o none (some job)
  /-- It offers the job. -/
  | offer (job : Job) : Claims w w' (.enqueue job) (some job) none

theorem claims_of_monitor (pending pending' : Option Job) (o : Op S) (x : Ans o) (w w' : Shared)
    (hm : produceMonitor pending o x = some pending') (hw : SharedSem w o x w') :
    Claims w w' o pending pending' := by
  have hleaves : (∀ job, o ≠ .enqueue job) →
      (if o.leavesJobs then some pending else none) = some pending' →
      Claims w w' o pending pending' := by
    intro ho h
    split at h
    · rw [← Option.some.inj h]
      exact Claims.stay o pending ho
    · cases h
  cases o with
  | enqueue j =>
      cases pending with
      | none => cases hm
      | some job =>
          simp only [produceMonitor] at hm
          split at hm
          · next heq =>
              cases hm
              rw [heq]
              exact Claims.offer job
          · cases hm
  | store ctx o =>
      have ho : ∀ job, (Op.store ctx o : Op S) ≠ .enqueue job := fun job h => by cases h
      cases o with
      | createJob j =>
          cases pending with
          | some _ => cases hm
          | none =>
              simp only [produceMonitor] at hm
              split at hm
              · cases x with
                | ok u =>
                    cases hm
                    rcases status_created _ _ _ _ hw.1 with ⟨hnew, hstatus⟩ | ⟨⟨err, herr⟩, _⟩
                    · refine Claims.create _ j ho hnew ?_
                      rw [hstatus, Function.update_self]
                      rfl
                    · cases herr
                | error err =>
                    cases hm
                    exact Claims.stay _ none ho
              · cases hm
      | _ => cases pending <;> exact hleaves ho hm
  | _ => cases pending <;> exact hleaves (fun job h => by cases h) hm

/-- A call of a producer. -/
theorem producing_call (line : Line) (w w' : Shared) (before after : List (Proc S Unit)) (o : Op S)
    (k : Ans o → Proc S Unit) (consumer : Option (Job × Proc S (Except Bytes Unit))) (x : Ans o)
    (h : Sources line w (some ⟨none, before ++ .call o k :: after, consumer⟩))
    (hmoved : ∀ id, ReflTransGen Edge (line.opened.status id) (w.store.status id))
    (hedge : ∀ id, Edge (w.store.status id) (w'.store.status id)) (hw : SharedSem w o x w') :
    ∃ line', line.Gains line' w w' ∧
      Sources line' w' (some ⟨none, before ++ k x :: after, consumer⟩) := by
  have hkept : ∀ id, (w.store.status id).isSome → (w'.store.status id).isSome :=
    fun id => edges_isSome _ _ (.single (hedge id))
  cases h with
  | ready producers pending consumer recovered produced hp haccepted hwaited hnew =>
      rcases forall₂_middle _ pending before after _ hp with ⟨us₁, u, us₂, rfl, hcall, hall⟩
      rcases hcall x with ⟨u', hm, hk⟩
      -- One producer's claim apart from the rest.
      have hsplit : ∀ v : Option Job, (us₁ ++ v :: us₂).reduceOption.Perm
          (v.toList ++ (us₁ ++ us₂).reduceOption) := by
        intro v
        simp only [List.reduceOption_append]
        cases v with
        | none => exact List.Perm.refl _
        | some job => exact List.perm_middle
      cases claims_of_monitor u u' o x w w' hm hw with
      | stay _ _ ho =>
          exact ⟨line, Or.inl ⟨rfl, queue_kept w w' o x hw ho⟩, Sources.ready _ _ consumer
            recovered produced (hall _ _ hk) haccepted hwaited
            (hnew.later (List.Sublist.refl _) hkept)⟩
      | create _ job ho hnone hsome =>
          refine ⟨line, Or.inl ⟨rfl, queue_kept w w' o x hw ho⟩, Sources.ready _ _ consumer
            recovered produced (hall _ _ hk) haccepted hwaited ?_⟩
          have hrest := hnew.perm ((hsplit none).append_left produced)
          refine New.perm (?_ : New _ _ (job :: (produced ++ (us₁ ++ us₂).reduceOption)))
            (List.perm_middle.symm.trans ((hsplit (some job)).symm.append_left produced))
          have hfresh : job.id ∉ (produced ++ (us₁ ++ us₂).reduceOption).map Job.id := by
            intro hmem
            rcases List.mem_map.mp hmem with ⟨other, hother, hid⟩
            have hthere := hrest.stored other hother
            rw [hid, hnone] at hthere
            cases hthere
          refine ⟨fun j hj => ?_, fun j hj => ?_, List.nodup_cons.mpr ⟨hfresh, hrest.distinct⟩⟩
          · rcases List.mem_cons.mp hj with rfl | hj
            · exact new_of_moved _ _ (hmoved j.id) hnone
            · exact hrest.unstored j hj
          · rcases List.mem_cons.mp hj with rfl | hj
            · exact hsome
            · exact hkept _ (hrest.stored j hj)
      | offer job =>
          have hmove := hnew.perm ((hsplit (some job)).append_left produced)
          rcases queue_offered w w' job x hw with hqueue | hqueue
          · refine ⟨_, Or.inr ⟨job, rfl, hqueue⟩, Sources.ready _ _ consumer recovered
              (produced ++ [job]) (hall _ _ hk) ?_ hwaited ?_⟩
            · rw [haccepted, List.append_assoc]
            · rw [List.append_assoc]
              exact (hmove.later (List.Sublist.refl _) hkept).perm
                ((hsplit none).symm.append_left [job] |>.append_left produced)
          · refine ⟨line, Or.inl ⟨rfl, hqueue⟩, Sources.ready _ _ consumer recovered produced
              (hall _ _ hk) haccepted hwaited ?_⟩
            have hdropped := hmove.later
              ((List.sublist_cons_self job _).append_left produced) hkept
            exact hdropped.perm ((hsplit none).symm.append_left produced)

/-! ### A step -/

/-- A call that leaves the consumer's line in order. -/
theorem orderly_call (s s' : Sys S) (line line' : Line) (h : Orderly s line)
    (hthreads : s'.threads.isSome = s.threads.isSome)
    (hgains : line.Gains line' s.shared s'.shared) (hbegun : s'.begun = s.begun)
    (hconsumer : (s'.threads.bind Threads.consumer).map Prod.fst =
      (s.threads.bind Threads.consumer).map Prod.fst)
    (hedge : ∀ id, Edge (s.status id) (s'.status id))
    (hsources : Sources line' s'.shared s'.threads) : Orderly s' (line.next s s') := by
  rcases hgains with ⟨rfl, hqueue⟩ | ⟨job, rfl, hqueue⟩
  · rw [next_same line' s s' hthreads hqueue]
    refine ⟨?_, ?_, ?_, fun id => (h.moved id).tail (hedge id), hsources⟩
    · rw [hqueue]
      exact h.queue
    · rw [hbegun]
      exact h.begun
    · rw [hconsumer]
      exact h.last
  · rw [next_put line s s' job hthreads hqueue]
    refine ⟨?_, ?_, ?_, fun id => (h.moved id).tail (hedge id), hsources⟩
    · rw [hqueue, ← List.append_assoc, ← h.queue]
    · rw [hbegun]
      exact h.begun
    · rw [hconsumer]
      exact h.last

/-- The jobs whose pipeline was begun are different ones. -/
theorem begun_nodup (s : Sys S) (hs : s.Kept) : s.begun.Nodup := by
  rcases hs with ⟨claims, _, hi⟩
  have hnodup := hi.begunNodup
  rw [Sys.ledger, Multiset.add_zero] at hnodup
  exact Multiset.coe_nodup.mp hnodup

/-- A pipeline that was not begun yet, of the job taken last, is begun in order. -/
theorem begun_last (earlier now : List Bytes) (front : List Job) (job : Job)
    (h : now.Sublist ((front ++ [job]).map Job.id)) (hnodup : (earlier ++ now ++ [job.id]).Nodup) :
    (now ++ [job.id]).Sublist ((front ++ [job]).map Job.id) := by
  rw [List.map_append, List.map_singleton] at h ⊢
  have hnot : job.id ∉ now := fun hmem => by
    rw [List.append_assoc] at hnodup
    exact List.disjoint_of_nodup_append hnodup.of_append_right hmem (List.mem_singleton_self _)
  have hfront : now.Sublist (front.map Job.id) := by
    rcases List.sublist_append_iff.mp h with ⟨a, b, rfl, ha, hb⟩
    have hb' : b = [] := by
      refine List.eq_nil_iff_forall_not_mem.mpr fun id hid => hnot ?_
      rw [← List.mem_singleton.mp (hb.subset hid)]
      exact List.mem_append_right _ hid
    rw [hb', List.append_nil]
    exact ha
  exact hfront.append (List.Sublist.refl _)

/-! ### A step of each kind -/

section Kinds

variable (s : Sys S) (t : Threads S) (line : Line)

/-- The process starts over an empty queue. -/
theorem orderly_boot (hnone : s.threads = none) :
    Orderly ({ s with
      shared := { s.shared with queue := Memory.new queueCapacity }
      threads := some ⟨some Cli.startup, [], none⟩ } : Sys S) (line.next s { s with
      shared := { s.shared with queue := Memory.new queueCapacity }
      threads := some ⟨some Cli.startup, [], none⟩ }) := by
  rw [next_turn _ _ _ (by rw [hnone]; exact Bool.noConfusion)]
  exact orderly_opening _ new_jobs rfl (Sources.booting _ none startup_obeys
    (fun _ => ⟨rfl, rfl⟩) ⟨fun job hjob => absurd hjob List.not_mem_nil, List.Pairwise.nil,
      List.nodup_nil⟩)

theorem orderly_bootCall (o : Op S) (k : Ans o → Proc S (Except Bytes Unit)) (x : Ans o)
    (w : Shared) (ht : s.threads = some t) (hboot : t.boot = some (.call o k))
    (hw : SharedSem s.shared o x w)
    (hedge : ∀ id, Edge (s.status id)
      (Sys.status { s with shared := w, threads := some { t with boot := some (k x) } } id))
    (h : Orderly s line) :
    Orderly { s with shared := w, threads := some { t with boot := some (k x) } }
      (line.next s { s with shared := w, threads := some { t with boot := some (k x) } }) := by
  have hsources := h.sources
  rw [ht] at hsources
  rcases t with ⟨boot, producers, consumer⟩
  cases hboot
  cases hsources with
  | booting p todo hp hfirst hwaited =>
      rcases booting_call line s.shared w o k x
        (Sources.booting _ todo hp hfirst hwaited) hw with ⟨line', hgains, hnext⟩
      exact orderly_call s _ line line' h (by rw [ht]; rfl) hgains rfl (by rw [ht]; rfl) hedge
        hnext

/-- What was recovered stands at the front of the line. -/
theorem orderly_ready (ht : s.threads = some t) (hboot : t.boot = some (.ret (.ok ())))
    (h : Orderly s line) :
    Orderly { s with threads := some { t with boot := none } }
      (line.next s { s with threads := some { t with boot := none } }) := by
  have hsources := h.sources
  rw [ht] at hsources
  rcases t with ⟨boot, producers, consumer⟩
  cases hboot
  cases hsources with
  | booting p todo hp hfirst hwaited =>
      refine orderly_call s _ line line h (by rw [ht]; rfl) (Or.inl ⟨rfl, rfl⟩) rfl
        (by rw [ht]; rfl) (fun _ => Edge.stay _) ?_
      have hfound : Waited line.opened line.accepted :=
        hwaited.sublist (List.sublist_append_left _ _)
      exact Sources.ready [] [] none line.accepted [] List.Forall₂.nil
        (List.append_nil _).symm hfound ⟨fun job hjob => absurd hjob List.not_mem_nil,
          fun job hjob => absurd hjob List.not_mem_nil, List.nodup_nil⟩

theorem orderly_produce (api : Api.Server S D Digest) (p : Proc S Unit) (ht : s.threads = some t)
    (hready : t.boot = none) (hp : Producer api p) (h : Orderly s line) :
    Orderly { s with threads := some { t with producers := p :: t.producers } }
      (line.next s { s with threads := some { t with producers := p :: t.producers } }) := by
  have hsources := h.sources
  rw [ht] at hsources
  rcases t with ⟨boot, producers, consumer⟩
  cases hready
  cases hsources with
  | ready _ pending _ recovered produced hps haccepted hwaited hnew =>
      refine orderly_call s _ line line h (by rw [ht]; rfl) (Or.inl ⟨rfl, rfl⟩) rfl
        (by rw [ht]; rfl) (fun _ => Edge.stay _) ?_
      have hobeys := obeys_mono _ _ _ _ (fun _ _ => True) (producer_obeys api p hp)
        (fun _ _ _ => trivial)
      exact Sources.ready (p :: producers) (none :: pending) consumer recovered produced
        (List.Forall₂.cons hobeys hps) haccepted hwaited hnew

theorem orderly_producerCall (before after : List (Proc S Unit)) (o : Op S)
    (k : Ans o → Proc S Unit) (x : Ans o) (w : Shared) (ht : s.threads = some t)
    (hproducers : t.producers = before ++ .call o k :: after) (hw : SharedSem s.shared o x w)
    (hedge : ∀ id, Edge (s.status id) (Sys.status { s with
      shared := w, threads := some { t with producers := before ++ k x :: after } } id))
    (h : Orderly s line) :
    Orderly { s with
      shared := w, threads := some { t with producers := before ++ k x :: after } }
      (line.next s { s with
        shared := w, threads := some { t with producers := before ++ k x :: after } }) := by
  have hsources := h.sources
  rw [ht] at hsources
  rcases t with ⟨boot, producers, consumer⟩
  cases hproducers
  cases boot with
  | some p => cases before <;> cases hsources
  | none =>
      rcases producing_call line s.shared w before after o k consumer x hsources h.moved hedge hw
        with ⟨line', hgains, hnext⟩
      exact orderly_call s _ line line' h (by rw [ht]; rfl) hgains rfl (by rw [ht]; rfl) hedge
        hnext

/-- The job at the front of the queue is the next one to be taken. -/
theorem orderly_dequeue (c : Controller S) (job : Job) (q : Memory) (ht : s.threads = some t)
    (hready : t.boot = none) (hidle : t.consumer = none)
    (hq : s.shared.queue.dequeue? = some (job, q)) (h : Orderly s line) :
    Orderly { s with
      shared := { s.shared with queue := q }
      threads := some { t with consumer := some (job, c.runJob job) } } (line.next s { s with
      shared := { s.shared with queue := q }
      threads := some { t with consumer := some (job, c.runJob job) } }) := by
  have hsources := h.sources
  rw [ht] at hsources
  rcases t with ⟨boot, producers, consumer⟩
  cases hready
  cases hidle
  have hqueue := Memory.dequeue?_jobs _ _ _ hq
  rw [next_took line s _ job (by rw [ht]; rfl) hqueue]
  refine ⟨?_, ?_, fun j hj => ⟨line.taken, ?_⟩, h.moved, ?_⟩
  · rw [List.append_assoc, List.singleton_append, ← hqueue]
    exact h.queue
  · rcases h.begun with ⟨now, hbegun, hsub⟩
    refine ⟨now, hbegun, hsub.trans ?_⟩
    rw [List.map_append]
    exact List.sublist_append_left _ _
  · cases hj
    rfl
  · cases hsources with
    | ready _ pending _ recovered produced hps haccepted hwaited hnew =>
        exact Sources.ready producers pending _ recovered produced hps haccepted hwaited hnew

/-- The one pipeline that may begin is the one of the job taken last. -/
theorem orderly_consumerCall (job : Job) (o : Op S) (k : Ans o → Proc S (Except Bytes Unit))
    (x : Ans o) (w : Shared) (s' : Sys S) (ht : s.threads = some t)
    (hconsumer : t.consumer = some (job, .call o k)) (hw : SharedSem s.shared o x w)
    (hs' : s' = ⟨w, some { t with consumer := some (job, k x) },
      if o.beginsPipeline then s.begun ++ [job.id] else s.begun⟩)
    (hs : s.Kept) (hkept : s'.Kept) (hedge : ∀ id, Edge (s.status id) (s'.status id))
    (h : Orderly s line) : Orderly s' (line.next s s') := by
  have hsources := h.sources
  rw [ht] at hsources
  rcases running_of_kept s hs t job _ ht hconsumer with ⟨hready, phase, hp, _⟩
  rcases hp x with ⟨phase', hm, _⟩
  have hqueue := queue_kept s.shared w o x hw (runMonitor_offers job.id phase phase' o x hm)
  rcases t with ⟨boot, producers, consumer⟩
  cases hready
  cases hconsumer
  subst hs'
  rw [next_same line s _ (by rw [ht]; rfl) hqueue]
  have hlast := h.last job (by rw [ht]; rfl)
  refine ⟨?_, ?_, fun j hj => ?_, fun id => (h.moved id).tail (hedge id), ?_⟩
  · rw [hqueue]
    exact h.queue
  · rcases h.begun with ⟨now, hbegun, hsub⟩
    by_cases hbegins : o.beginsPipeline = true
    · have hnodup := begun_nodup _ hkept
      rcases hlast with ⟨front, hfront⟩
      simp only [if_pos hbegins, hbegun] at hnodup ⊢
      refine ⟨now ++ [job.id], List.append_assoc _ _ _, ?_⟩
      rw [hfront] at hsub ⊢
      exact begun_last line.earlier now front job hsub hnodup
    · simp only [if_neg hbegins]
      exact ⟨now, hbegun, hsub⟩
  · cases hj
    exact hlast
  · cases hsources with
    | ready _ pending _ recovered produced hps haccepted hwaited hnew =>
        exact Sources.ready producers pending _ recovered produced hps haccepted hwaited
          (hnew.later (List.Sublist.refl _) fun id => edges_isSome _ _ (.single (hedge id)))

theorem orderly_consumerDone (job : Job) (r : Except Bytes Unit) (ht : s.threads = some t)
    (hconsumer : t.consumer = some (job, .ret r)) (h : Orderly s line) :
    Orderly { s with threads := some { t with consumer := none } }
      (line.next s { s with threads := some { t with consumer := none } }) := by
  have hsources := h.sources
  rw [ht] at hsources
  rcases t with ⟨boot, producers, consumer⟩
  cases hconsumer
  have hsame := next_same line s { s with threads := some ⟨boot, producers, none⟩ }
    (by rw [ht]; rfl) rfl
  rw [hsame]
  refine ⟨h.queue, h.begun, fun j hj => (by cases hj), h.moved, ?_⟩
  cases hsources with
  | ready _ pending _ recovered produced hps haccepted hwaited hnew =>
      exact Sources.ready producers pending _ recovered produced hps haccepted hwaited hnew

/-- A crash ends the line, and where there is no process there is none to end. -/
theorem orderly_crash (hs : s.Kept) (h : Orderly s line) :
    Orderly ({ s with
      shared := { s.shared with queue := Memory.new queueCapacity }, threads := none } : Sys S)
      (line.next s { s with
        shared := { s.shared with queue := Memory.new queueCapacity }, threads := none }) := by
  have hsources := h.sources
  cases ht : s.threads with
  | some t =>
      rw [next_turn _ _ _ (by rw [ht]; exact Bool.noConfusion)]
      exact orderly_opening _ new_jobs rfl (Sources.off rfl)
  | none =>
      have hqueue : s.shared.queue.jobs = [] := by
        rcases hs with ⟨claims, hh, _⟩
        rw [ht] at hh
        cases hh with
        | off hq => exact hq
      rw [next_same line s _ (by rw [ht]) hqueue.symm]
      have hnone : line.accepted = [] := by
        rw [ht] at hsources
        cases hsources with
        | off haccepted => exact haccepted
      refine ⟨?_, h.begun, fun j hj => (by cases hj), h.moved, Sources.off hnone⟩
      rw [h.queue, hqueue]
      rfl

end Kinds

/-- One step keeps the line in order. -/
theorem orderly_step (c : Controller S) (api : Api.Server S D Digest) (s s' : Sys S) (line : Line)
    (hstep : Step c api s s') (hs : s.Kept) (h : Orderly s line) :
    Orderly s' (line.next s s') := by
  rcases kept_step c api s s' hstep hs with ⟨hkept, hedge⟩
  cases hstep with
  | boot hnone => exact orderly_boot s line hnone
  | bootCall t o k x w ht hboot hw => exact orderly_bootCall s t line o k x w ht hboot hw hedge h
  | ready t ht hboot => exact orderly_ready s t line ht hboot h
  | produce t p ht hready hp => exact orderly_produce s t line api p ht hready hp h
  | producerCall t before after o k x w ht hproducers hw =>
      exact orderly_producerCall s t line before after o k x w ht hproducers hw hedge h
  | dequeue t job q ht hready hidle hq =>
      exact orderly_dequeue s t line c job q ht hready hidle hq h
  | consumerCall t job o k x w ht hconsumer hw =>
      exact orderly_consumerCall s t line job o k x w _ ht hconsumer hw rfl hs hkept hedge h
  | consumerDone t job r ht hconsumer => exact orderly_consumerDone s t line job r ht hconsumer h
  | crash => exact orderly_crash s line hs h

/-- A run keeps it in order. -/
theorem orderly_run (c : Controller S) (api : Api.Server S D Digest) (store : Store) (s : Sys S)
    (line : Line) (h : Queues c api store s line) :
    ReflTransGen (Step c api) (Sys.initial store) s ∧ Orderly s line := by
  induction h with
  | initial => exact ⟨.refl, orderly_opening _ new_jobs rfl (Sources.off rfl)⟩
  | step s s' line _ hstep ih =>
      have hkept := (kept_run c api _ s ih.1 (kept_initial store)).1
      exact ⟨ih.1.tail hstep, orderly_step c api s s' line hstep hkept ih.2⟩

/-- Whatever can be reached has a line. -/
theorem exists_line (c : Controller S) (api : Api.Server S D Digest) (store : Store) (s : Sys S)
    (h : ReflTransGen (Step c api) (Sys.initial store) s) : ∃ line, Queues c api store s line := by
  induction h with
  | refl => exact ⟨_, Queues.initial⟩
  | tail _ hstep ih =>
      rcases ih with ⟨line, hline⟩
      exact ⟨_, Queues.step _ _ line hline hstep⟩

/-! ### No job overtakes another -/

/-- A line is what was recovered and then what is new. -/
theorem line_sources (line : Line) (w : Shared) (t : Option (Threads S)) (h : Sources line w t) :
    ∃ recovered produced, line.accepted = recovered ++ produced ∧ Waited line.opened recovered ∧
      New line.opened w.store produced := by
  have hnone : New line.opened w.store [] :=
    ⟨fun job hjob => absurd hjob List.not_mem_nil, fun job hjob => absurd hjob List.not_mem_nil,
      List.nodup_nil⟩
  cases h with
  | off haccepted =>
      exact ⟨[], [], haccepted, ⟨fun job hjob => absurd hjob List.not_mem_nil, List.Pairwise.nil,
        List.nodup_nil⟩, hnone⟩
  | booting p todo hp hfirst hwaited =>
      exact ⟨line.accepted, [], (List.append_nil _).symm,
        hwaited.sublist (List.sublist_append_left _ _), hnone⟩
  | ready producers pending consumer recovered produced hp haccepted hwaited hnew =>
      exact ⟨recovered, produced, haccepted, hwaited,
        hnew.later (List.sublist_append_left _ _) fun _ => id⟩

/-- Nobody stands in a line twice. -/
theorem line_nodup (opened now : Store) (recovered produced : List Job)
    (hwaited : Waited opened recovered) (hnew : New opened now produced) :
    ((recovered ++ produced).map Job.id).Nodup := by
  rw [List.map_append]
  refine List.Nodup.append hwaited.distinct hnew.distinct fun id hold hfresh => ?_
  rcases List.mem_map.mp hold with ⟨a, ha, rfl⟩
  rcases List.mem_map.mp hfresh with ⟨b, hb, hid⟩
  have hrow : opened.status a.id = some .queued := by
    rcases List.mem_filter.mp (hwaited.queued a ha) with ⟨hrow, hst⟩
    rw [Store.status, (Table.mem_iff_find? opened.jobs a).mp hrow, Option.map_some,
      of_decide_eq_true hst]
  have hnone := hnew.unstored b hb
  rw [hid, hrow] at hnone
  cases hnone

/-- Whoever stands before somebody stands in the front part, or both stand behind it. -/
theorem pair_of_append {a b : Job} {front back : List Job} (h : [a, b].Sublist (front ++ back)) :
    a ∈ front ∨ [a, b].Sublist back := by
  rcases List.sublist_append_iff.mp h with ⟨first, second, heq, hfirst, hsecond⟩
  cases first with
  | nil =>
      rw [List.nil_append] at heq
      exact Or.inr (heq ▸ hsecond)
  | cons x rest =>
      rw [(List.cons.inj heq).1]
      exact Or.inl (hfirst.subset List.mem_cons_self)

/-- In a line that is taken from its front, whoever stands before somebody who
    was taken was taken before. -/
theorem taken_before (taken waiting : List Job) (a b : Job)
    (hnodup : ((taken ++ waiting).map Job.id).Nodup) (h : [a, b].Sublist (taken ++ waiting))
    (hb : b ∉ waiting) : a ∉ waiting ∧ ∀ front last, taken = front ++ [last] → last.id ≠ a.id := by
  have hwaiting : ¬ [a, b].Sublist waiting := fun hsub =>
    hb (hsub.subset (List.mem_cons_of_mem a (List.mem_singleton_self b)))
  have hapart : ∀ front back : List Job, taken ++ waiting = front ++ back → a ∈ front →
      ∀ x ∈ back, x.id ≠ a.id := by
    intro front back heq ha x hx hid
    rw [heq, List.map_append] at hnodup
    exact List.disjoint_of_nodup_append hnodup (List.mem_map_of_mem ha)
      (hid ▸ List.mem_map_of_mem hx)
  constructor
  · have ha : a ∈ taken := (pair_of_append h).resolve_right hwaiting
    exact fun hmem => hapart taken waiting rfl ha a hmem rfl
  · rintro front last rfl
    rw [List.append_assoc, List.singleton_append] at h
    rcases pair_of_append h with ha | hsub
    · exact hapart front (last :: waiting) (by rw [List.append_assoc, List.singleton_append]) ha
        last List.mem_cons_self
    · -- Then the other would stand behind everybody who was taken.
      cases hsub with
      | cons _ hsub => exact absurd hsub hwaiting
      | cons_cons _ hsub => exact absurd (hsub.subset (List.mem_singleton_self b)) hb

/-- Jobs are run in the order they were accepted, over every history of a
    controller. Those a process accepted are those its consumer took and those
    that still wait, in this order, and none of them twice; the pipelines it
    began are of jobs it took, in the order it took them. When a job has left the
    queue, every job accepted before it has left it too and is not being run any
    more. In front stand the jobs that were stored as queued when the process
    started, the oldest first, and behind them only jobs that were not stored
    then. -/
theorem first_come_first_served (c : Controller S) (api : Api.Server S D Digest) (store : Store)
    (s : Sys S) (line : Line) (h : Queues c api store s line) :
    line.accepted = line.taken ++ s.shared.queue.jobs ∧ (line.accepted.map Job.id).Nodup ∧
      (∃ now, s.begun = line.earlier ++ now ∧ now.Sublist (line.taken.map Job.id)) ∧
      (∀ id, s.consuming = some id → (line.taken.map Job.id).getLast? = some id) ∧
      (∀ a b, [a, b].Sublist line.accepted → b ∉ s.shared.queue.jobs →
        a ∉ s.shared.queue.jobs ∧ s.consuming ≠ some a.id) ∧
      ∃ recovered produced, line.accepted = recovered ++ produced ∧
        Waited line.opened recovered ∧ New line.opened s.shared.store produced := by
  rcases orderly_run c api store s line h with ⟨hrun, horder⟩
  rcases line_sources line s.shared s.threads horder.sources with
    ⟨recovered, produced, haccepted, hwaited, hnew⟩
  have hnodup : (line.accepted.map Job.id).Nodup := by
    rw [haccepted]
    exact line_nodup _ _ recovered produced hwaited hnew
  have hlast : ∀ id, s.consuming = some id →
      ∃ front last, line.taken = front ++ [last] ∧ last.id = id := by
    intro id hid
    rcases Option.map_eq_some_iff.mp hid with ⟨running, hrunning, rfl⟩
    rcases horder.last running.1 (by rw [hrunning, Option.map_some]) with ⟨front, hfront⟩
    exact ⟨front, running.1, hfront, rfl⟩
  refine ⟨horder.queue, hnodup, horder.begun, fun id hid => ?_, fun a b hpair hb => ?_,
    recovered, produced, haccepted, hwaited, hnew⟩
  · rcases hlast id hid with ⟨front, last, htaken, rfl⟩
    rw [htaken, List.map_append, List.map_singleton, List.getLast?_concat]
  · rw [horder.queue] at hpair hnodup
    rcases taken_before line.taken s.shared.queue.jobs a b hnodup hpair hb with ⟨ha, hover⟩
    refine ⟨ha, fun hid => ?_⟩
    rcases hlast a.id hid with ⟨front, last, htaken, heq⟩
    exact hover front last htaken heq

/-- The job that was left queued stands first in the line of the next start. -/
theorem first_come_first_served_files : ∃ line,
    Queues filesController Api.filesApi leftQueued filesTaken line ∧
      (∃ now, filesTaken.begun = line.earlier ++ now ∧ now.Sublist (line.taken.map Job.id)) ∧
      (line.taken.map Job.id).getLast? = some filesJob.id := by
  rcases exists_line _ _ _ _ reaches_filesTaken with ⟨line, hline⟩
  have hserved := first_come_first_served filesController Api.filesApi leftQueued filesTaken line
    hline
  exact ⟨line, hline, hserved.2.2.1, hserved.2.2.2.1 _ rfl⟩

end Bop
