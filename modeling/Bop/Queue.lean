import Bop.Core

/-!
# The Memory Queue

The queue between whoever creates jobs and the one consumer that runs them: a
buffered channel. Enqueueing never blocks, so a full buffer refuses the job,
and nothing survives a restart. The metadata service is the record of what
is to be done; the queue only holds it.

## Main definitions

* `Memory`: A bounded buffer of jobs.
* `Memory.enqueue?`: A job at the end, unless the buffer is full.
* `Memory.dequeue?`: The job at the front.
* `queueCapacity`: The capacity the controller chooses.
-/

namespace Bop

/-- A buffered channel of jobs. -/
structure Memory where
  /-- How many jobs it can hold. -/
  capacity : Nat
  /-- The jobs it holds, oldest first. -/
  jobs : List Job
  /-- It never holds more than it can. -/
  bounded : jobs.length ≤ capacity

namespace Memory

/-- `queue.ErrQueueFull`. -/
def errQueueFull : Bytes := "queue: full"

/-- `queue.NewMemory`. -/
def new (capacity : Nat) : Memory := ⟨capacity, [], Nat.zero_le _⟩

/-- The job goes to the end of the buffer, unless the buffer is full. -/
def enqueue? (q : Memory) (job : Job) : Option Memory :=
  if h : q.jobs.length < q.capacity then
    some ⟨q.capacity, q.jobs ++ [job], by
      rw [List.length_append, List.length_cons, List.length_nil]
      exact h⟩
  else none

/-- The job at the front of the buffer, and what is left. -/
def dequeue? (q : Memory) : Option (Job × Memory) :=
  match h : q.jobs with
  | [] => none
  | job :: rest => some (job, ⟨q.capacity, rest, by
      have := q.bounded
      rw [h, List.length_cons] at this
      omega⟩)

theorem enqueue?_jobs (q q' : Memory) (job : Job) (h : q.enqueue? job = some q') :
    q'.jobs = q.jobs ++ [job] ∧ q'.capacity = q.capacity := by
  rw [enqueue?] at h
  split at h
  · cases h
    exact ⟨rfl, rfl⟩
  · cases h

/-- Enqueueing is refused exactly when the buffer is full. -/
theorem enqueue?_eq_none_iff (q : Memory) (job : Job) :
    q.enqueue? job = none ↔ q.jobs.length = q.capacity := by
  have hbound := q.bounded
  rw [enqueue?]
  split
  · next h =>
      simp only [reduceCtorEq, false_iff]
      omega
  · next h =>
      simp only [true_iff]
      omega

theorem dequeue?_jobs (q q' : Memory) (job : Job) (h : q.dequeue? = some (job, q')) :
    q.jobs = job :: q'.jobs := by
  rw [dequeue?] at h
  split at h
  · cases h
  · next hjobs =>
      cases h
      exact hjobs

end Memory

/-- `cli.queueCapacity`. -/
def queueCapacity : Nat := 256

end Bop
