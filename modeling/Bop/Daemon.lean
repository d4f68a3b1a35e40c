import Bop.Process
import Bop.Queue

/-!
# The World of a Controller Process

What the threads of a controller process share: the metadata store, which
outlives the process, and the queue, which does not. Each operation answers
and leaves the world as `SharedSem` says. Statements behave as the store's own
semantics says, announcing an event may or may not record it, and enqueueing
may be refused for any reason. The other operations do not touch either.

## Main definitions

* `Shared`: The store and the queue.
* `SharedSem`: What an operation may answer and leave behind.
* `Op.readsOnly`: The operations that change neither.

## Theorems

* `shared_of_readsOnly`: They do not.
-/

namespace Bop

/-- What the threads of a controller process share. -/
structure Shared where
  store : Store
  queue : Memory

variable {S : Type}

/-- What an operation may answer and leave behind. -/
def SharedSem (w : Shared) : (o : Op S) → Ans o → Shared → Prop
  | .store _ o, x, w' => StoreSem w.store o x w'.store ∧ w'.queue = w.queue
  | .publish _ e, _, w' =>
      (w'.store = w.store ∨ w'.store = w.store.recordEvent e) ∧ w'.queue = w.queue
  | .enqueue job, .ok _, w' => w'.store = w.store ∧ w.queue.enqueue? job = some w'.queue
  | .enqueue _, .error _, w' => w' = w
  | .now, _, w' => w' = w
  | .factory _, _, w' => w' = w
  | .discover _ _, _, w' => w' = w
  | .backup _ _ _, _, w' => w' = w
  | .verify _ _ _, _, w' => w' = w
  | .restore _ _ _, _, w' => w' = w
  | .checksumFile _, _, w' => w' = w
  | .removeFile _, _, w' => w' = w
  | .storeArtifact _ _ _, _, w' => w' = w
  | .verifySnapshot _ _ _, _, w' => w' = w
  | .applyRetention _ _ _ _, _, w' => w' = w

/-- The statements that only read. -/
def StoreOp.readsOnly : StoreOp → Bool
  | .getJob _ | .listJobsByStatus _ | .listJobs | .listSnapshots _ | .listEventsPage _ => true
  | .getPluginSettings _ _ => true
  | _ => false

/-- The operations that change neither the store nor the queue. -/
def Op.readsOnly : Op S → Bool
  | .store _ o => o.readsOnly
  | .publish _ _ | .enqueue _ => false
  | _ => true

/-- A statement that only reads leaves the store alone. -/
theorem store_of_readsOnly (s s' : Store) (o : StoreOp) (x : StoreAns o)
    (ho : o.readsOnly = true) (h : StoreSem s o x s') : s' = s := by
  rcases effect_of_storeSem s s' o x h with heq | heffect
  · exact heq
  · cases o with
    | createJob _ => cases ho
    | updateJobStatus _ _ => cases ho
    | failOrphanedJobs => cases ho
    | recordSnapshot _ => cases ho
    | setPluginSettings _ _ _ => cases ho
    | _ => cases heffect

/-- An operation that only reads leaves the world alone. -/
theorem shared_of_readsOnly (w w' : Shared) (o : Op S) (x : Ans o) (ho : o.readsOnly = true)
    (h : SharedSem w o x w') : w' = w := by
  cases o with
  | store ctx o =>
      have hstore := store_of_readsOnly w.store w'.store o x ho h.1
      cases w
      cases w'
      simp only [Shared.mk.injEq]
      exact ⟨hstore, h.2⟩
  | publish ctx e => cases ho
  | enqueue job => cases ho
  | _ => exact h

/-- A shared step that is not a recording leaves the rows alone. -/
theorem snapshots_of_shared (s s' : Shared) (o : Op S) (x : Ans o)
    (h : SharedSem s o x s') (ho : ∀ ctx snap, o ≠ .store ctx (.recordSnapshot snap)) :
    s'.store.snapshots = s.store.snapshots := by
  cases o with
  | store ctx o =>
      refine snapshots_of_not_writesSnapshots s.store s'.store o x h.1 ?_
      cases o with
      | recordSnapshot snap => exact absurd rfl (ho ctx snap)
      | _ => rfl
  | publish ctx e =>
      rcases h.1 with heq | heq <;> rw [heq]
      rfl
  | enqueue job =>
      cases x with
      | ok u => rw [h.1]
      | error err => rw [show s' = s from h]
  | _ => rw [show s' = s from h]

end Bop
