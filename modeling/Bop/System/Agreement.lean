import Bop.Effect.Interp
import Bop.System.AtMostOnce
import Bop.System.Reference
import Bop.System.Telling

/-!
# Events and Rows

How a job ended is said twice, by its terminal event and by the status of its
row. The consumer announces the event first and writes the status then, and
either may be lost: the subscriber that persists events only logs a failed
write, the write of the status may fail, and the process may crash between the
two. What recovery does later it does by the status alone.

So the two agree exactly for the jobs whose status was written. A job whose
terminal event is persisted and whose status was not is still in progress, or
was failed by the recovery of a later start, whatever its event says.

## Main definitions

* `Says`: A persisted event says how a job ended.
* `Finishes`: A step writes the final status of the job being run.
* `Run`: A run, with the jobs whose final status was written.
* `Settled`, `Narrated`: The invariant.

## Theorems

* `narrated_step`: A step keeps the invariant.
* `narrated_run`: Every run keeps the invariant.
* `events_agree`: What events and rows say when no job is running.
* `not_events_agree`: Without the write they may disagree.
-/

namespace Bop

open Prog Relation

variable {S D Digest : Type} [DecidableEq Digest]

/-- A persisted event says that the job ended in this status. -/
def Says (s : Store) (id : Bytes) (st : JobStatus) : Prop :=
  ∃ e ∈ s.events, e.jobID = id ∧ e.type.outcome = some st

/-- The step writes the final status of the job being run. -/
def Finishes (s s' : Sys S) (id : Bytes) : Prop :=
  s.consuming = some id ∧ s.status id = some .inProgress ∧
    ∃ st, st.terminal = true ∧ s'.status id = some st

/-- A run from a given store, and the jobs whose final status was written by
    whoever ran them. -/
inductive Run (c : Controller S) (api : Api.Server S D Digest) (store : Store) :
    Sys S → (Bytes → Prop) → Prop
  | start : Run c api store (Sys.initial store) (fun _ => False)
  | step (s s' : Sys S) (written : Bytes → Prop) (h : Run c api store s written)
      (hs : Step c api s s') :
      Run c api store s' (fun id => written id ∨ Finishes s s' id)

/-! ### What a call changes -/

/-- A mute call leaves what is said about jobs alone. -/
theorem says_of_mute (w w' : Shared) (o : Op S) (x : Ans o) (ho : o.mute = true)
    (h : SharedSem w o x w') (id : Bytes) (st : JobStatus) :
    Says w'.store id st ↔ Says w.store id st := by
  cases o with
  | store ctx o => rw [Says, events_of_storeSem _ _ o x h.1, Says]
  | publish ctx e =>
      rcases h.1 with heq | heq
      · rw [heq]
      · -- The event that is added says nothing.
        rw [heq]
        constructor
        · rintro ⟨e', he', hid, hst⟩
          rcases List.mem_append.mp he' with hold | hnew
          · exact ⟨e', hold, hid, hst⟩
          · rw [List.mem_singleton.mp hnew, Option.isNone_iff_eq_none.mp ho] at hst
            cases hst
        · rintro ⟨e', he', hid, hst⟩
          exact ⟨e', List.mem_append_left _ he', hid, hst⟩
  | enqueue job =>
      cases x with
      | ok u => rw [h.1]
      | error err => rw [show w' = w from h]
  | _ => rw [show w' = w from h]

/-! ### The invariant -/

/-- What is said about a job agrees with its row: with its status if that was
    written, and otherwise the job is in progress or was failed. -/
def Settled (s : Sys S) (took : Prop) (id : Bytes) : Prop :=
  ∀ st, Says s.shared.store id st → (took → s.status id = some st) ∧
    (¬ took → s.status id = some .inProgress ∨ s.status id = some .failed)

/-- What has happened to the job being run by the time this much is told. -/
def Tells (s : Sys S) (took : Prop) (id : Bytes) : Told → Prop
  | .unbegun => ¬ took ∧ ∀ st, ¬ Says s.shared.store id st
  | .silent => id ∈ s.begun ∧ ¬ took ∧ ∀ st, ¬ Says s.shared.store id st
  | .announced st => id ∈ s.begun ∧ ¬ took ∧ st.terminal = true ∧
      ∀ st', Says s.shared.store id st' → st' = st
  | .closed => id ∈ s.begun ∧ Settled s took id

/-- The recovery and the producers are mute. -/
def Threads.Muted (t : Threads S) : Prop :=
  (∀ p, t.boot = some p → Mute p) ∧ ∀ p ∈ t.producers, Mute p

/-- Nothing is left to tell. -/
abbrev Ended (_ : Except Bytes Unit) (a : Told) : Prop := a = .unbegun ∨ a = .closed

/-- The invariant. -/
structure Narrated (s : Sys S) (written : Bytes → Prop) : Prop where
  kept : s.Kept
  /-- Only of jobs whose pipeline began anything is said or written. -/
  begun : ∀ id, (written id ∨ ∃ st, Says s.shared.store id st) → id ∈ s.begun
  /-- The jobs nobody is running are settled. -/
  settled : ∀ id, s.consuming ≠ some id → Settled s (written id) id
  muted : ∀ t, s.threads = some t → t.Muted
  /-- The consumer still has to tell the rest. -/
  telling : ∀ t job p, s.threads = some t → t.consumer = some (job, p) →
    ∃ a, Obeys (tellMonitor job.id) a p Ended ∧ Tells s (written job.id) job.id a

/-- A job is only said to have ended in a final status. -/
theorem terminal_of_says (s : Store) (id : Bytes) (st : JobStatus) (h : Says s id st) :
    st.terminal = true := by
  rcases h with ⟨e, _, _, hst⟩
  cases htype : e.type <;> rw [htype] at hst <;> cases hst <;> rfl

/-- A job of which nothing is said is settled. -/
theorem settled_of_silent (s : Sys S) (took : Prop) (id : Bytes)
    (h : ∀ st, ¬ Says s.shared.store id st) : Settled s took id :=
  fun st hsaid => absurd hsaid (h st)

/-- A settled job stays so when nothing new is said of it, and its row stays in
    its status or is failed by the recovery. -/
theorem settled_frame (s s' : Sys S) (took : Prop) (id : Bytes)
    (hsaid : ∀ st, Says s'.shared.store id st → Says s.shared.store id st)
    (hstatus : ∀ st, s.status id = some st →
      s'.status id = some st ∨ st = .inProgress ∧ s'.status id = some .failed)
    (h : Settled s took id) : Settled s' took id := by
  intro st hst
  have hterminal := terminal_of_says _ id st hst
  rcases h st (hsaid st hst) with ⟨htook, hlost⟩
  constructor
  · intro hyes
    rcases hstatus st (htook hyes) with hsame | ⟨rfl, _⟩
    · exact hsame
    · cases hterminal
  · intro hno
    rcases hlost hno with hactive | hfailed
    · exact (hstatus _ hactive).imp (fun h => h) And.right
    · rcases hstatus _ hfailed with hsame | ⟨hne, _⟩
      · exact Or.inr hsame
      · cases hne

/-- What is told of a job stays so under the same conditions. -/
theorem tells_frame (s s' : Sys S) (took : Prop) (id : Bytes) (a : Told)
    (hbegun : s'.begun = s.begun)
    (hsaid : ∀ st, Says s'.shared.store id st → Says s.shared.store id st)
    (hstatus : ∀ st, s.status id = some st → s'.status id = some st)
    (h : Tells s took id a) : Tells s' took id a := by
  cases a with
  | unbegun => exact ⟨h.1, fun st hst => h.2 st (hsaid st hst)⟩
  | silent => exact ⟨hbegun ▸ h.1, h.2.1, fun st hst => h.2.2 st (hsaid st hst)⟩
  | announced st => exact ⟨hbegun ▸ h.1, h.2.1, h.2.2.1, fun st' hst => h.2.2.2 st' (hsaid st' hst)⟩
  | closed =>
      exact ⟨hbegun ▸ h.1,
        settled_frame s s' took id hsaid (fun st hst => Or.inl (hstatus st hst)) h.2⟩

/-- A step that finishes no job adds none. -/
theorem narrated_of_calm (s s' : Sys S) (written : Bytes → Prop) (h : Narrated s' written)
    (hcalm : ∀ id, ¬ Finishes s s' id) :
    Narrated s' (fun id => written id ∨ Finishes s s' id) := by
  have heq : (fun id => written id ∨ Finishes s s' id) = written := by
    funext id
    exact propext (or_iff_left (hcalm id))
  rw [heq]
  exact h

/-- A step that keeps every row in its status finishes no job. -/
theorem calm_of_kept (s s' : Sys S)
    (h : ∀ id st, s.status id = some st → s'.status id = some st) (id : Bytes) :
    ¬ Finishes s s' id := by
  rintro ⟨_, hactive, st, hst, hstatus⟩
  rw [h id _ hactive] at hstatus
  cases hstatus
  cases hst

/-- A consumer that has announced how its job ended has its row in progress. -/
theorem active_of_announced (s : Sys S) (hs : s.Kept) (t : Threads S) (job : Job)
    (p : Proc S (Except Bytes Unit)) (ht : s.threads = some t)
    (hc : t.consumer = some (job, p)) (st : JobStatus) (hst : st.terminal = true)
    (hp : Obeys (tellMonitor job.id) (.announced st) p Ended) :
    s.status job.id = some .inProgress := by
  rcases running_of_kept s hs t job p ht hc with ⟨_, phase, hrun, hphase⟩
  cases p with
  | ret r => rcases hp with h | h <;> cases h
  | call o k =>
      -- The next call is the write of the status.
      rcases ans_nonempty o with ⟨x⟩
      rcases hp x with ⟨a', ha', _⟩
      rcases hrun x with ⟨phase', hm, _⟩
      cases tellCall_of_monitor job.id (.announced st) a' o x ha' with
      | record ctx =>
          cases phase with
          | waiting =>
              simp only [runMonitor] at hm
              split at hm
              · next hmark =>
                  rw [hmark.2] at hst
                  cases hst
              · cases hm
          | marked => cases hm
          | running => exact hphase rfl
          | closed => cases hm

/-! ### Steps -/

section Steps

variable (c : Controller S) (api : Api.Server S D Digest) (s s' : Sys S) (written : Bytes → Prop)

/-- Whoever is consuming a job is its consumer. -/
theorem consuming_eq (t : Threads S) (job : Job) (p : Proc S (Except Bytes Unit))
    (ht : s.threads = some t) (hc : t.consumer = some (job, p)) : s.consuming = some job.id := by
  rw [Sys.consuming, ht, Option.bind_some, hc, Option.map_some]

/-- When a consumer stops, its job is settled. -/
theorem settled_of_told (t : Threads S) (job : Job) (p : Proc S (Except Bytes Unit))
    (h : Narrated s written) (ht : s.threads = some t) (hc : t.consumer = some (job, p)) :
    Settled s (written job.id) job.id := by
  rcases h.telling t job p ht hc with ⟨a, hobeys, htells⟩
  cases a with
  | unbegun => exact settled_of_silent s _ job.id htells.2
  | silent => exact settled_of_silent s _ job.id htells.2.2
  | announced st =>
      -- The status was not written, so the row is where the consumer left it.
      have hactive := active_of_announced s h.kept t job p ht hc st htells.2.2.1 hobeys
      exact fun _ _ => ⟨fun htook => absurd htook htells.2.1, fun _ => Or.inl hactive⟩
  | closed => exact htells.2

/-- All jobs are settled once nobody is running any. -/
theorem all_settled (h : Narrated s written) (id : Bytes) : Settled s (written id) id := by
  by_cases hid : s.consuming = some id
  · cases ht : s.threads with
    | none =>
        rw [Sys.consuming, ht] at hid
        cases hid
    | some t =>
        cases hc : t.consumer with
        | none =>
            rw [Sys.consuming, ht, Option.bind_some, hc] at hid
            cases hid
        | some running =>
            rcases running with ⟨job, p⟩
            rw [consuming_eq s t job p ht hc, Option.some.injEq] at hid
            subst hid
            exact settled_of_told s written t job p h ht hc
  · exact h.settled id hid

/-- Steps that do not touch the store and begin no job. -/
theorem narrated_still (h : Narrated s written) (hkept : s'.Kept)
    (hstore : s'.shared.store = s.shared.store) (hbegun : s'.begun = s.begun)
    (hmuted : ∀ t, s'.threads = some t → t.Muted)
    (hconsumer : ∀ t' job p, s'.threads = some t' → t'.consumer = some (job, p) →
      ∃ t, s.threads = some t ∧ t.consumer = some (job, p)) :
    Narrated s' (fun id => written id ∨ Finishes s s' id) := by
  -- The step leaves the store alone, so what is said of a job stays what it was.
  have hstatus : ∀ id st, s.status id = some st → s'.status id = some st := by
    intro id st hst
    rw [Sys.status, hstore]
    exact hst
  have hsaid : ∀ id st, Says s'.shared.store id st → Says s.shared.store id st := by
    intro id st hst
    rw [← hstore]
    exact hst
  refine narrated_of_calm s s' written ⟨hkept, ?_, ?_, hmuted, ?_⟩ (calm_of_kept s s' hstatus)
  · intro id hid
    rw [hbegun]
    exact h.begun id (hid.imp_right (Exists.imp (hsaid id)))
  · intro id _
    exact settled_frame s s' _ id (hsaid id) (fun st hst => Or.inl (hstatus id st hst))
      (all_settled s written h id)
  · intro t' job p ht' hc'
    rcases hconsumer t' job p ht' hc' with ⟨t, ht, hc⟩
    rcases h.telling t job p ht hc with ⟨a, hobeys, htells⟩
    exact ⟨a, hobeys, tells_frame s s' _ job.id a hbegun (hsaid job.id) (hstatus job.id) htells⟩

/-- A mute call of another thread than the consumer. -/
theorem narrated_aside (h : Narrated s written) (hkept : s'.Kept) (o : Op S) (x : Ans o)
    (hmute : o.mute = true) (hsem : SharedSem s.shared o x s'.shared)
    (hbegun : s'.begun = s.begun) (hmuted : ∀ t, s'.threads = some t → t.Muted)
    (hupdate : ∀ ctx id st, o ≠ .store ctx (.updateJobStatus id st))
    (hrecover : (∃ ctx, o = .store ctx .failOrphanedJobs) → s.consuming = none)
    (hconsumer : ∀ t' job p, s'.threads = some t' → t'.consumer = some (job, p) →
      ∃ t, s.threads = some t ∧ t.consumer = some (job, p)) :
    Narrated s' (fun id => written id ∨ Finishes s s' id) := by
  have hsaid : ∀ id st, Says s'.shared.store id st → Says s.shared.store id st :=
    fun id st => (says_of_mute s.shared s'.shared o x hmute hsem id st).mp
  have hfree : ∀ t' job p, s'.threads = some t' → t'.consumer = some (job, p) →
      ∀ ctx, o ≠ .store ctx .failOrphanedJobs := by
    rintro t' job p ht' hc' ctx rfl
    rcases hconsumer t' job p ht' hc' with ⟨t, ht, hc⟩
    have hnone := hrecover ⟨ctx, rfl⟩
    rw [consuming_eq s t job p ht hc] at hnone
    cases hnone
  -- A row stays in its status unless the recovery fails it.
  have hstatus : ∀ id st, s.status id = some st →
      s'.status id = some st ∨ st = .inProgress ∧ s'.status id = some .failed := by
    intro id st hst
    by_cases hrec : ∀ ctx, o ≠ .store ctx .failOrphanedJobs
    · exact Or.inl (status_kept s.shared s'.shared o x hsem hupdate hrec id st hst)
    · push Not at hrec
      rcases hrec with ⟨ctx, rfl⟩
      rcases status_recovered _ _ _ hsem.1 with ⟨_, heq⟩ | heq
      · rw [Sys.status, heq]
        change (s.status id).map failActive = _ ∨ _ ∧ (s.status id).map failActive = _
        rw [hst]
        cases st with
        | inProgress => exact Or.inr ⟨rfl, rfl⟩
        | _ => exact Or.inl rfl
      · rw [Sys.status, heq]
        exact Or.inl hst
  have hcalm : ∀ id, ¬ Finishes s s' id := by
    rintro id ⟨hid, hactive, st, hst, hdone⟩
    rcases hstatus id _ hactive with hsame | ⟨_, hfailed⟩
    · rw [hsame] at hdone
      cases hdone
      cases hst
    · -- The recovery runs while nobody runs a job.
      by_cases hrec : ∀ ctx, o ≠ .store ctx .failOrphanedJobs
      · have hsame := status_kept s.shared s'.shared o x hsem hupdate hrec id _ hactive
        exact absurd (hfailed.symm.trans hsame) (by decide)
      · push Not at hrec
        rw [hrecover hrec] at hid
        cases hid
  refine narrated_of_calm s s' written ⟨hkept, ?_, ?_, hmuted, ?_⟩ hcalm
  · intro id hid
    rw [hbegun]
    exact h.begun id (hid.imp_right (Exists.imp (hsaid id)))
  · intro id _
    exact settled_frame s s' _ id (hsaid id) (hstatus id) (all_settled s written h id)
  · intro t' job p ht' hc'
    rcases hconsumer t' job p ht' hc' with ⟨t, ht, hc⟩
    rcases h.telling t job p ht hc with ⟨a, hobeys, htells⟩
    refine ⟨a, hobeys, tells_frame s s' _ job.id a hbegun (hsaid job.id) (fun st hst => ?_) htells⟩
    exact status_kept s.shared s'.shared o x hsem hupdate (hfree t' job p ht' hc') job.id st hst

/-- A call of the consumer leaves the other rows alone. -/
theorem others_kept (t : Threads S) (job : Job) (o : Op S) (k : Ans o → Proc S (Except Bytes Unit))
    (x : Ans o) (w : Shared) (h : Narrated s written) (ht : s.threads = some t)
    (hc : t.consumer = some (job, .call o k)) (hsem : SharedSem s.shared o x w) (id : Bytes)
    (hid : id ≠ job.id) (st : JobStatus) (hst : s.status id = some st) :
    w.store.status id = some st := by
  rcases running_of_kept s h.kept t job _ ht hc with ⟨_, phase, hrun, _⟩
  rcases hrun x with ⟨phase', hm, _⟩
  have hrecover : ∀ ctx, o ≠ .store ctx .failOrphanedJobs := by
    rintro ctx rfl
    cases phase <;> cases hm
  by_cases hupdate : ∀ ctx i st, o ≠ .store ctx (.updateJobStatus i st)
  · exact status_kept s.shared w o x hsem hupdate hrecover id st hst
  · push Not at hupdate
    rcases hupdate with ⟨ctx, i, st', rfl⟩
    have hi := runMonitor_update job.id i phase phase' ctx st' x hm
    subst hi
    rcases status_updated _ _ _ _ _ hsem.1 with heq | ⟨_, heq⟩
    · rw [heq, Function.update_of_ne hid]
      exact hst
    · rw [heq]
      exact hst

/-- A mute call of the consumer does not finish its job. -/
theorem calm_of_mute (t : Threads S) (job : Job) (o : Op S) (k : Ans o → Proc S (Except Bytes Unit))
    (x : Ans o) (h : Narrated s written) (ht : s.threads = some t)
    (hc : t.consumer = some (job, .call o k)) (hmute : o.mute = true)
    (hsem : SharedSem s.shared o x s'.shared) (id : Bytes) : ¬ Finishes s s' id := by
  rintro ⟨hid, hactive, st, hst, hdone⟩
  rw [consuming_eq s t job _ ht hc, Option.some.injEq] at hid
  subst hid
  rcases running_of_kept s h.kept t job _ ht hc with ⟨_, phase, hrun, _⟩
  rcases hrun x with ⟨phase', hm, _⟩
  have hrecover : ∀ ctx, o ≠ .store ctx .failOrphanedJobs := by
    rintro ctx rfl
    cases phase <;> cases hm
  -- Only two operations change a status. One is not the runner's, and the other writes a final
  -- status, which is not mute.
  by_cases hupdate : ∀ ctx i st, o ≠ .store ctx (.updateJobStatus i st)
  · have hsame := status_kept s.shared s'.shared o x hsem hupdate hrecover job.id _ hactive
    rw [show s'.status job.id = _ from hsame, Option.some.injEq] at hdone
    subst hdone
    cases hst
  · push Not at hupdate
    rcases hupdate with ⟨ctx, i, st', rfl⟩
    have hi := runMonitor_update job.id i phase phase' ctx st' x hm
    subst hi
    have hnot : st'.terminal = false := by simpa only [Op.mute, Bool.not_eq_true'] using hmute
    rcases status_updated _ _ _ _ _ hsem.1 with heq | ⟨_, heq⟩
    · rw [Sys.status, heq, Function.update_self, Option.some.injEq] at hdone
      subst hdone
      rw [hnot] at hst
      cases hst
    · rw [Sys.status, heq, show s.shared.store.status job.id = _ from hactive,
        Option.some.injEq] at hdone
      subst hdone
      cases hst

/-- What a call of the consumer adds: nothing is said of other jobs, and this much
    is told of its own, whose pipeline began if anything was. -/
structure Adds (took : Prop) (id : Bytes) (a : Told) : Prop where
  others : ∀ id', id' ≠ id → ∀ st, Says s'.shared.store id' st → Says s.shared.store id' st
  own : Tells s' (took ∨ Finishes s s' id) id a
  begun : (Finishes s s' id ∨ ∃ st, Says s'.shared.store id st) → id ∈ s'.begun

section Adds

variable (took : Prop) (id : Bytes)

/-- A mute call before the pipeline begins. -/
theorem adds_unbegun (hsaid : ∀ id st, Says s'.shared.store id st → Says s.shared.store id st)
    (hcalm : ¬ Finishes s s' id) (h : Tells s took id .unbegun) : Adds s s' took id .unbegun where
  others := fun id' _ => hsaid id'
  own := ⟨fun hw => hw.elim h.1 hcalm, fun st hst => h.2 st (hsaid id st hst)⟩
  begun := by
    rintro (hfin | ⟨st, hst⟩)
    · exact absurd hfin hcalm
    · exact absurd (hsaid id st hst) (h.2 st)

/-- A mute call that begins the pipeline, or comes after. -/
theorem adds_silent (hsaid : ∀ id st, Says s'.shared.store id st → Says s.shared.store id st)
    (hcalm : ¬ Finishes s s' id) (hin : id ∈ s'.begun) (hnot : ¬ took)
    (hsilent : ∀ st, ¬ Says s.shared.store id st) : Adds s s' took id .silent where
  others := fun id' _ => hsaid id'
  own := ⟨hin, fun hw => hw.elim hnot hcalm, fun st hst => hsilent st (hsaid id st hst)⟩
  begun := fun _ => hin

/-- The only event that a publication adds is the one that is published. -/
theorem says_published (ctx : Ctx) (e : Event)
    (hsem : SharedSem s.shared (.publish ctx e : Op S) () s'.shared) (id' : Bytes) (st : JobStatus)
    (h : Says s'.shared.store id' st) :
    Says s.shared.store id' st ∨ e.jobID = id' ∧ e.type.outcome = some st := by
  rcases h with ⟨e', he', hid', hst'⟩
  rcases hsem.1 with heq | heq
  · rw [heq] at he'
    exact Or.inl ⟨e', he', hid', hst'⟩
  · rw [heq] at he'
    rcases List.mem_append.mp he' with hold | hlast
    · exact Or.inl ⟨e', hold, hid', hst'⟩
    · rw [List.mem_singleton.mp hlast] at hid' hst'
      exact Or.inr ⟨hid', hst'⟩

/-- How the job ended is announced. -/
theorem adds_announced (ctx : Ctx) (e : Event) (st : JobStatus) (hid : e.jobID = id)
    (hst : e.type.outcome = some st)
    (hsem : SharedSem s.shared (.publish ctx e : Op S) () s'.shared)
    (hin : id ∈ s'.begun) (hnot : ¬ took) (hsilent : ∀ st, ¬ Says s.shared.store id st) :
    Adds s s' took id (.announced st) := by
  have hnew := says_published s s' ctx e hsem
  have hcalm : ¬ Finishes s s' id := calm_of_kept s s' (status_kept s.shared s'.shared
    (.publish ctx e) () hsem (fun _ _ _ h => by cases h) (fun _ h => by cases h)) id
  refine ⟨fun id' hne st' hst' => ?_, ⟨hin, fun hw => hw.elim hnot hcalm, ?_, fun st' hst' => ?_⟩,
    fun _ => hin⟩
  · rcases hnew id' st' hst' with hold | ⟨heq, _⟩
    · exact hold
    · exact absurd (heq.symm.trans hid) hne
  · cases htype : e.type <;> rw [htype] at hst <;> cases hst <;> rfl
  · rcases hnew id st' hst' with hold | ⟨_, heq⟩
    · exact absurd hold (hsilent st')
    · exact Option.some.inj (heq.symm.trans hst)

/-- The status that was announced is written, whether the write takes effect or
    not. -/
theorem adds_closed (ctx : Ctx) (st : JobStatus) (x : Except Bytes Unit)
    (hsem : SharedSem s.shared (.store ctx (.updateJobStatus id st) : Op S) x s'.shared)
    (hconsuming : s.consuming = some id) (hactive : s.status id = some .inProgress)
    (hin : id ∈ s'.begun) (hnot : ¬ took) (hterm : st.terminal = true)
    (hannounced : ∀ st', Says s.shared.store id st' → st' = st) : Adds s s' took id .closed := by
  have hsaid : ∀ id' st', Says s'.shared.store id' st' → Says s.shared.store id' st' := by
    intro id' st' hst'
    rw [Says, events_of_storeSem _ _ _ _ hsem.1] at hst'
    exact hst'
  refine ⟨fun id' _ => hsaid id', ⟨hin, fun st' hst' => ?_⟩, fun _ => hin⟩
  have heq := hannounced st' (hsaid id st' hst')
  subst heq
  rcases status_updated _ _ _ _ _ hsem.1 with hwritten | ⟨_, hlost⟩
  · have hdone : s'.status id = some st' := by
      rw [Sys.status, hwritten, Function.update_self]
    exact ⟨fun _ => hdone, fun hno => absurd (Or.inr ⟨hconsuming, hactive, st', hterm, hdone⟩) hno⟩
  · have hsame : s'.status id = some .inProgress := by
      rw [Sys.status, hlost]
      exact hactive
    refine ⟨?_, fun _ => Or.inl hsame⟩
    rintro (hw | ⟨_, _, st'', hterm', hdone⟩)
    · exact absurd hw hnot
    · rw [hsame, Option.some.injEq] at hdone
      subst hdone
      cases hterm'

end Adds

/-- It is enough to know what the call adds. -/
theorem narrated_of_adds (t : Threads S) (job : Job) (o : Op S)
    (k : Ans o → Proc S (Except Bytes Unit)) (x : Ans o) (h : Narrated s written)
    (ht : s.threads = some t) (hc : t.consumer = some (job, .call o k))
    (hsem : SharedSem s.shared o x s'.shared)
    (hthreads : s'.threads = some { t with consumer := some (job, k x) })
    (hbegun : s.begun ⊆ s'.begun) (hkept : s'.Kept) (a : Told)
    (hobeys : Obeys (tellMonitor job.id) a (k x) Ended)
    (hadds : Adds s s' (written job.id) job.id a) :
    Narrated s' (fun id => written id ∨ Finishes s s' id) := by
  have hself := consuming_eq s t job _ ht hc
  have hother : ∀ id, id ≠ job.id → ¬ Finishes s s' id := by
    rintro id hid ⟨hconsuming, _⟩
    rw [hself, Option.some.injEq] at hconsuming
    exact hid hconsuming.symm
  refine ⟨hkept, ?_, ?_, ?_, ?_⟩
  · rintro id ((hw | hfin) | hsaid)
    · exact hbegun (h.begun id (Or.inl hw))
    · by_cases hid : id = job.id
      · subst hid
        exact hadds.begun (Or.inl hfin)
      · exact absurd hfin (hother id hid)
    · by_cases hid : id = job.id
      · subst hid
        exact hadds.begun (Or.inr hsaid)
      · exact hbegun (h.begun id (Or.inr (hsaid.imp (hadds.others id hid))))
  · intro id hid
    have hne : id ≠ job.id := by
      rintro rfl
      exact hid (consuming_eq s' _ job (k x) hthreads rfl)
    rw [or_iff_left (hother id hne)]
    have hstatus := others_kept s written t job o k x s'.shared h ht hc hsem id hne
    exact settled_frame s s' (written id) id (hadds.others id hne)
      (fun st hst => Or.inl (hstatus st hst)) (all_settled s written h id)
  · intro t' ht'
    rw [hthreads, Option.some.injEq] at ht'
    subst ht'
    exact h.muted t ht
  · intro t' job' p ht' hc'
    rw [hthreads, Option.some.injEq] at ht'
    subst ht'
    cases hc'
    exact ⟨a, hobeys, hadds.own⟩

/-- What a call of the consumer keeps, by what it says of its own job. -/
theorem narrated_consumer (t : Threads S) (job : Job) (o : Op S)
    (k : Ans o → Proc S (Except Bytes Unit)) (x : Ans o) (w : Shared) (h : Narrated s written)
    (ht : s.threads = some t) (hc : t.consumer = some (job, .call o k))
    (hsem : SharedSem s.shared o x w)
    (hs' : s' = ⟨w, some { t with consumer := some (job, k x) },
      if o.beginsPipeline then s.begun ++ [job.id] else s.begun⟩) (hkept : s'.Kept) :
    Narrated s' (fun id => written id ∨ Finishes s s' id) := by
  have hstore : SharedSem s.shared o x s'.shared := by
    rw [hs']
    exact hsem
  have hbegun : s.begun ⊆ s'.begun := by
    rw [hs']
    simp only
    split
    · exact List.subset_append_left _ _
    · exact List.Subset.refl _
  rcases h.telling t job _ ht hc with ⟨a, hobeys, htells⟩
  rcases hobeys x with ⟨a', hm, hobeys'⟩
  refine narrated_of_adds s s' written t job o k x h ht hc hstore (by rw [hs']) hbegun hkept a'
    hobeys' ?_
  have hquiet : o.mute = true →
      (∀ id st, Says s'.shared.store id st → Says s.shared.store id st) ∧
        ¬ Finishes s s' job.id := fun hmute =>
    ⟨fun id st => (says_of_mute s.shared s'.shared o x hmute hstore id st).mp,
      calm_of_mute s s' written t job o k x h ht hc hmute hstore job.id⟩
  cases tellCall_of_monitor job.id a a' o x hm with
  | prepare _ hmute =>
      rcases hquiet hmute with ⟨hsaid, hcalm⟩
      exact adds_unbegun s s' _ job.id hsaid hcalm htells
  | begin _ hmute hbegin =>
      rcases hquiet hmute with ⟨hsaid, hcalm⟩
      have hin : job.id ∈ s'.begun := by
        rw [hs']
        simp only [hbegin, if_true]
        exact List.mem_append_right _ List.mem_cons_self
      exact adds_silent s s' _ job.id hsaid hcalm hin htells.1 htells.2
  | work _ hmute =>
      rcases hquiet hmute with ⟨hsaid, hcalm⟩
      exact adds_silent s s' _ job.id hsaid hcalm (hbegun htells.1) htells.2.1 htells.2.2
  | announce ctx e st hid hst =>
      exact adds_announced s s' _ job.id ctx e st hid hst hstore (hbegun htells.1) htells.2.1
        htells.2.2
  | record ctx st =>
      have hactive := active_of_announced s h.kept t job _ ht hc st htells.2.2.1 hobeys
      exact adds_closed s s' _ job.id ctx st _ hstore (consuming_eq s t job _ ht hc) hactive
        (hbegun htells.1) htells.2.1 htells.2.2.1 htells.2.2.2

end Steps

/-- A step keeps the invariant. -/
theorem narrated_step (c : Controller S) (api : Api.Server S D Digest) (s s' : Sys S)
    (written : Bytes → Prop) (hs : Step c api s s') (h : Narrated s written) :
    Narrated s' (fun id => written id ∨ Finishes s s' id) := by
  have hkept : s'.Kept := (kept_step c api s s' hs h.kept).1
  cases hs with
  | boot hnone =>
      refine narrated_still s _ written h hkept rfl rfl ?_ ?_
      · rintro t ⟨⟩
        refine ⟨?_, fun p hp => absurd hp List.not_mem_nil⟩
        rintro p ⟨⟩
        exact startup_mute
      · rintro t job p ⟨⟩ hc
        cases hc
  | bootCall t o k x w ht hboot hw =>
      rcases bootCall_of_kept s h.kept t o k ht hboot with ⟨hidle, hupdate⟩
      have hmute := (h.muted t ht).1 _ hboot
      refine narrated_aside s _ written h hkept o x hmute.1 hw rfl ?_ hupdate ?_ ?_
      · rintro t' ⟨⟩
        refine ⟨?_, (h.muted t ht).2⟩
        rintro p ⟨⟩
        exact hmute.2 x
      · intro _
        rw [Sys.consuming, ht, Option.bind_some, hidle, Option.map_none]
      · rintro t' job p ⟨⟩ hc
        exact ⟨t, ht, hc⟩
  | ready t ht hboot =>
      refine narrated_still s _ written h hkept rfl rfl ?_ ?_
      · rintro t' ⟨⟩
        exact ⟨fun p hp => (by cases hp), (h.muted t ht).2⟩
      · rintro t' job p ⟨⟩ hc
        exact ⟨t, ht, hc⟩
  | produce t p ht hready hp =>
      refine narrated_still s _ written h hkept rfl rfl ?_ ?_
      · rintro t' ⟨⟩
        refine ⟨(h.muted t ht).1, fun q hq => ?_⟩
        rcases List.mem_cons.mp hq with rfl | hq
        · exact producer_mute api q hp
        · exact (h.muted t ht).2 q hq
      · rintro t' job p' ⟨⟩ hc
        exact ⟨t, ht, hc⟩
  | producerCall t before after o k x w ht hproducers hw =>
      rcases producerCall_of_kept s h.kept t before after o k ht hproducers with
        ⟨hupdate, hrecover⟩
      have hmuted := (h.muted t ht).2
      rw [hproducers] at hmuted
      have hmute := hmuted _ (List.mem_append_right _ List.mem_cons_self)
      refine narrated_aside s _ written h hkept o x hmute.1 hw rfl ?_ hupdate ?_ ?_
      · rintro t' ⟨⟩
        refine ⟨(h.muted t ht).1, fun p hp => ?_⟩
        rcases List.mem_append.mp hp with hp | hp
        · exact hmuted p (List.mem_append_left _ hp)
        · rcases List.mem_cons.mp hp with rfl | hp
          · exact hmute.2 x
          · exact hmuted p (List.mem_append_right _ (List.mem_cons_of_mem _ hp))
      · rintro ⟨ctx, heq⟩
        exact absurd heq (hrecover ctx)
      · rintro t' job p ⟨⟩ hc
        exact ⟨t, ht, hc⟩
  | dequeue t job q ht hready hidle hq =>
      -- The job is queued, so its pipeline was never begun.
      have hqueued := queued_of_kept s h.kept job
        (by rw [Memory.dequeue?_jobs _ _ _ hq]; exact List.mem_cons_self)
      have hnew : ¬ (written job.id ∨ ∃ st, Says s.shared.store job.id st) := fun hold =>
        begun_of_kept s h.kept job.id (h.begun job.id hold) hqueued
      refine narrated_of_calm s _ written ⟨hkept, h.begun, ?_, ?_, ?_⟩
        (calm_of_kept s _ fun _ _ hst => hst)
      · exact fun id _ => all_settled s written h id
      · rintro t' ⟨⟩
        exact h.muted t ht
      · rintro t' job' p ⟨⟩ ⟨⟩
        exact ⟨.unbegun, c.runJob_tells job, fun hw => hnew (Or.inl hw),
          fun st hst => hnew (Or.inr ⟨st, hst⟩)⟩
  | consumerCall t job o k x w ht hconsumer hw =>
      exact narrated_consumer s _ written t job o k x w h ht hconsumer hw rfl hkept
  | consumerDone t job r ht hconsumer =>
      refine narrated_still s _ written h hkept rfl rfl ?_ ?_
      · rintro t' ⟨⟩
        exact h.muted t ht
      · rintro t' job' p ⟨⟩ hc
        cases hc
  | crash =>
      refine narrated_still s _ written h hkept rfl rfl ?_ ?_
      · rintro t ⟨⟩
      · rintro t job p ⟨⟩

/-- Every run from a store without events keeps the invariant. -/
theorem narrated_run (c : Controller S) (api : Api.Server S D Digest) (store : Store)
    (hstore : store.events = []) (s : Sys S) (written : Bytes → Prop)
    (h : Run c api store s written) : Narrated s written := by
  induction h with
  | start =>
      have hnone : ∀ id st, ¬ Says (Sys.initial store : Sys S).shared.store id st := by
        rintro id st ⟨e, he, _⟩
        rw [show (Sys.initial store : Sys S).shared.store.events = [] from hstore] at he
        cases he
      refine ⟨kept_initial store, ?_, ?_, ?_, ?_⟩
      · rintro id (hw | ⟨st, hst⟩)
        · exact False.elim hw
        · exact absurd hst (hnone id st)
      · exact fun id _ => settled_of_silent _ _ id (hnone id)
      · rintro t ⟨⟩
      · rintro t job p ⟨⟩
  | step s s' written _ hs ih => exact narrated_step c api s s' written hs ih

/-- In every state in which no job is running, of every run with any failures
    and any crashes: a job of which a terminal event is persisted has the status
    the event says, if the write of its final status took effect. If it did not,
    the job is in progress, or the recovery has failed it. -/
theorem events_agree (c : Controller S) (api : Api.Server S D Digest) (store : Store)
    (hstore : store.events = []) (s : Sys S) (written : Bytes → Prop)
    (h : Run c api store s written) (hidle : s.consuming = none) (id : Bytes) (st : JobStatus)
    (hsaid : Says s.shared.store id st) :
    (written id → s.status id = some st) ∧
      (¬ written id → s.status id = some .inProgress ∨ s.status id = some .failed) := by
  have hinv := narrated_run c api store hstore s written h
  refine hinv.settled id ?_ st hsaid
  rw [hidle]
  exact (Option.some_ne_none id).symm

/-! ### One run -/

/-- Every reachable state is reached by a run. -/
theorem run_of_reachable (c : Controller S) (api : Api.Server S D Digest) (store : Store)
    (s : Sys S) (h : ReflTransGen (Step c api) (Sys.initial store) s) :
    ∃ written, Run c api store s written := by
  induction h with
  | refl => exact ⟨_, Run.start⟩
  | tail _ hs ih =>
      rcases ih with ⟨written, hrun⟩
      exact ⟨_, Run.step _ _ written hrun hs⟩

/-- The consumer runs what is left of its program, when nothing else happens. -/
theorem consumer_run (c : Controller S) (api : Api.Server S D Digest) (job : Job)
    (tr : Trace (Op S) Ans) (w w' : Shared) (hs : Steps SharedSem w tr w') :
    ∀ (s : Sys S) (t : Threads S) (p : Proc S (Except Bytes Unit)) (r : Except Bytes Unit),
      Runs p tr r → s.shared = w → s.threads = some t → t.consumer = some (job, p) →
      ∃ s', ReflTransGen (Step c api) s s' ∧ s'.shared = w' ∧
        s'.threads = some { t with consumer := some (job, .ret r) } := by
  intro s t p r hr hshared ht hconsumer
  refine reaches_of_runs SharedSem (Step c api)
    (fun w p s => s.shared = w ∧ s.threads = some { t with consumer := some (job, p) }) ?_ p tr r hr
    w w' hs s ⟨hshared, ?_⟩
  · rintro s _ o k x u ⟨rfl, ht⟩ hstep
    exact ⟨_, Step.consumerCall s _ job o k x u ht rfl hstep, rfl, rfl⟩
  · rw [ht, ← hconsumer]

/-- A world in which the write of a job's final status fails. -/
def unwritten : (o : Op Unit) → Shared → Ans o × Shared
  | .store .record (.updateJobStatus _ _), w => (.error "database is locked", w)
  | .applyRetention _ _ _ _, w => (.ok (), w)
  | o, w => Shared.answer idlePlugin 9 o w

/-- Such a failure is allowed. -/
theorem sharedSem_unwritten (o : Op Unit) (w : Shared) :
    SharedSem w o (unwritten o w).1 (unwritten o w).2 := by
  cases o with
  | store ctx o =>
      cases ctx with
      | record =>
          cases o with
          | updateJobStatus => exact ⟨Or.inl rfl, rfl⟩
          | _ => exact sharedSem_answer idlePlugin 9 _ w
      | _ => exact sharedSem_answer idlePlugin 9 _ w
  | applyRetention => exact rfl
  | _ => exact sharedSem_answer idlePlugin 9 _ w

/-- What such a run leaves behind. -/
def unwrittenShared : Shared :=
  (exec unwritten (filesController.runJob filesJob) filesTaken.shared).2

/-- A job whose final status could not be written is left in progress, and an
    event says that it is completed. -/
theorem reaches_unwritten : ∃ s : Sys Unit,
    ReflTransGen (Step filesController Api.filesApi) (Sys.initial leftQueued) s ∧
      s.consuming = none ∧ s.shared = unwrittenShared := by
  rcases steps_exec SharedSem unwritten sharedSem_unwritten (filesController.runJob filesJob)
    filesTaken.shared with ⟨tr, hr, hs⟩
  rcases consumer_run filesController Api.filesApi filesJob tr _ _ hs filesTaken _ _ _ hr rfl rfl
    rfl with ⟨s, hrun, hshared, ht⟩
  exact ⟨_, (reaches_filesTaken.trans hrun).tail (Step.consumerDone s _ filesJob _ ht rfl), rfl,
    hshared⟩

/-- The event of that run. -/
theorem says_unwritten : Says unwrittenShared.store filesJob.id .completed := by
  refine ⟨{ Controller.completionEvent filesJob (.ok ()) with timestamp := 9 }, ?_, rfl, rfl⟩
  decide +kernel

/-- The row of that run. -/
theorem status_unwritten : unwrittenShared.store.status filesJob.id = some .inProgress := by
  decide +kernel

/-- Such a run, and what holds at its end. -/
theorem events_agree_unwritten : ∃ (s : Sys Unit) (written : Bytes → Prop),
    Run filesController Api.filesApi leftQueued s written ∧ s.consuming = none ∧
      Says s.shared.store filesJob.id .completed ∧
      (written filesJob.id → s.status filesJob.id = some .completed) ∧
      (¬ written filesJob.id → s.status filesJob.id = some .inProgress ∨
        s.status filesJob.id = some .failed) := by
  rcases reaches_unwritten with ⟨s, hreach, hidle, hshared⟩
  rcases run_of_reachable filesController Api.filesApi leftQueued s hreach with ⟨written, hrun⟩
  have hsaid : Says s.shared.store filesJob.id .completed := hshared ▸ says_unwritten
  exact ⟨s, written, hrun, hidle, hsaid,
    events_agree filesController Api.filesApi leftQueued rfl s written hrun hidle _ _ hsaid⟩

/-- So an idle process may have an event that its row does not bear out. -/
theorem not_events_agree : ¬ ∀ s : Sys Unit,
    ReflTransGen (Step filesController Api.filesApi) (Sys.initial leftQueued) s →
      s.consuming = none → ∀ id,
      (Says s.shared.store id .completed → s.status id = some .completed) ∧
        (Says s.shared.store id .failed → s.status id = some .failed) := by
  intro hall
  rcases reaches_unwritten with ⟨s, hreach, hidle, hshared⟩
  have hdone := (hall s hreach hidle filesJob.id).1 (hshared ▸ says_unwritten)
  rw [Sys.status, hshared, status_unwritten] at hdone
  cases hdone

end Bop
