import Bop.Controller.EventTrace
import Bop.Daemon
import Bop.Effect.Credit
import Bop.Web.Client

/-!
# The Seal of a Job

The page of a job shows a seal, derived from the newest two hundred events the API
lists for the job. It says how far the backup was verified, or that it failed.

What a seal says has happened: the controller announces a step only after whoever
makes it has confirmed it, so a seal is warranted at any moment of the run, whatever
events were lost or are not on the page. Once the run is over and nothing was lost,
the seal says how the job ended, and events that are too old for the page make no
difference.

## Main definitions

* `SealTier`, `sealTierForEvents`: What a seal says.
* `timeline`: The events a run announces, with their times.
* `Warranted`: What a seal says has happened.
* `Ends`, `Discovered`: How a job ended and what was found for it.

## Theorems

* `runJob_credited`: Nothing is announced that was not confirmed.
* `timeline_completed`: How the events of a completed job end.
* `newest_first`: What a page shows of events in order.
* `seal_truthful`: What a seal says is so.
-/

namespace Bop

open Prog Controller

namespace Web

variable {S D : Type}

/-! ### Seals -/

/-- What a seal says. -/
inductive SealTier
  | none | structural | storage | restored | failed
  deriving DecidableEq

/-- `sealTierForEvents`. -/
def sealTierForEvents (events : List Event) : SealTier :=
  let types := events.map fun e => e.type.text
  if ("BackupFailed" : Bytes) ∈ types then .failed
  else if ("RestoreVerificationCompleted" : Bytes) ∈ types then .restored
  else if ("RepositoryVerificationCompleted" : Bytes) ∈ types then .storage
  else if ("ArtifactCreated" : Bytes) ∈ types then .structural
  else .none

/-- The types are told apart by what they are written as. -/
theorem text_inj (a b : EventType) (h : a.text = b.text) : a = b := by
  cases a <;> cases b <;> first | rfl | exact absurd h (by decide)

/-- What a seal looks for. -/
theorem mem_types (events : List Event) (t : EventType) :
    t.text ∈ events.map (fun e => e.type.text) ↔ ∃ e ∈ events, e.type = t := by
  rw [List.mem_map]
  constructor
  · rintro ⟨e, he, htext⟩
    exact ⟨e, he, text_inj _ _ htext⟩
  · rintro ⟨e, he, rfl⟩
    exact ⟨e, he, rfl⟩

/-- A seal, by the types there are. -/
theorem sealTierForEvents_eq (events : List Event) :
    sealTierForEvents events =
      if ∃ e ∈ events, e.type = .backupFailed then .failed
      else if ∃ e ∈ events, e.type = .restoreVerificationCompleted then .restored
      else if ∃ e ∈ events, e.type = .repositoryVerificationCompleted then .storage
      else if ∃ e ∈ events, e.type = .artifactCreated then .structural
      else .none := by
  simp only [← mem_types]
  rfl

/-! ### What a run announces -/

/-- The event of a call, as it was announced. -/
def announcement : Prog.Event (Op S) Ans → Option Event
  | ⟨.publish _ e, _⟩ => some e
  | _ => none

/-- The events a run announces. -/
def timeline (tr : Trace (Op S) Ans) : List Event := tr.filterMap announcement

/-- Apart from their times they are the events of the run. -/
theorem map_timeline (tr : Trace (Op S) Ans) :
    (timeline tr).map (fun e => { e with timestamp := 0 }) = eventsOf tr := by
  induction tr with
  | nil => rfl
  | cons e tr ih =>
      rcases e with ⟨o, x⟩
      have hsplit := eventsOf_append [(⟨o, x⟩ : Prog.Event (Op S) Ans)] tr
      rw [List.singleton_append] at hsplit
      rw [hsplit, ← ih]
      cases o with
      | verifySnapshot => cases x <;> rfl
      | restore => cases x <;> rfl
      | _ => rfl

/-- So their types are the same. -/
theorem mem_timeline_type (tr : Trace (Op S) Ans) (t : EventType) :
    (∃ e ∈ timeline tr, e.type = t) ↔ ∃ e ∈ eventsOf tr, e.type = t := by
  rw [← map_timeline]
  constructor
  · rintro ⟨e, he, ht⟩
    exact ⟨_, List.mem_map_of_mem he, ht⟩
  · rintro ⟨_, he, ht⟩
    rcases List.mem_map.mp he with ⟨e, hmem, rfl⟩
    exact ⟨e, hmem, ht⟩

/-! ### Nothing is announced that was not confirmed -/

/-- The seal an event is looked for by. -/
def claimedBy : EventType → Option SealTier
  | .artifactCreated => some .structural
  | .repositoryVerificationCompleted => some .storage
  | .restoreVerificationCompleted => some .restored
  | _ => none

/-- What a call announces. -/
def claims : Op S → Option SealTier
  | .publish _ e => claimedBy e.type
  | _ => none

/-- What an answer confirms. -/
def earns : (o : Op S) → Ans o → Option SealTier
  | .verify _ _ _, .ok _ => some .structural
  | .verifySnapshot _ _ _, .ok _ => some .storage
  | .restore _ _ _, .ok _ => some .restored
  | _, _ => none

/-- A step was confirmed. -/
def Confirmed (t : SealTier) (tr : Trace (Op S) Ans) : Prop := ∃ e ∈ tr, earns e.1 e.2 = some t

/-- Announcing something that is no step of a resource, or was confirmed. -/
theorem obeys_announce {α : Type} (ctx : Ctx) (e : Event) (k : Unit → Proc S α)
    (earned : List SealTier) (post : α → List SealTier → Prop)
    (hclaim : ∀ t, claimedBy e.type = some t → t ∈ earned)
    (h : ∀ earned', earned ⊆ earned' → Obeys (crediting earns claims) earned' (k ()) post) :
    Obeys (crediting earns claims) earned (publish ctx e >>= k) post := by
  refine obeys_crediting _ _ _ _ (fun _ hnone => by cases hnone) fun t => ?_
  refine obeys_crediting _ _ _ _ (fun c hc => ?_) fun _ => ?_
  · exact List.mem_append_left _ (hclaim c hc)
  · refine h _ fun c hc => ?_
    exact List.mem_append_left _ (List.mem_append_left _ hc)

/-- A call that announces nothing. -/
theorem obeys_silent (o : Op S) (earned : List SealTier) (ho : claims o = none) :
    Obeys (crediting earns claims) earned (call o) (fun x earned' =>
      earned ⊆ earned' ∧ ∀ t, earns o x = some t → t ∈ earned') := by
  refine obeys_mono _ _ _ _ _ (obeys_earning earned o fun c hc => ?_) ?_
  · rw [ho] at hc
    cases hc
  · rintro x _ rfl
    exact ⟨List.subset_append_left _ _, fun t ht =>
      List.mem_append_right _ (Option.mem_toList.mpr ht)⟩

/-- Removing an artifact announces nothing. -/
theorem cleanupArtifact_credited (a : Artifact) (earned : List SealTier) :
    Obeys (crediting earns claims) earned (cleanupArtifact a : Proc S Unit)
      (fun _ _ => True) := by
  unfold cleanupArtifact
  split
  · trivial
  · exact obeys_bind _ _ _ _ _ _ (obeys_silent _ earned rfl) fun _ _ _ => trivial

/-- A resource announces what was confirmed for it. -/
theorem backupResource_credited (ctx : Ctx) (job : Bop.Job) (p : Instance) (sp : S) (res : Resource)
    (v : Verification) (earned : List SealTier) :
    Obeys (crediting earns claims) earned (backupResource ctx job p sp res v)
      (fun _ _ => True) := by
  have hfree : ∀ (t : EventType) (q : List SealTier), claimedBy t = none →
      ∀ c, claimedBy t = some c → c ∈ q := by
    intro t q ht c hc
    rw [ht] at hc
    cases hc
  have hheld : ∀ (t : EventType) (c : SealTier) (q : List SealTier), claimedBy t = some c →
      c ∈ q → ∀ c', claimedBy t = some c' → c' ∈ q := by
    intro t c q ht hmem c' hc'
    rw [ht] at hc'
    cases hc'
    exact hmem
  refine obeys_check _ (call (.backup ctx p res)) _ _ _ _ _ (obeys_silent _ _ rfl)
    (fun produced q₀ _ => ?_) (fun _ _ _ => trivial)
  refine obeys_bind _ _ _ _ (fun _ _ => True) _ ?_ fun r q _ =>
    obeys_bind _ _ _ _ (fun _ _ => True) _ (cleanupArtifact_credited _ q) (fun _ _ _ => trivial)
  refine obeys_check _ (call (.verify ctx p _)) _ _ _ _ _ (obeys_silent _ _ rfl)
    (fun _ q₁ hq₁ => ?_) (fun _ _ _ => trivial)
  refine obeys_check _ (call (.checksumFile _)) _ _ _ _ _ (obeys_silent _ _ rfl)
    (fun checksum q₂ hq₂ => ?_) (fun _ _ _ => trivial)
  have hproduced : SealTier.structural ∈ q₂ := hq₂.1 (hq₁.2 _ rfl)
  refine obeys_announce _ _ _ _ _ (hheld _ _ _ rfl hproduced) fun q₃ _ => ?_
  refine obeys_announce _ _ _ _ _ (hfree _ _ rfl) fun q₄ _ => ?_
  refine obeys_check _ (call (.storeArtifact ctx sp _)) _ _ _ _ _ (obeys_silent _ _ rfl)
    (fun id q₅ _ => ?_) (fun _ _ _ => trivial)
  refine obeys_announce _ _ _ _ _ (hfree _ _ rfl) fun q₆ _ => ?_
  refine obeys_announce _ _ _ _ _ (hfree _ _ rfl) fun q₇ _ => ?_
  refine obeys_check _ (call (.verifySnapshot ctx sp id)) _ _ _ _ _ (obeys_silent _ _ rfl)
    (fun _ q₈ hq₈ => ?_) (fun _ _ _ => trivial)
  refine obeys_announce _ _ _ _ _ (hheld _ _ _ rfl (hq₈.2 _ rfl)) fun q₉ _ => ?_
  refine obeys_bind _ _ _ _ _ _ (obeys_silent .now q₉ rfl) fun createdAt q₁₀ _ => ?_
  refine obeys_check _ (store ctx (.recordSnapshot _)) _ _ _ _ _ (obeys_silent _ _ rfl)
    (fun _ q₁₁ _ => ?_) (fun _ _ _ => trivial)
  split
  · refine obeys_announce _ _ _ _ _ (hfree _ _ rfl) fun q₁₂ _ => ?_
    refine obeys_check _ (call (.restore ctx p _)) _ _ _ _ _ (obeys_silent _ _ rfl)
      (fun _ q₁₃ hq₁₃ => ?_) (fun _ _ _ => trivial)
    exact obeys_announce _ _ _ _ _ (hheld _ _ _ rfl (hq₁₃.2 _ rfl)) fun _ _ => trivial
  · trivial

/-- So do all of them. -/
theorem backupResources_credited (ctx : Ctx) (job : Bop.Job) (p : Instance) (sp : S)
    (v : Verification) (resources : List Resource) (earned : List SealTier) :
    Obeys (crediting earns claims) earned (backupResources ctx job p sp v resources)
      (fun _ _ => True) := by
  induction resources generalizing earned with
  | nil => trivial
  | cons res rest ih =>
      refine obeys_bind _ _ _ _ (fun _ _ => True) _
        (backupResource_credited ctx job p sp res v earned) fun r q _ => ?_
      refine obeys_bind _ _ _ _ (fun _ _ => True) _ (ih q) fun errs q' _ => ?_
      cases r <;> trivial

/-- Nothing is announced that was not confirmed. -/
theorem runJob_credited (c : Controller S) (job : Bop.Job) :
    Obeys (crediting earns claims) [] (c.runJob job) (fun _ _ => True) := by
  have hfree : ∀ (t : EventType) (q : List SealTier), claimedBy t = none →
      ∀ c, claimedBy t = some c → c ∈ q := by
    intro t q ht c hc
    rw [ht] at hc
    cases hc
  have hpipeline : ∀ ctx srv sp q, Obeys (crediting earns claims) q (c.runPipeline ctx job srv sp)
      (fun _ _ => True) := by
    intro ctx srv sp q
    refine obeys_check _ _ _ _ _ (fun _ _ => True) _ ?_ (fun cfg q₁ _ => ?_)
      (fun _ _ _ => trivial)
    · exact obeys_check _ (store ctx (.getPluginSettings job.host job.plugin)) _ _ _ _ _
        (obeys_silent _ _ rfl) (fun _ _ _ => trivial) (fun _ _ _ => trivial)
    refine obeys_check _ (call (.factory _)) _ _ _ _ _ (obeys_silent _ _ rfl)
      (fun _ q₂ _ => ?_) (fun _ _ _ => trivial)
    refine obeys_announce _ _ _ _ _ (hfree _ _ rfl) fun q₃ _ => ?_
    refine obeys_check _ (call (.discover ctx _)) _ _ _ _ _ (obeys_silent _ _ rfl)
      (fun resources q₄ _ => ?_) (fun _ _ _ => trivial)
    refine obeys_announce _ _ _ _ _ (hfree _ _ rfl) fun q₅ _ => ?_
    refine obeys_bind _ _ _ _ (fun _ _ => True) _
      (backupResources_credited ctx job _ sp _ resources q₅) fun errs q₆ _ => ?_
    refine obeys_bind _ _ _ _ _ _ (obeys_silent (.applyRetention ctx sp job.host job.policy) q₆ rfl)
      fun applied q₇ _ => ?_
    cases applied with
    | error err => trivial
    | ok u => exact obeys_announce _ _ _ _ _ (hfree _ _ rfl) fun _ _ => trivial
  unfold runJob
  cases c.inventory.servers.lookup job.host with
  | none => trivial
  | some srv =>
      dsimp only
      split
      · trivial
      · cases c.storageFor job.host with
        | error err => trivial
        | ok sp =>
            refine obeys_check _ (store .caller (.updateJobStatus job.id .inProgress)) _ _ _ _ _
              (obeys_silent _ _ rfl) (fun _ q₁ _ => ?_) (fun _ _ _ => trivial)
            refine obeys_announce _ _ _ _ _ (hfree _ _ rfl) fun q₂ _ => ?_
            refine obeys_bind _ _ _ _ (fun _ _ => True) _ (hpipeline _ srv sp q₂)
              fun result q₃ _ => ?_
            refine obeys_announce _ _ _ _ _ (hfree _ _ ?_) fun q₄ _ => ?_
            · cases result <;> rfl
            · exact obeys_bind _ _ _ _ _ _ (obeys_silent _ q₄ rfl) fun _ _ _ => trivial

/-! ### The ends of a run -/

/-- The run ends with a write of the job's final status, answered in some way. -/
def Ends (job : Bop.Job) (tr : Trace (Op S) Ans) (st : JobStatus) : Prop :=
  ∃ x, tr.getLast? = some ⟨.store .record (.updateJobStatus job.id st), x⟩

/-- These resources were found for the job. -/
def Discovered (tr : Trace (Op S) Ans) (resources : List Resource) : Prop :=
  ∃ ctx p, (⟨.discover ctx p, .ok resources⟩ : Prog.Event (Op S) Ans) ∈ tr

theorem timeline_append (tr₁ tr₂ : Trace (Op S) Ans) :
    timeline (tr₁ ++ tr₂) = timeline tr₁ ++ timeline tr₂ := List.filterMap_append

/-- The calls around the pipeline of a job that is started. -/
def preamble (job : Bop.Job) (t : Time) : Trace (Op S) Ans :=
  [⟨.store .caller (.updateJobStatus job.id .inProgress), .ok ()⟩, ⟨.now, t⟩,
    ⟨.publish .caller { jobEvent .backupStarted job [] [] with timestamp := t }, ()⟩]

/-- The calls after it. -/
def ending (job : Bop.Job) (result : Except Bytes Unit) (t : Time) (written : Except Bytes Unit) :
    Trace (Op S) Ans :=
  [⟨.now, t⟩, ⟨.publish .record { completionEvent job result with timestamp := t }, ()⟩,
    ⟨.store .record (.updateJobStatus job.id (finalStatus result)), written⟩]

/-- The last call is the final write. -/
theorem last_of_ending (job : Bop.Job) (result : Except Bytes Unit) (t : Time)
    (written : Except Bytes Unit) (tr : Trace (Op S) Ans) :
    (tr ++ ending job result t written).getLast? =
      some ⟨.store .record (.updateJobStatus job.id (finalStatus result)), written⟩ := by
  have hsplit : tr ++ ending job result t written = tr ++ [⟨.now, t⟩, ⟨.publish .record
      { completionEvent job result with timestamp := t }, ()⟩] ++
      [⟨.store .record (.updateJobStatus job.id (finalStatus result)), written⟩] := by
    rw [List.append_assoc]
    rfl
  rw [hsplit, List.getLast?_concat]

/-- A run announces nothing, or it is the run of a pipeline between its start and
    its end. -/
theorem runJob_parts (c : Controller S) (job : Bop.Job) (tr : Trace (Op S) Ans)
    (r : Except Bytes Unit) (hr : Runs (c.runJob job) tr r) :
    (timeline tr = [] ∧ ∀ st, ¬ Ends job tr st) ∨
      ∃ srv sp t t' pipeline result written, c.inventory.servers.lookup job.host = some srv ∧
        Runs (c.runPipeline c.pipelineCtx job srv sp) pipeline result ∧
        tr = preamble job t ++ pipeline ++ ending job result t' written := by
  have hnothing : timeline ([] : Trace (Op S) Ans) = [] ∧
      ∀ st, ¬ Ends job ([] : Trace (Op S) Ans) st :=
    ⟨rfl, fun st h => h.elim fun _ hlast => by cases hlast⟩
  unfold runJob at hr
  cases hsrv : c.inventory.servers.lookup job.host with
  | none =>
      rw [hsrv] at hr
      rcases (runs_ret_iff _ _ _).mp hr with ⟨rfl, _⟩
      exact Or.inl hnothing
  | some srv =>
      simp only [hsrv] at hr
      split at hr
      · rcases (runs_ret_iff _ _ _).mp hr with ⟨rfl, _⟩
        exact Or.inl hnothing
      · cases hsp : c.storageFor job.host with
        | error err =>
            rw [hsp] at hr
            rcases (runs_ret_iff _ _ _).mp hr with ⟨rfl, _⟩
            exact Or.inl hnothing
        | ok sp =>
            rw [hsp] at hr
            rcases (runs_call_iff _ _ _ _).mp hr with ⟨marked, tr₁, rfl, hmarked⟩
            cases marked with
            | error err =>
                rcases (runs_ret_iff _ _ _).mp hmarked with ⟨rfl, _⟩
                refine Or.inl ⟨rfl, fun st hend => ?_⟩
                rcases hend with ⟨x, hlast⟩
                cases hlast
            | ok u =>
                rcases (runs_publish_iff _ _ _ _ _).mp hmarked with ⟨t, tr₂, rfl, hrest⟩
                rcases (runs_bind_iff _ _ _ _).mp hrest with
                  ⟨pipeline, tr₄, result, rfl, hpipeline, hend⟩
                rcases (runs_publish_iff _ _ _ _ _).mp hend with ⟨t', tr₅, rfl, hfinal⟩
                rcases (runs_call_iff _ _ _ _).mp hfinal with ⟨written, tr₆, rfl, hret⟩
                rcases (runs_ret_iff _ _ _).mp hret with ⟨rfl, _⟩
                exact Or.inr ⟨srv, sp, t, t', pipeline, result, written, rfl, hpipeline, rfl⟩

/-- Only the last event of a run says that the job failed. -/
theorem ends_of_failed (c : Controller S) (job : Bop.Job) (tr : Trace (Op S) Ans)
    (r : Except Bytes Unit) (hr : Runs (c.runJob job) tr r)
    (h : ∃ e ∈ timeline tr, e.type = .backupFailed) : Ends job tr .failed := by
  rcases runJob_parts c job tr r hr with ⟨hnone, _⟩ |
    ⟨srv, sp, t, t', pipeline, result, written, hsrv, hpipeline, rfl⟩
  · rcases h with ⟨e, he, _⟩
    rw [hnone] at he
    exact absurd he List.not_mem_nil
  · have hquiet := outcome_of_pipelineWord _ job sp _ pipeline
      (pipelineWord_of_runs c _ job srv sp pipeline result hpipeline)
    rcases h with ⟨e, he, htype⟩
    rw [timeline_append, timeline_append] at he
    rcases List.mem_append.mp he with he | he
    · rcases List.mem_append.mp he with he | he
      · rw [List.mem_singleton.mp he] at htype
        cases htype
      · rcases (mem_timeline_type pipeline .backupFailed).mp ⟨e, he, htype⟩ with ⟨e', he', ht⟩
        have hnone := hquiet e' he'
        rw [ht] at hnone
        cases hnone
    · rw [List.mem_singleton.mp he] at htype
      cases result with
      | ok u => cases htype
      | error err =>
          exact ⟨written, last_of_ending job (.error err) t' written _⟩

/-! ### A completed job -/

/-- A checked program that succeeded. -/
theorem runs_check_ok {α β : Type} (p : Proc S (Except Bytes α)) (wrap : Bytes → Bytes)
    (k : α → Proc S (Except Bytes β)) (tr : Trace (Op S) Ans) (b : β)
    (hr : Runs (check p wrap k) tr (.ok b)) :
    ∃ tr₁ tr₂ a, tr = tr₁ ++ tr₂ ∧ Runs p tr₁ (.ok a) ∧ Runs (k a) tr₂ (.ok b) := by
  rcases (runs_check_iff _ _ _ _ _).mp hr with h | ⟨err, _, herr⟩
  · exact h
  · cases herr

/-- The last event there is has this type. -/
def Concludes (t : EventType) (tr : Trace (Op S) Ans) : Prop :=
  ∃ front e, timeline tr = front ++ [e] ∧ e.type = t

theorem Concludes.after {t : EventType} {tr : Trace (Op S) Ans} (h : Concludes t tr)
    (tr' : Trace (Op S) Ans) : Concludes t (tr' ++ tr) := by
  rcases h with ⟨front, e, htr, ht⟩
  exact ⟨timeline tr' ++ front, e, by rw [timeline_append, htr, List.append_assoc], ht⟩

theorem Concludes.before {t : EventType} {tr : Trace (Op S) Ans} (h : Concludes t tr)
    (tr' : Trace (Op S) Ans) (hnone : timeline tr' = []) : Concludes t (tr ++ tr') := by
  rcases h with ⟨front, e, htr, ht⟩
  exact ⟨front, e, by rw [timeline_append, htr, hnone, List.append_nil], ht⟩

/-- The last event of a resource that is done. -/
def lastOf (restoreTest : Bool) : EventType :=
  if restoreTest = true then .restoreVerificationCompleted else .repositoryVerificationCompleted

/-- Removing an artifact is not announced. -/
theorem timeline_cleanup (a : Artifact) (tr : Trace (Op S) Ans) (r : Unit)
    (hr : Runs (cleanupArtifact a : Proc S Unit) tr r) : timeline tr = [] := by
  unfold cleanupArtifact at hr
  split at hr
  · rcases (runs_ret_iff _ _ _).mp hr with ⟨rfl, _⟩
    rfl
  · rcases (runs_call_iff _ _ _ _).mp hr with ⟨x, tr', rfl, hret⟩
    rcases (runs_ret_iff _ _ _).mp hret with ⟨rfl, _⟩
    rfl

/-- A checked program that succeeded concludes as its rest does. -/
theorem concludes_check {α β : Type} {t : EventType} {p : Proc S (Except Bytes α)}
    {wrap : Bytes → Bytes} {k : α → Proc S (Except Bytes β)} {tr : Trace (Op S) Ans} {b : β}
    (hr : Runs (check p wrap k) tr (.ok b))
    (h : ∀ a tr', Runs (k a) tr' (.ok b) → Concludes t tr') : Concludes t tr := by
  rcases runs_check_ok _ _ _ _ _ hr with ⟨tr₁, tr₂, a, rfl, _, hrest⟩
  exact (h a tr₂ hrest).after tr₁

/-- So does one that announces something first. -/
theorem concludes_publish {α : Type} {t : EventType} {ctx : Ctx} {e : Event} {k : Unit → Proc S α}
    {tr : Trace (Op S) Ans} {r : α} (hr : Runs (publish ctx e >>= k) tr r)
    (h : ∀ tr', Runs (k ()) tr' r → Concludes t tr') : Concludes t tr := by
  rcases (runs_publish_iff _ _ _ _ _).mp hr with ⟨time, tr', rfl, hrest⟩
  exact (h tr' hrest).after [_, _]

/-- A program that announces something last concludes with it. -/
theorem concludes_last {α : Type} {ctx : Ctx} {e : Event} {k : Unit → Proc S α}
    {tr : Trace (Op S) Ans} {r : α} (hr : Runs (publish ctx e >>= k) tr r)
    (h : ∀ tr', Runs (k ()) tr' r → timeline tr' = []) : Concludes e.type tr := by
  rcases (runs_publish_iff _ _ _ _ _).mp hr with ⟨time, tr', rfl, hrest⟩
  refine ⟨[], { e with timestamp := time }, ?_, rfl⟩
  change { e with timestamp := time } :: timeline tr' = _
  rw [h tr' hrest, List.nil_append]

/-- A resource that is backed up concludes with its last verification. -/
theorem backedUp_concludes (ctx : Ctx) (job : Bop.Job) (p : Instance) (sp : S) (res : Resource)
    (v : Verification) (tr : Trace (Op S) Ans)
    (hr : Runs (backupResource ctx job p sp res v) tr (.ok ())) :
    Concludes (lastOf v.enabled) tr := by
  refine concludes_check hr fun produced tr hdefer => ?_
  rcases (runs_bind_iff _ _ _ _).mp hdefer with ⟨tr₁, tr₂, r, rfl, hbody, hclean⟩
  rcases (runs_bind_iff _ _ _ _).mp hclean with ⟨tr₃, tr₄, u, rfl, hremoved, hret⟩
  rcases (runs_ret_iff _ _ _).mp hret with ⟨rfl, rfl⟩
  rw [List.append_nil]
  refine Concludes.before ?_ tr₃ (timeline_cleanup _ tr₃ u hremoved)
  refine concludes_check hbody fun _ tr hverified => ?_
  refine concludes_check hverified fun checksum tr hsummed => ?_
  refine concludes_publish hsummed fun tr hcreated => ?_
  refine concludes_publish hcreated fun tr huploading => ?_
  refine concludes_check huploading fun id tr hstored => ?_
  refine concludes_publish hstored fun tr huploaded => ?_
  refine concludes_publish huploaded fun tr hverifying => ?_
  refine concludes_check hverifying fun _ tr hconfirmed => ?_
  cases htest : v.enabled with
  | true =>
      refine concludes_publish hconfirmed fun tr hrecording => ?_
      rcases (runs_call_iff _ _ _ _).mp hrecording with ⟨createdAt, tr', rfl, hrecord⟩
      refine Concludes.after ?_ [_]
      refine concludes_check hrecord fun _ tr hrecorded => ?_
      rw [if_pos htest] at hrecorded
      refine concludes_publish hrecorded fun tr htesting => ?_
      refine concludes_check htesting fun _ tr htested => ?_
      refine concludes_last htested fun tr hdone => ?_
      rcases (runs_ret_iff _ _ _).mp hdone with ⟨rfl, _⟩
      rfl
  | false =>
      refine concludes_last hconfirmed fun tr hrecording => ?_
      rcases (runs_call_iff _ _ _ _).mp hrecording with ⟨createdAt, tr', rfl, hrecord⟩
      rcases runs_check_ok _ _ _ _ _ hrecord with ⟨tr₅, tr₆, _, rfl, hwritten, hrecorded⟩
      rcases (runs_call_iff _ _ _ _).mp hwritten with ⟨x, tr₇, rfl, hanswer⟩
      rcases (runs_ret_iff _ _ _).mp hanswer with ⟨rfl, _⟩
      rw [if_neg (by rw [htest]; exact Bool.false_ne_true)] at hrecorded
      rcases (runs_ret_iff _ _ _).mp hrecorded with ⟨rfl, _⟩
      rfl

/-- Resources that are all backed up conclude with the last one's, and if there are
    none nothing is announced. -/
theorem allBackedUp_concludes (ctx : Ctx) (job : Bop.Job) (p : Instance) (sp : S) (v : Verification)
    (resources : List Resource) (tr : Trace (Op S) Ans)
    (hr : Runs (backupResources ctx job p sp v resources) tr []) :
    if resources = [] then timeline tr = [] else Concludes (lastOf v.enabled) tr := by
  induction resources generalizing tr with
  | nil =>
      rcases (runs_ret_iff _ _ _).mp hr with ⟨rfl, _⟩
      rfl
  | cons res rest ih =>
      rw [if_neg (List.cons_ne_nil _ _)]
      rcases (runs_bind_iff _ _ _ _).mp hr with ⟨tr₁, tr₂, r, rfl, hres, hrest⟩
      rcases (runs_bind_iff _ _ _ _).mp hrest with ⟨tr₃, tr₄, errs, rfl, hloop, hret⟩
      cases r with
      | error err =>
          rcases (runs_ret_iff _ _ _).mp hret with ⟨_, herrs⟩
          cases herrs
      | ok u =>
          rcases (runs_ret_iff _ _ _).mp hret with ⟨rfl, rfl⟩
          rw [List.append_nil]
          have hlast := ih tr₃ hloop
          split at hlast
          · exact (backedUp_concludes ctx job p sp res v tr₁ hres).before tr₃ hlast
          · exact hlast.after tr₁

/-- Without restore tests none is announced. -/
theorem untested_loop (ctx : Ctx) (job : Bop.Job) (p : Instance) (sp : S) (v : Verification)
    (resources : List Resource) (tr : Trace (Op S) Ans) (errs : List Bytes)
    (hr : Runs (backupResources ctx job p sp v resources) tr errs) (hv : v.enabled = false) :
    ∀ e ∈ timeline tr, e.type ≠ .restoreVerificationCompleted := by
  rcases traces_of_backupResources ctx job p sp v resources tr errs hr with ⟨traces, rfl, hall⟩
  intro e he htype
  rcases (mem_timeline_type _ _).mp ⟨e, he, htype⟩ with ⟨e', he', ht⟩
  rw [eventsOf_flatten] at he'
  rcases List.mem_flatten.mp he' with ⟨events, hevents, hmem⟩
  rcases List.mem_map.mp hevents with ⟨part, hpart, rfl⟩
  rcases List.mem_iff_getElem.mp hpart with ⟨i, hi, rfl⟩
  rcases ((List.forall₂_iff_get.mp hall).2 i (hall.length_eq ▸ hi) hi).2 with
    ⟨size, checksum, id, hpre, _, _⟩
  have hup := hpre.subset hmem
  rw [if_neg (by rw [hv]; exact Bool.false_ne_true), List.append_nil] at hup
  simp only [uploadEvents, jobEvent, List.mem_cons, List.not_mem_nil, or_false] at hup
  rcases hup with rfl | rfl | rfl | rfl | rfl <;> cases ht

/-- What a pipeline that succeeded announces: a discovery, what the resources
    announce, and the retention. -/
theorem completed_pipeline (c : Controller S) (ctx : Ctx) (job : Bop.Job) (srv : Server) (sp : S)
    (tr : Trace (Op S) Ans) (hr : Runs (c.runPipeline ctx job srv sp) tr (.ok ())) :
    ∃ resources p loop started found retained, Discovered tr resources ∧
      Runs (backupResources ctx job p sp (resolveVerification c.verification srv.verification)
        resources) loop [] ∧
      timeline tr = started :: found :: (timeline loop ++ [retained]) ∧
      started.type = .pluginDiscoveryStarted ∧ found.type = .pluginDiscoveryCompleted ∧
      retained.type = .retentionApplied := by
  rcases runs_check_ok _ _ _ _ _ hr with ⟨tr₁, tr₂, cfg, rfl, hcfg, hinstance⟩
  have hquiet : timeline tr₁ = [] := by
    rcases runs_check_ok _ _ _ _ _ hcfg with ⟨tr₃, tr₄, found, rfl, hfound, hret⟩
    rcases (runs_call_iff _ _ _ _).mp hfound with ⟨x, tr₅, rfl, hanswer⟩
    rcases (runs_ret_iff _ _ _).mp hanswer with ⟨rfl, _⟩
    rcases (runs_ret_iff _ _ _).mp hret with ⟨rfl, _⟩
    rfl
  rcases runs_check_ok _ _ _ _ _ hinstance with ⟨tr₃, tr₄, u, rfl, hbuilt, hpublish⟩
  rcases (runs_call_iff _ _ _ _).mp hbuilt with ⟨x, tr₅, rfl, hanswer⟩
  rcases (runs_ret_iff _ _ _).mp hanswer with ⟨rfl, rfl⟩
  rcases (runs_publish_iff _ _ _ _ _).mp hpublish with ⟨t, tr₆, rfl, hdiscover⟩
  rcases runs_check_ok _ _ _ _ _ hdiscover with ⟨tr₇, tr₈, resources, rfl, hfound, hrest⟩
  rcases (runs_call_iff _ _ _ _).mp hfound with ⟨y, tr₉, rfl, hanswer'⟩
  rcases (runs_ret_iff _ _ _).mp hanswer' with ⟨rfl, rfl⟩
  rcases (runs_publish_iff _ _ _ _ _).mp hrest with ⟨t', tr₁₀, rfl, hloop⟩
  rcases (runs_bind_iff _ _ _ _).mp hloop with ⟨loop, tr₁₁, errs, rfl, hall, hend⟩
  rcases (runs_call_iff _ _ _ _).mp hend with ⟨applied, tr₁₂, rfl, happlied⟩
  have hjoined : ∀ errs : List Bytes, .ok () = joined errs → errs = [] := by
    intro errs h
    unfold joined at h
    split at h
    · next hnone => exact hnone
    · cases h
  cases applied with
  | error err =>
      rcases (runs_ret_iff _ _ _).mp happlied with ⟨_, herr⟩
      exact absurd (hjoined _ herr) (List.append_ne_nil_of_right_ne_nil _ (List.cons_ne_nil _ _))
  | ok u' =>
      rcases (runs_publish_iff _ _ _ _ _).mp happlied with ⟨t'', tr₁₃, rfl, hret⟩
      rcases (runs_ret_iff _ _ _).mp hret with ⟨rfl, herr⟩
      rw [hjoined errs herr] at hall
      let p : Instance := ⟨job.plugin, srv, cfg, c.tempDir⟩
      refine ⟨resources, p, loop,
        { jobEvent .pluginDiscoveryStarted job [] [] with timestamp := t },
        { jobEvent .pluginDiscoveryCompleted job []
          [("resource_count", itoaNat resources.length)] with timestamp := t' },
        { jobEvent .retentionApplied job [] [] with timestamp := t'' },
        ⟨ctx, p, ?_⟩, hall, ?_, rfl, rfl, rfl⟩
      · simp [p]
      · let discovery : Trace (Op S) Ans := [⟨.factory p, .ok u⟩, ⟨.now, t⟩,
          ⟨.publish ctx { jobEvent .pluginDiscoveryStarted job [] [] with timestamp := t }, ()⟩,
          ⟨.discover ctx p, .ok resources⟩, ⟨.now, t'⟩,
          ⟨.publish ctx { jobEvent .pluginDiscoveryCompleted job []
            [("resource_count", itoaNat resources.length)] with timestamp := t' }, ()⟩]
        change timeline (tr₁ ++ (discovery ++ (loop ++ _))) = _
        rw [timeline_append, timeline_append, timeline_append, hquiet]
        rfl

/-! ### Pages -/

/-- Events that happened one after the other are listed in the opposite order. -/
theorem newest_first (events listed : List Event)
    (h : events.Pairwise (fun a b => a.timestamp < b.timestamp)) (hperm : listed.Perm events)
    (hsorted : listed.Pairwise (fun a b => b.timestamp ≤ a.timestamp)) :
    listed = events.reverse := by
  have hstrict : ∀ a b, a ∈ listed → b ∈ events.reverse →
      b.timestamp ≤ a.timestamp → a.timestamp ≤ b.timestamp → a = b := by
    intro a b ha hb hba hab
    by_contra hne
    have hapart : events.Pairwise (fun a b => a.timestamp ≠ b.timestamp) :=
      h.imp fun hlt => ne_of_lt hlt
    have hsymm : Std.Symm (fun a b : Event => a.timestamp ≠ b.timestamp) :=
      ⟨fun _ _ hneq => hneq.symm⟩
    exact hapart.forall (hperm.subset ha) (List.mem_reverse.mp hb) hne (le_antisymm hab hba)
  refine List.Perm.eq_of_pairwise hstrict hsorted ?_ (hperm.trans events.reverse_perm.symm)
  rw [List.pairwise_reverse]
  exact h.imp fun hlt => le_of_lt hlt

/-- What a seal says has happened: the plugin accepted an artifact, the repository a
    snapshot, or a restore succeeded. -/
def Warranted : SealTier → Trace (Op S) Ans → Prop
  | .structural, tr => ∃ ctx p a, (⟨.verify ctx p a, .ok ()⟩ : Prog.Event (Op S) Ans) ∈ tr
  | .storage, tr => ∃ ctx sp id, (⟨.verifySnapshot ctx sp id, .ok ()⟩ : Prog.Event (Op S) Ans) ∈ tr
  | .restored, tr => ∃ ctx p a, (⟨.restore ctx p a, .ok ()⟩ : Prog.Event (Op S) Ans) ∈ tr
  | _, _ => True

/-- What was confirmed has happened. -/
theorem warranted_of_confirmed (t : SealTier) (tr : Trace (Op S) Ans) (h : Confirmed t tr) :
    Warranted t tr := by
  rcases h with ⟨⟨o, x⟩, hmem, hearn⟩
  cases o with
  | verify ctx p a => cases x with
    | ok u =>
        cases hearn
        exact ⟨ctx, p, a, hmem⟩
    | error err => cases hearn
  | verifySnapshot ctx sp id => cases x with
    | ok u =>
        cases hearn
        exact ⟨ctx, sp, id, hmem⟩
    | error err => cases hearn
  | restore ctx p a => cases x with
    | ok u =>
        cases hearn
        exact ⟨ctx, p, a, hmem⟩
    | error err => cases hearn
  | _ => cases hearn

/-- An event that claims a step has its warrant. -/
theorem warranted_of_mem (c : Controller S) (job : Bop.Job) (sofar rest : Trace (Op S) Ans)
    (r : Except Bytes Unit) (hr : Runs (c.runJob job) (sofar ++ rest) r) (e : Event)
    (he : e ∈ timeline sofar) (t : SealTier) (ht : claimedBy e.type = some t) :
    Warranted t sofar := by
  rcases List.mem_filterMap.mp he with ⟨⟨o, x⟩, hmem, hevent⟩
  have hclaim : claims o = some t := by
    cases o with
    | publish ctx e' =>
        cases hevent
        exact ht
    | _ => cases hevent
  exact warranted_of_confirmed t sofar
    (earned_of_runs _ _ (runJob_credited c job) sofar rest r hr ⟨o, x⟩ hmem t hclaim)

/-- The seal a completed job has in the end. -/
def finalSeal (resources : List Resource) (restoreTest : Bool) : SealTier :=
  if resources = [] then .none else if restoreTest = true then .restored else .storage

/-- A page without a failure that shows the last verification of a resource. -/
theorem seal_of_last (page : List Event) (restoreTest : Bool)
    (hfailed : ∀ e ∈ page, e.type ≠ .backupFailed)
    (huntested : restoreTest = false → ∀ e ∈ page, e.type ≠ .restoreVerificationCompleted)
    (hlast : ∃ e ∈ page, e.type = lastOf restoreTest) :
    sealTierForEvents page = if restoreTest = true then .restored else .storage := by
  rw [sealTierForEvents_eq, if_neg fun h => h.elim fun e he => hfailed e he.1 he.2]
  cases restoreTest with
  | true =>
      have htested : ∃ e ∈ page, e.type = .restoreVerificationCompleted := hlast
      rw [if_pos htested, if_pos rfl]
  | false =>
      have hverified : ∃ e ∈ page, e.type = .repositoryVerificationCompleted := hlast
      rw [if_neg fun h => h.elim fun e he => huntested rfl e he.1 he.2, if_pos hverified,
        if_neg Bool.false_ne_true]

/-- A page on which nothing claims a step and nothing failed. -/
theorem seal_of_nothing (page : List Event) (hfailed : ∀ e ∈ page, e.type ≠ .backupFailed)
    (h : ∀ e ∈ page, claimedBy e.type = none) : sealTierForEvents page = .none := by
  have hno : ∀ t, claimedBy t ≠ none → ¬ ∃ e ∈ page, e.type = t := by
    rintro t ht ⟨e, he, rfl⟩
    exact ht (h e he)
  rw [sealTierForEvents_eq, if_neg fun h => h.elim fun e he => hfailed e he.1 he.2,
    if_neg (hno _ (by decide)), if_neg (hno _ (by decide)), if_neg (hno _ (by decide))]

/-- The seal of a page of a completed job's events, if it shows three of them. -/
theorem seal_completed (c : Controller S) (job : Bop.Job) (srv : Server) (sp : S)
    (pipeline : Trace (Op S) Ans) (requested : List Event) (first last : Event)
    (hr : Runs (c.runPipeline c.pipelineCtx job srv sp) pipeline (.ok ()))
    (hrequested : ∀ e ∈ requested, e.type = .backupRequested) (hfirst : first.type = .backupStarted)
    (hlast : last.type = .backupCompleted) (n : Nat) (hn : 3 ≤ n) :
    ∃ resources, Discovered pipeline resources ∧
      sealTierForEvents
        ((requested ++ first :: (timeline pipeline ++ [last])).reverse.take n) =
        finalSeal resources (resolveVerification c.verification srv.verification).enabled := by
  rcases completed_pipeline c _ job srv sp pipeline hr with
    ⟨resources, p, loop, started, found, retained, hfound, hloop, htimeline, hstarted, hdone,
      hretained⟩
  refine ⟨resources, hfound, ?_⟩
  have hquiet := outcome_of_pipelineWord _ job sp _ pipeline
    (pipelineWord_of_runs c _ job srv sp pipeline _ hr)
  -- What is on the page is an event of the job.
  have hpage : ∀ e ∈ (requested ++ first :: (timeline pipeline ++ [last])).reverse.take n,
      e.type = .backupRequested ∨ e.type = .backupStarted ∨ e.type = .backupCompleted ∨
        e ∈ timeline pipeline := by
    intro e he
    have hmem := List.mem_reverse.mp (List.mem_of_mem_take he)
    simp only [List.mem_append, List.mem_cons, List.not_mem_nil, or_false] at hmem
    rcases hmem with hmem | rfl | hmem | rfl
    · exact Or.inl (hrequested e hmem)
    · exact Or.inr (Or.inl hfirst)
    · exact Or.inr (Or.inr (Or.inr hmem))
    · exact Or.inr (Or.inr (Or.inl hlast))
  have hfailed : ∀ e ∈ (requested ++ first :: (timeline pipeline ++ [last])).reverse.take n,
      e.type ≠ .backupFailed := by
    intro e he htype
    rcases hpage e he with ht | ht | ht | hmem
    · exact EventType.noConfusion (ht.symm.trans htype)
    · exact EventType.noConfusion (ht.symm.trans htype)
    · exact EventType.noConfusion (ht.symm.trans htype)
    · rcases (mem_timeline_type pipeline .backupFailed).mp ⟨e, hmem, htype⟩ with ⟨e', he', ht⟩
      have hnone := hquiet e' he'
      rw [ht] at hnone
      cases hnone
  have hends := allBackedUp_concludes _ job p sp _ resources loop hloop
  unfold finalSeal
  split
  · next hnone =>
      rw [if_pos hnone] at hends
      refine seal_of_nothing _ hfailed fun e he => ?_
      rcases hpage e he with ht | ht | ht | hmem
      · rw [ht]
        rfl
      · rw [ht]
        rfl
      · rw [ht]
        rfl
      · rw [htimeline, hends] at hmem
        simp only [List.nil_append, List.mem_cons, List.not_mem_nil, or_false] at hmem
        rcases hmem with rfl | rfl | rfl
        · rw [hstarted]
          rfl
        · rw [hdone]
          rfl
        · rw [hretained]
          rfl
  · next hsome =>
      rw [if_neg hsome] at hends
      rcases hends with ⟨front, e, hend, htype⟩
      refine seal_of_last _ _ hfailed (fun hv e he => ?_) ⟨e, ?_, htype⟩
      · rcases hpage e he with ht | ht | ht | hmem
        · rw [ht]
          exact EventType.noConfusion
        · rw [ht]
          exact EventType.noConfusion
        · rw [ht]
          exact EventType.noConfusion
        · rw [htimeline] at hmem
          simp only [List.mem_cons, List.mem_append, List.not_mem_nil, or_false] at hmem
          rcases hmem with rfl | rfl | hmem | rfl
          · rw [hstarted]
            exact EventType.noConfusion
          · rw [hdone]
            exact EventType.noConfusion
          · exact untested_loop _ job p sp _ resources loop [] hloop hv e hmem
          · rw [hretained]
            exact EventType.noConfusion
      · -- It is the third event from the end.
        have hrev : (requested ++ first :: (timeline pipeline ++ [last])).reverse =
            [last, retained, e] ++ (requested ++ first :: started :: found :: front).reverse := by
          rw [htimeline, hend]
          simp
        rw [hrev, List.take_append]
        refine List.mem_append_left _ ?_
        rw [List.take_of_length_le (show ([last, retained, e] : List Event).length ≤ n from hn)]
        exact List.mem_cons_of_mem _ (List.mem_cons_of_mem _ (List.mem_singleton_self e))

/-- What the page of a job asks the API for. -/
theorem listEvents_page (job : Bop.Job) (header : List (Bytes × Bytes)) (hid : job.id ≠ []) :
    ∃ k, (Api.listEvents ((Call.listEvents job.id [] 200).request header) :
        Proc S (Api.Response D)) = .call (.store .caller (.listEventsPage ⟨job.id, [], 200⟩)) k ∧
      (∀ err, k (.error err) = .ret (Api.writeError 500 err)) ∧
      ∀ events, k (.ok events) = .ret ⟨200, .events events⟩ := by
  let query : List (Bytes × Bytes) := [("job_id", job.id), ("limit", "200")]
  have hquery : ((Call.listEvents job.id [] 200).request header).query = query := by
    change (if job.id = [] then ([] : List (Bytes × Bytes)) else [("job_id", job.id)]) ++ [] ++
      [(("limit" : Bytes), (itoaNat 200 : Bytes))] = _
    rw [if_neg hid]
    rfl
  have hkeys : ("job_id" : Bytes) ≠ "limit" ∧ ("job_id" : Bytes) ≠ "host" ∧
      ("limit" : Bytes) ≠ "host" := by decide
  have hjob : Api.first query "job_id" = job.id := by simp [query, Api.first]
  have hhost : Api.first query "host" = [] := by simp [query, Api.first, hkeys]
  have hlimit : Api.first query "limit" = "200" := by simp [query, Api.first, hkeys]
  have hvalue : Api.eventsLimit "200" = some 200 := by decide
  rw [Api.listEvents, hquery, hjob, hhost, hlimit, hvalue]
  exact ⟨_, rfl, fun _ => rfl, fun _ => rfl⟩

/-- What it is answered. -/
theorem listed_page (job : Bop.Job) (header : List (Bytes × Bytes)) (w w' : Shared)
    (look : Trace (Op S) Ans) (shown : List Event)
    (hr : Runs (Api.listEvents ((Call.listEvents job.id [] 200).request header) :
      Proc S (Api.Response D)) look ⟨200, .events shown⟩)
    (hs : Steps SharedSem w look w') (hid : job.id ≠ []) :
    ∃ listed : List Event, listed.Perm (w.store.eventsMatching ⟨job.id, [], 200⟩) ∧
      listed.Pairwise (fun a b => b.timestamp ≤ a.timestamp) ∧ shown = listed.take 200 := by
  rcases listEvents_page (S := S) (D := D) job header hid with ⟨k, hcall, herror, hok⟩
  rw [hcall] at hr
  rcases (runs_call_iff _ _ _ _).mp hr with ⟨x, tr, rfl, hanswer⟩
  cases x with
  | error err =>
      rw [herror] at hanswer
      rcases (runs_ret_iff _ _ _).mp hanswer with ⟨_, hresponse⟩
      cases hresponse
  | ok events =>
      rw [hok] at hanswer
      rcases (runs_ret_iff _ _ _).mp hanswer with ⟨rfl, hresponse⟩
      cases hresponse
      cases hs with
      | cons _ w₁ _ _ _ _ hstep _ =>
          rcases hstep.1 with ⟨_, listed, hperm, hsorted, hevents⟩
          exact ⟨listed, hperm, hsorted, hevents⟩

/-- What the seal of a job says is so. At any moment of the job's run, whatever the
    page shows of what was announced so far: a step it claims was confirmed, by the
    plugin, the repository or a restore, and a failure it claims is how the run
    ends. When the run is over, nothing of it was lost and no clock was set back, so
    that every event has a later time than the one before, the two hundred newest
    events the API lists say how it ended: a failed job is shown as failed, and a
    completed one as far verified as its host asks for. -/
theorem seal_truthful (c : Controller S) (job : Bop.Job) (tr : Trace (Op S) Ans)
    (r : Except Bytes Unit) (hr : Runs (c.runJob job) tr r) :
    (∀ sofar rest shown, tr = sofar ++ rest →
      (∀ e ∈ shown, e.type = .backupRequested ∨ e ∈ timeline sofar) →
      Warranted (sealTierForEvents shown) sofar ∧
        (sealTierForEvents shown = .failed → Ends job tr .failed)) ∧
    ∀ w w' header requested shown (look : Trace (Op S) Ans), job.id ≠ [] →
      Runs (Api.listEvents ((Call.listEvents job.id [] 200).request header) :
        Proc S (Api.Response D)) look ⟨200, .events shown⟩ → Steps SharedSem w look w' →
      w.store.eventsMatching ⟨job.id, [], 200⟩ = requested ++ timeline tr →
      (∀ e ∈ requested, e.type = .backupRequested) →
      (requested ++ timeline tr).Pairwise (fun a b => a.timestamp < b.timestamp) →
      (Ends job tr .failed → sealTierForEvents shown = .failed) ∧
      (Ends job tr .completed → ∃ srv resources, c.inventory.servers.lookup job.host = some srv ∧
        Discovered tr resources ∧ sealTierForEvents shown =
          finalSeal resources (resolveVerification c.verification srv.verification).enabled) := by
  refine ⟨?_, ?_⟩
  · rintro sofar rest shown rfl hshown
    have hmem : ∀ t, t ≠ .backupRequested → (∃ e ∈ shown, e.type = t) →
        ∃ e ∈ timeline sofar, e.type = t := by
      rintro t ht ⟨e, he, htype⟩
      rcases hshown e he with hreq | hrun
      · exact absurd (htype.symm.trans hreq) ht
      · exact ⟨e, hrun, htype⟩
    have hwarrant : ∀ t tier, t ≠ .backupRequested → claimedBy t = some tier →
        (∃ e ∈ shown, e.type = t) → Warranted tier sofar := by
      intro t tier ht hclaim hsome
      rcases hmem t ht hsome with ⟨e, he, rfl⟩
      exact warranted_of_mem c job sofar rest r hr e he tier hclaim
    rw [sealTierForEvents_eq]
    refine ⟨?_, fun hseal => ?_⟩
    · split
      · trivial
      split
      · next h => exact hwarrant _ _ (by decide) rfl h
      split
      · next h => exact hwarrant _ _ (by decide) rfl h
      split
      · next h => exact hwarrant _ _ (by decide) rfl h
      · trivial
    · split at hseal
      · next h =>
          rcases hmem _ (by decide) h with ⟨e, he, htype⟩
          refine ends_of_failed c job _ r hr ⟨e, ?_, htype⟩
          rw [timeline_append]
          exact List.mem_append_left _ he
      · split at hseal
        · cases hseal
        · split at hseal
          · cases hseal
          · split at hseal <;> cases hseal
  · intro w w' header requested shown look hid hlook hs hstored hrequested hordered
    rcases listed_page job header w w' look shown hlook hs hid with
      ⟨listed, hperm, hsorted, rfl⟩
    rw [hstored] at hperm
    rw [newest_first _ listed hordered hperm hsorted]
    rcases runJob_parts c job tr r hr with ⟨_, hends⟩ |
      ⟨srv, sp, t, t', pipeline, result, written, hsrv, hpipeline, rfl⟩
    · exact ⟨fun h => absurd h (hends _), fun h => absurd h (hends _)⟩
    · have hfinal : ∀ st, Ends job (preamble job t ++ pipeline ++ ending job result t' written) st →
          finalStatus result = st := by
        rintro st ⟨x, hlast⟩
        rw [last_of_ending] at hlast
        cases hlast
        rfl
      have hevents : timeline (preamble job t ++ pipeline ++ ending job result t' written) =
          { jobEvent .backupStarted job [] [] with timestamp := t } :: (timeline pipeline ++
            [{ completionEvent job result with timestamp := t' }]) := by
        rw [timeline_append, timeline_append, List.append_assoc]
        rfl
      rw [hevents]
      refine ⟨fun h => ?_, fun h => ?_⟩
      · cases result with
        | ok u => cases hfinal _ h
        | error err =>
            -- The end of the run is the newest event.
            have hshown : { completionEvent job (.error err) with timestamp := t' } ∈
                (requested ++ { jobEvent .backupStarted job [] [] with timestamp := t } ::
                  (timeline pipeline ++
                    [{ completionEvent job (.error err) with timestamp := t' }])).reverse.take
                  200 := by
              rw [← List.cons_append, ← List.append_assoc, List.reverse_concat]
              exact List.mem_cons_self
            rw [sealTierForEvents_eq, if_pos ⟨_, hshown, rfl⟩]
      · cases result with
        | error err => cases hfinal _ h
        | ok u =>
            rcases seal_completed c job srv sp pipeline requested
              { jobEvent .backupStarted job [] [] with timestamp := t }
              { completionEvent job (.ok u) with timestamp := t' } hpipeline hrequested rfl rfl 200
              (by decide) with ⟨resources, ⟨ctx, p, hfound⟩, hseal⟩
            exact ⟨srv, resources, hsrv,
              ⟨ctx, p, List.mem_append_left _ (List.mem_append_right _ hfound)⟩, hseal⟩

/-! ### A job that backs up one directory -/

/-- The seal says that its snapshot was confirmed, when the repository has confirmed it
    and from then on. -/
theorem seal_truthful_data : ∃ resources, Discovered dataRun resources ∧
    sealTierForEvents (timeline dataRun).reverse = finalSeal resources false := by
  let w : Shared := ⟨{ Store.empty with events := timeline dataRun }, Memory.new queueCapacity⟩
  let listed : List Event := (timeline dataRun).reverse
  let look : Trace (Op Unit) Ans :=
    [⟨.store .caller (.listEventsPage ⟨filesJob.id, [], 200⟩), .ok listed⟩]
  have hordered : (([] : List Event) ++ timeline dataRun).Pairwise
      (fun a b => a.timestamp < b.timestamp) := by
    decide
  have hmatching : w.store.eventsMatching ⟨filesJob.id, [], 200⟩ = [] ++ timeline dataRun := by
    decide
  have hlisted : listed.Pairwise (fun a b => b.timestamp ≤ a.timestamp) := by decide
  have hlook : Runs (Api.listEvents ((Call.listEvents filesJob.id [] 200).request []) :
      Proc Unit (Api.Response Unit)) look ⟨200, .events listed⟩ := by
    rcases listEvents_page (S := Unit) (D := Unit) filesJob [] (by decide) with
      ⟨k, hcall, _, hok⟩
    rw [hcall]
    refine Runs.call _ _ _ _ _ ?_
    rw [hok]
    exact Runs.ret _
  have hsteps : Steps SharedSem w look w := by
    refine Steps.cons _ w _ _ _ _ ⟨⟨rfl, listed, ?_, hlisted, rfl⟩, rfl⟩ (Steps.nil w)
    rw [hmatching]
    exact List.reverse_perm _
  rcases ((seal_truthful filesController filesJob dataRun (.ok ()) runs_dataRun).2 w w [] []
    listed look (by decide) hlook hsteps hmatching (fun e he => absurd he List.not_mem_nil)
    hordered).2 ⟨.ok (), rfl⟩ with ⟨srv, resources, hsrv, hfound, hseal⟩
  cases hsrv
  exact ⟨resources, hfound, hseal⟩

end Web

end Bop
