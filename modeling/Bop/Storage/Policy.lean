import Bop.Controller.Outcome
import Bop.Storage.Restic

/-!
# Policies That Are Refused

The inventory is validated once, at startup, and a policy is refused at the end
of every job. The two do not agree on what a policy is. The validator asks that
no value is negative, and the provider asks that some value is positive, so a
server without a retention block passes the one and fails the other: all its
backups are stored, and all its jobs fail.

## Main definitions

* `Retained`: What `ApplyRetention` returns when restic's commands succeed.
* `Outcomes.OthersSucceed`: Every step of a job but the retention succeeds.
* `Completes`: Then the job is stored as completed.

## Theorems

* `retained_iff`: A policy is refused or passed on.
* `completes_iff`: The jobs that complete.
* `accepted_not_completed`: A server that is accepted and whose jobs fail.
-/

namespace Bop

open Prog

/-- What `ApplyRetention` returns in a run in which restic's commands succeed. -/
def Retained (p : ResticProvider) (host : Bytes) (policy : Policy) (r : Except Bytes Unit) : Prop :=
  ∃ tr, Runs (p.applyRetention host policy) tr r ∧
    ∀ args x, (⟨.run args, x⟩ : Prog.Event ResticOp ResticAns) ∈ tr → ∃ out, x = .ok out

/-- A policy without a positive value is refused, and any other is passed on. -/
theorem retained_iff (p : ResticProvider) (host : Bytes) (policy : Policy) (r : Except Bytes Unit) :
    Retained p host policy r ↔ r = if hasPolicy policy = true then .ok ()
      else .error ("restic forget: no retention policy specified for host " ++ quoteGo host) := by
  unfold Retained ResticProvider.applyRetention
  by_cases hpolicy : hasPolicy policy = true
  · rw [if_neg (by rw [hpolicy]; exact Bool.true_eq_false.mp), if_pos hpolicy]
    constructor
    · rintro ⟨tr, hr, hok⟩
      rcases (runs_check_iff _ _ _ _ _).mp hr with ⟨tr₁, tr₂, out, rfl, _, hret⟩ | ⟨err, hcall, _⟩
      · exact ((runs_ret_iff _ _ _).mp hret).2
      · -- The command succeeds, so this does not happen.
        rcases (runs_call_iff _ _ _ _).mp hcall with ⟨x, tr', rfl, hret⟩
        rcases (runs_ret_iff _ _ _).mp hret with ⟨_, hx⟩
        rcases hok _ x List.mem_cons_self with ⟨out, hout⟩
        rw [hout] at hx
        cases hx
    · rintro rfl
      refine ⟨[⟨.run (p.fullArgs (ResticProvider.forgetArgs host policy)), .ok []⟩],
        Runs.call _ _ _ _ _ (Runs.ret _), ?_⟩
      intro args x hx
      cases List.mem_singleton.mp hx
      exact ⟨[], rfl⟩
  · rw [if_pos (Bool.not_eq_true _ ▸ hpolicy), if_neg hpolicy]
    constructor
    · rintro ⟨tr, hr, _⟩
      exact ((runs_ret_iff _ _ _).mp hr).2
    · rintro rfl
      exact ⟨[], Runs.ret _, fun _ _ h => absurd h List.not_mem_nil⟩

namespace Controller

variable (c : Controller ResticProvider)

/-- Every step of the job but the retention succeeds. -/
def OthersSucceed (o : Outcomes ResticProvider Nat) (job : Job) : Prop :=
  c.Admits job ∧ (o.status .caller job.id .inProgress).result = .ok () ∧
    c.PipelineOk { o with retention := fun _ _ _ _ => .ok () } job ∧
    (o.status .record job.id .completed).result = .ok ()

/-- Retention refuses nothing and the job is completed, whenever every other
    step and restic's commands succeed. -/
def Completes (job : Job) : Prop :=
  ∀ (o : Outcomes ResticProvider Nat) s sp, s.status job.id = some .queued →
    c.storageFor job.host = .ok sp →
    Retained sp job.host job.policy (o.retention c.pipelineCtx sp job.host job.policy) →
    c.OthersSucceed o job →
    o.retention c.pipelineCtx sp job.host job.policy = .ok () ∧
      (exec o.answer (c.runJob job) (start s)).2.store.status job.id = some .completed

/-- What the pipeline needs of the retention, apart from everything else. -/
theorem pipelineOk_iff (o : Outcomes ResticProvider Nat) (job : Job) (sp : ResticProvider)
    (hsp : c.storageFor job.host = .ok sp) :
    c.PipelineOk o job ↔ c.PipelineOk { o with retention := fun _ _ _ _ => .ok () } job ∧
      o.retention c.pipelineCtx sp job.host job.policy = .ok () := by
  constructor
  · rintro ⟨srv, sp', found, cfg, resources, hsrv, hsp', hset, hcfg, hfactory, hdiscover, hall,
      hret⟩
    rw [hsp] at hsp'
    cases hsp'
    exact ⟨⟨srv, sp, found, cfg, resources, hsrv, hsp, hset, hcfg, hfactory, hdiscover, hall, rfl⟩,
      hret⟩
  · rintro ⟨⟨srv, sp', found, cfg, resources, hsrv, hsp', hset, hcfg, hfactory, hdiscover, hall, _⟩,
      hret⟩
    rw [hsp] at hsp'
    cases hsp'
    exact ⟨srv, sp, found, cfg, resources, hsrv, hsp, hset, hcfg, hfactory, hdiscover, hall, hret⟩

/-- A job that is admitted has a run in which every other step succeeds. -/
theorem exists_othersSucceed (job : Job) (hadmits : c.Admits job) (r : Except Bytes Unit) :
    ∃ o : Outcomes ResticProvider Nat, (∀ ctx sp host policy, o.retention ctx sp host policy = r) ∧
      c.OthersSucceed o job := by
  rcases hadmits with ⟨srv, sp, hsrv, hplugin, hsp⟩
  -- An empty document is stored for the plugin, and it finds nothing.
  refine ⟨{ smooth [] with
      settings := fun _ _ _ => .ok (some "\x7b\x7d"), retention := fun _ _ _ _ => r },
    fun _ _ _ _ => rfl, ⟨srv, sp, hsrv, hplugin, hsp⟩, rfl,
    ⟨srv, sp, some "\x7b\x7d", some ⟨some []⟩, [], hsrv, hsp, rfl, ?_, rfl, rfl, ?_, rfl⟩, rfl⟩
  · rfl
  · exact fun i res h => by cases h

/-- With a policy, the retention is not refused. -/
theorem completes_of_policy (job : Job) (hpolicy : hasPolicy job.policy = true) :
    c.Completes job := by
  intro o s sp hqueued hsp hretained ⟨hadmits, hmark, hpipeline, hfinal⟩
  have hok : o.retention c.pipelineCtx sp job.host job.policy = .ok () := by
    rw [retained_iff, if_pos hpolicy] at hretained
    exact hretained
  have hpipelineOk : c.PipelineOk o job := (pipelineOk_iff c o job sp hsp).mpr ⟨hpipeline, hok⟩
  rcases runJob_marked c job o s hqueued hadmits (Written.done_of_result _ hmark) with
    ⟨st, ⟨rfl, _⟩ | ⟨_, hfailed⟩, hstored, _⟩
  · refine ⟨hok, hstored.trans ?_⟩
    rw [Written.done_of_result _ hfinal]
    rfl
  · exact absurd hpipelineOk hfailed

/-- Without one, every other step can succeed and the retention is refused. -/
theorem not_completes (job : Job) (hadmits : c.Admits job) (hstatus : job.status = .queued)
    (hpolicy : hasPolicy job.policy = false) : ¬ c.Completes job := by
  intro h
  have ⟨srv, sp, hsrv, hplugin, hsp⟩ := hadmits
  rcases c.exists_othersSucceed job hadmits (.error
    ("restic forget: no retention policy specified for host " ++ quoteGo job.host)) with
    ⟨o, ho, hothers⟩
  let s : Store := { Store.empty with jobs := ⟨[job], List.nodup_singleton _⟩ }
  have hqueued : s.status job.id = some .queued := by
    simp only [s, Store.status, Table.find?, List.find?_cons, decide_true, Option.map_some, hstatus]
  have hretained : Retained sp job.host job.policy
      (o.retention c.pipelineCtx sp job.host job.policy) := by
    rw [retained_iff, ho, if_neg (by rw [hpolicy]; exact Bool.false_ne_true)]
  have hok := (h o s sp hqueued hsp hretained hothers).1
  rw [ho] at hok
  cases hok

/-- A server's jobs complete exactly when some value of its retention is
    positive, unless they are refused before anything is done: because the
    plugin is not registered or the repository is not configured. -/
theorem completes_iff (name plugin : Bytes) (srv : Server) (unixNano queuedAt : Time)
    (hsrv : c.inventory.servers.lookup name = some srv) :
    c.Completes (newJob name plugin srv.retention unixNano queuedAt) ↔
      hasPolicy srv.retention = true ∨ plugin ∉ c.factories ∨ ∀ sp, c.storageFor name ≠ .ok sp := by
  by_cases hpolicy : hasPolicy srv.retention = true
  · exact iff_of_true (c.completes_of_policy _ hpolicy) (Or.inl hpolicy)
  · by_cases hadmits : plugin ∈ c.factories ∧ ∃ sp, c.storageFor name = .ok sp
    · rcases hadmits with ⟨hplugin, sp, hsp⟩
      refine iff_of_false (c.not_completes _ ⟨srv, sp, hsrv, hplugin, hsp⟩ rfl
        (Bool.not_eq_true _ ▸ hpolicy)) ?_
      rintro (h | h | h)
      · exact hpolicy h
      · exact h hplugin
      · exact h sp hsp
    · rw [not_and_or, not_exists] at hadmits
      refine iff_of_true ?_ (Or.inr hadmits)
      -- A job that is not admitted has no run in which the others succeed.
      intro o s sp _ _ _ ⟨⟨_, sp', _, hplugin, hsp'⟩, _⟩
      rcases hadmits with h | h
      · exact absurd hplugin h
      · exact absurd hsp' (h sp')

/-! ### A server without a retention block -/

/-- A repository without extra arguments. -/
def plainRepo : ResticProvider := ⟨"/srv/restic", []⟩

/-- The jobs of a host with a policy complete. -/
theorem completes_web :
    (hostController "web" filesServer plainRepo).Completes
      (newJob "web" "files" filesServer.retention 1 2) :=
  (completes_iff (hostController "web" filesServer plainRepo) "web" "files" filesServer 1 2
    rfl).mpr (Or.inl (by decide))

/-- A host whose entry has no retention block. -/
def bareServer : Server := { filesServer with retention := ⟨0, 0, 0, 0⟩ }

/-- The inventory is accepted, and no job of the host completes although
    everything but the retention succeeds. -/
theorem accepted_not_completed :
    ∃ c : Controller ResticProvider, c.inventory.Accepted ∧
      c.inventory.servers.lookup ("web" : Bytes) = some bareServer ∧
      ¬ c.Completes (newJob "web" "files" bareServer.retention 1 2) := by
  refine ⟨hostController "web" bareServer plainRepo,
    ⟨(hostController "web" bareServer ()).inventory.servers.entries, List.Perm.refl _, ?_⟩, rfl, ?_⟩
  · rfl
  · exact not_completes _ _ ⟨bareServer, plainRepo, rfl, by decide, rfl⟩ rfl (by decide)

end Controller

end Bop
