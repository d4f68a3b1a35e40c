import Bop.Api.Handlers
import Bop.Effect.Interp
import Bop.Storage.Retention

/-!
# The Check Before a Job

A request for a backup is checked by building the plugin its job would run
with, so that a request that can only fail is refused while its caller is
listening. The job itself makes the same checks later and in another order,
and one more: that its repository is configured, which is checked for every
server when the process starts.

Both go by the stored settings and by what the factories make of them, which
is what an environment fixes here. In one environment a request passes exactly
if its job gets to discovery.

## Main definitions

* `BuildEnvironment`: The stored settings and what the factories answer.
* `Obeys`: The answers of a run are those of an environment.
* `Usable`: A plugin can be built for a host.
* `Discovers`: A run calls `Discover`.
* `Op.touchesJobs`: The operations that create or enqueue a job.

## Theorems

* `built_iff`: `BuildPlugin` succeeds if the plugin can be built.
* `discovers_iff`: A job gets to discovery if its plugin can be built.
* `trigger_agrees`: The check agrees with the run.
-/

namespace Bop

open Prog

variable {S D : Type}

/-- What decides whether a plugin can be built: the documents stored for plugins,
    and what a factory answers. -/
structure BuildEnvironment where
  settings : Bytes → Bytes → Option Bytes
  factory : Instance → Except Bytes Unit

namespace BuildEnvironment

variable (env : BuildEnvironment)

/-- The answers of an environment in which the status of a job can be written. -/
def Allows : (o : Op S) → Ans o → Prop
  | .store _ (.getPluginSettings host plugin), x => x = .ok (env.settings host plugin)
  | .store _ (.updateJobStatus _ _), x => x = .ok ()
  | .factory p, x => x = env.factory p
  | _, _ => True

/-- Every answer of the run is one of the environment's. -/
def Obeys (tr : Trace (Op S) Ans) : Prop := ∀ e ∈ tr, env.Allows e.1 e.2

theorem obeys_cons (e : Prog.Event (Op S) Ans) (tr : Trace (Op S) Ans) :
    env.Obeys (e :: tr) ↔ env.Allows e.1 e.2 ∧ env.Obeys tr := List.forall_mem_cons

theorem obeys_append (tr₁ tr₂ : Trace (Op S) Ans) :
    env.Obeys (tr₁ ++ tr₂) ↔ env.Obeys tr₁ ∧ env.Obeys tr₂ := List.forall_mem_append

/-- Every operation has an answer in every environment. -/
theorem exists_allows (o : Op S) : ∃ x, env.Allows o x := by
  cases o with
  | store ctx o => cases o with
    | getPluginSettings host plugin => exact ⟨_, rfl⟩
    | updateJobStatus id st => exact ⟨_, rfl⟩
    | getJob id => exact ⟨.error .notFound, trivial⟩
    | _ => exact ⟨.error [], trivial⟩
  | factory p => exact ⟨_, rfl⟩
  | now => exact ⟨(0 : Int), trivial⟩
  | publish ctx e => exact ⟨(), trivial⟩
  | _ => exact ⟨.error [], trivial⟩

/-- The program has a run in the environment. -/
theorem exists_obeys {α : Type} (p : Proc S α) : ∃ tr a, Runs p tr a ∧ env.Obeys tr :=
  exists_runs_of (fun o x => env.Allows o x) env.exists_allows p

end BuildEnvironment

/-- The run calls `Discover`. -/
def Discovers (tr : Trace (Op S) Ans) : Prop :=
  ∃ ctx p x, (⟨.discover ctx p, x⟩ : Prog.Event (Op S) Ans) ∈ tr

/-- The operations that create a job row or enqueue a job. -/
def Op.touchesJobs : Op S → Bool
  | .store _ (.createJob _) => true
  | .enqueue _ => true
  | _ => false

namespace Controller

variable (c : Controller S) (env : BuildEnvironment)

/-- In the environment, the plugin can be built for the host. -/
def Usable (host plugin : Bytes) : Prop :=
  ∃ srv cfg, c.inventory.servers.lookup host = some srv ∧ plugin ∈ c.factories ∧
    configFrom host plugin srv (env.settings host plugin) = .ok cfg ∧
    env.factory ⟨plugin, srv, cfg, c.tempDir⟩ = .ok ()

/-- The settings are resolved as the environment says. -/
theorem resolved_eq (ctx : Ctx) (host plugin : Bytes) (srv : Server) (tr : Trace (Op S) Ans)
    (r : Except Bytes (Option PluginConfig))
    (hr : Runs (resolvePluginConfig ctx host plugin srv) tr r) (hobeys : env.Obeys tr) :
    r = configFrom host plugin srv (env.settings host plugin) ∧ ¬ Discovers tr := by
  rcases (runs_call_iff _ _ _ _).mp hr with ⟨x, tr', rfl, hret⟩
  have hx := hobeys _ List.mem_cons_self
  change x = .ok (env.settings host plugin) at hx
  subst hx
  rcases (runs_ret_iff _ _ _).mp hret with ⟨rfl, rfl⟩
  refine ⟨rfl, ?_⟩
  rintro ⟨ctx', p, y, hmem⟩
  cases List.mem_singleton.mp hmem

/-- Resolving the settings and building the plugin, whatever is done with it: both
    succeed and the rest is run, or the plugin cannot be built and nothing is
    discovered. -/
theorem runs_built {α : Type} (ctx : Ctx) (host plugin : Bytes) (srv : Server)
    (wrap wrap' : Bytes → Bytes) (k : Option PluginConfig → Unit → Proc S (Except Bytes α))
    (hsrv : c.inventory.servers.lookup host = some srv) (hplugin : plugin ∈ c.factories)
    (tr : Trace (Op S) Ans) (r : Except Bytes α)
    (hr : Runs (check (resolvePluginConfig ctx host plugin srv) wrap fun cfg =>
      check (call (.factory ⟨plugin, srv, cfg, c.tempDir⟩)) wrap' (k cfg)) tr r)
    (hobeys : env.Obeys tr) :
    (¬ c.Usable env host plugin ∧ ¬ Discovers tr ∧ ∃ err, r = .error err) ∨
      c.Usable env host plugin ∧ ∃ cfg tr₁ tr₂, tr = tr₁ ++ tr₂ ∧ Runs (k cfg ()) tr₂ r := by
  rcases (runs_check_iff _ _ _ _ _).mp hr with
    ⟨tr₁, tr₂, cfg, rfl, hresolve, hrest⟩ | ⟨err, hresolve, rfl⟩
  · rcases (env.obeys_append _ _).mp hobeys with ⟨hobeys₁, hobeys₂⟩
    -- The settings were found, and the factory is asked next.
    rcases resolved_eq env ctx host plugin srv tr₁ _ hresolve hobeys₁ with ⟨hcfg, hquiet⟩
    rcases (runs_call_iff _ _ _ _).mp hrest with ⟨x, tr₃, rfl, hk⟩
    have hx := hobeys₂ _ List.mem_cons_self
    change x = env.factory _ at hx
    cases x with
    | ok built =>
        exact Or.inr ⟨⟨srv, cfg, hsrv, hplugin, hcfg.symm, hx.symm⟩, cfg, _, tr₃,
          (List.append_cons tr₁ _ tr₃), hk⟩
    | error err =>
        rcases (runs_ret_iff _ _ _).mp hk with ⟨rfl, rfl⟩
        -- Whoever finds the plugin usable has found the same server and settings.
        refine Or.inl ⟨?_, ?_, _, rfl⟩
        · rintro ⟨srv', cfg', hsrv', _, hcfg', hfactory⟩
          cases hsrv.symm.trans hsrv'
          cases hcfg.trans hcfg'
          exact absurd (hx.trans hfactory) (fun h => nomatch h)
        · rintro ⟨ctx', p, y, hmem⟩
          rcases List.mem_append.mp hmem with hmem | hmem
          · exact hquiet ⟨ctx', p, y, hmem⟩
          · cases List.mem_singleton.mp hmem
  · rcases resolved_eq env ctx host plugin srv tr _ hresolve hobeys with ⟨hcfg, hquiet⟩
    -- The settings already were an error.
    refine Or.inl ⟨?_, hquiet, _, rfl⟩
    rintro ⟨srv', cfg', hsrv', _, hcfg', _⟩
    cases hsrv.symm.trans hsrv'
    exact absurd (hcfg.trans hcfg') (fun h => nomatch h)

/-- `BuildPlugin` succeeds exactly if the plugin can be built. -/
theorem built_iff (ctx : Ctx) (host plugin : Bytes) (tr : Trace (Op S) Ans)
    (r : Except Bytes Instance) (hr : Runs (c.buildPlugin ctx host plugin) tr r)
    (hobeys : env.Obeys tr) : (∃ p, r = .ok p) ↔ c.Usable env host plugin := by
  unfold buildPlugin at hr
  cases hsrv : c.inventory.servers.lookup host with
  | none =>
      rw [hsrv] at hr
      rcases (runs_ret_iff _ _ _).mp hr with ⟨_, rfl⟩
      refine iff_of_false (fun h => nomatch h) ?_
      rintro ⟨srv, _, hsrv', _⟩
      cases hsrv.symm.trans hsrv'
  | some srv =>
      simp only [hsrv] at hr
      by_cases hplugin : plugin ∈ c.factories
      · rw [if_neg (not_not_intro hplugin)] at hr
        rcases runs_built c env ctx host plugin srv _ _ _ hsrv hplugin tr r hr hobeys with
          ⟨hnot, _, err, rfl⟩ | ⟨husable, cfg, tr₁, tr₂, _, hk⟩
        · exact iff_of_false (fun h => nomatch h) hnot
        · rcases (runs_ret_iff _ _ _).mp hk with ⟨_, rfl⟩
          exact iff_of_true ⟨_, rfl⟩ husable
      · -- A plugin that is not registered is refused without a call.
        rw [if_pos hplugin] at hr
        rcases (runs_ret_iff _ _ _).mp hr with ⟨_, rfl⟩
        refine iff_of_false (fun h => nomatch h) ?_
        rintro ⟨_, _, _, hplugin', _⟩
        exact hplugin hplugin'

/-- A pipeline gets to discovery exactly if the plugin can be built. -/
theorem discovers_pipeline_iff (ctx : Ctx) (job : Job) (srv : Server) (sp : S)
    (hsrv : c.inventory.servers.lookup job.host = some srv) (hplugin : job.plugin ∈ c.factories)
    (tr : Trace (Op S) Ans) (r : Except Bytes Unit)
    (hr : Runs (c.runPipeline ctx job srv sp) tr r) (hobeys : env.Obeys tr) :
    Discovers tr ↔ c.Usable env job.host job.plugin := by
  rcases runs_built c env ctx job.host job.plugin srv _ _ _ hsrv hplugin tr r hr hobeys with
    ⟨hnot, hquiet, _⟩ | ⟨husable, cfg, tr₁, tr₂, rfl, hk⟩
  · exact iff_of_false hquiet hnot
  · -- The announcement reads the clock and publishes, and then discovery is called.
    rcases (runs_publish_iff _ _ _ _ _).mp hk with ⟨_, tr₃, rfl, hdiscover⟩
    rcases (runs_call_iff _ _ _ _).mp hdiscover with ⟨x, tr₄, rfl, _⟩
    refine iff_of_true ⟨_, _, x, List.mem_append_right _ ?_⟩ husable
    exact List.mem_cons_of_mem _ (List.mem_cons_of_mem _ List.mem_cons_self)

/-- A job whose repository is configured gets to discovery exactly if its plugin
    can be built. -/
theorem discovers_iff (hstorage : c.StorageChecked) (job : Job) (tr : Trace (Op S) Ans)
    (r : Except Bytes Unit) (hr : Runs (c.runJob job) tr r) (hobeys : env.Obeys tr) :
    Discovers tr ↔ c.Usable env job.host job.plugin := by
  have hnothing : ¬ Discovers ([] : Trace (Op S) Ans) := fun ⟨_, _, _, h⟩ => List.not_mem_nil h
  unfold runJob at hr
  cases hsrv : c.inventory.servers.lookup job.host with
  | none =>
      rw [hsrv] at hr
      rcases (runs_ret_iff _ _ _).mp hr with ⟨rfl, _⟩
      refine iff_of_false hnothing ?_
      rintro ⟨srv, _, hsrv', _⟩
      cases hsrv.symm.trans hsrv'
  | some srv =>
      simp only [hsrv] at hr
      by_cases hplugin : job.plugin ∈ c.factories
      · rcases hstorage job.host srv hsrv with ⟨sp, hsp⟩
        rw [if_neg (not_not_intro hplugin), hsp] at hr
        rcases (runs_call_iff _ _ _ _).mp hr with ⟨x, tr₁, rfl, hmarked⟩
        -- The job is marked, since its status can be written.
        have hx := hobeys _ List.mem_cons_self
        change x = .ok () at hx
        subst hx
        rcases (runs_publish_iff _ _ _ _ _).mp hmarked with ⟨t, tr₂, rfl, hrest⟩
        rcases (runs_bind_iff _ _ _ _).mp hrest with ⟨tr₃, tr₄, result, rfl, hpipeline, hend⟩
        rcases (runs_publish_iff _ _ _ _ _).mp hend with ⟨t', tr₅, rfl, hfinal⟩
        rcases (runs_call_iff _ _ _ _).mp hfinal with ⟨y, tr₆, rfl, hret⟩
        rcases (runs_ret_iff _ _ _).mp hret with ⟨rfl, _⟩
        simp only [BuildEnvironment.obeys_cons, BuildEnvironment.obeys_append] at hobeys
        have hiff := discovers_pipeline_iff c env c.pipelineCtx job srv sp hsrv hplugin tr₃ result
          hpipeline hobeys.2.2.2.1
        -- Around the pipeline only the status is written and events are announced.
        refine Iff.trans ⟨?_, ?_⟩ hiff
        · rintro ⟨ctx, p, z, hmem⟩
          simp only [List.mem_cons, List.mem_append, Sigma.mk.injEq, reduceCtorEq, false_and,
            false_or, List.not_mem_nil, or_false] at hmem
          exact ⟨ctx, p, z, hmem⟩
        · rintro ⟨ctx, p, z, hmem⟩
          refine ⟨ctx, p, z, ?_⟩
          simp only [List.mem_cons, List.mem_append, hmem, true_or, or_true]
      · rw [if_pos hplugin] at hr
        rcases (runs_ret_iff _ _ _).mp hr with ⟨rfl, _⟩
        refine iff_of_false hnothing ?_
        rintro ⟨_, _, _, hplugin', _⟩
        exact hplugin hplugin'

/-- The operations of a check neither create a job nor enqueue one. -/
theorem built_quiet (ctx : Ctx) (host plugin : Bytes) (tr : Trace (Op S) Ans)
    (r : Except Bytes Instance) (hr : Runs (c.buildPlugin ctx host plugin) tr r) :
    ∀ e ∈ tr, e.1.touchesJobs = false :=
  (calls_iff_runs _ ans_nonempty _).mp
    (calls_buildPlugin (P := fun o => o.touchesJobs = false) c ctx host plugin rfl fun _ => rfl)
    tr r hr

end Controller

namespace Api

/-- Once the plugin is built, the answer is that the job was accepted or that it
    could not be created. -/
theorem status_created (policy : Policy) (host plugin : Bytes) (tr : Trace (Op S) Ans)
    (response : Response D)
    (hr : Runs (do
      let job ← createNewJob host plugin policy
      match ← store .caller (.createJob job) with
      | .error err => return writeError 500 ("create job: " ++ err)
      | .ok _ =>
          publish .caller ⟨.backupRequested, job.id, host, plugin, [], [], 0⟩
          let _ ← call (.enqueue job)
          return ⟨202, .job (newJobSummary job)⟩) tr response) : response.status ≠ 404 := by
  rcases (runs_call_iff _ _ _ _).mp hr with ⟨unixNano, tr₁, rfl, hclock⟩
  rcases (runs_call_iff _ _ _ _).mp hclock with ⟨queuedAt, tr₂, rfl, hcreate⟩
  rcases (runs_call_iff _ _ _ _).mp hcreate with ⟨created, tr₃, rfl, hrest⟩
  cases created with
  | error err =>
      rcases (runs_ret_iff _ _ _).mp hrest with ⟨_, rfl⟩
      exact fun h => nomatch h
  | ok done =>
      rcases (runs_publish_iff _ _ _ _ _).mp hrest with ⟨t, tr₄, rfl, henqueue⟩
      rcases (runs_call_iff _ _ _ _).mp henqueue with ⟨x, tr₅, rfl, hret⟩
      rcases (runs_ret_iff _ _ _).mp hret with ⟨_, rfl⟩
      exact fun h => nomatch h

/-- A request that names a host and a plugin passes its check exactly if its job
    gets to discovery, in any environment and for any controller whose servers'
    repositories are configured. One that does not pass creates no job and
    enqueues nothing. -/
theorem trigger_agrees (c : Controller S) (hstorage : c.StorageChecked) (env : BuildEnvironment)
    (body : FileContent) (host plugin : Bytes)
    (hbody : TriggerBackupRequest.decode body = some ⟨host, plugin⟩) (hhost : host ≠ [])
    (hplugin : plugin ≠ []) (tr : Trace (Op S) Ans) (response : Response D)
    (hr : Runs (triggerBackup c body) tr response) (hobeys : env.Obeys tr) :
    (∀ job : Job, job.host = host → job.plugin = plugin →
      (∃ tr' r', Runs (c.runJob job) tr' r' ∧ env.Obeys tr') ∧
      ∀ tr' r', Runs (c.runJob job) tr' r' → env.Obeys tr' →
        (response.status ≠ 404 ↔ Discovers tr')) ∧
    (response.status = 404 → ∀ e ∈ tr, e.1.touchesJobs = false) := by
  unfold triggerBackup at hr
  rw [hbody] at hr
  simp only [hhost, hplugin, or_self, if_false] at hr
  rcases (runs_bind_iff _ _ _ _).mp hr with ⟨tr₁, tr₂, built, rfl, hbuild, hrest⟩
  have hbuilt := c.built_iff env .caller host plugin tr₁ built hbuild
    ((env.obeys_append _ _).mp hobeys).1
  have hquiet := c.built_quiet .caller host plugin tr₁ built hbuild
  -- A refusal is the only answer with its status, and nothing follows it.
  have hanswer : (response.status ≠ 404 ↔ ∃ p, built = .ok p) ∧
      (response.status = 404 → tr₂ = []) := by
    cases built with
    | error err =>
        rcases (runs_ret_iff _ _ _).mp hrest with ⟨rfl, rfl⟩
        exact ⟨iff_of_false (not_not_intro rfl) (fun h => nomatch h), fun _ => rfl⟩
    | ok p =>
        have hstatus := status_created p.server.retention host plugin tr₂ response hrest
        exact ⟨iff_of_true hstatus ⟨p, rfl⟩, fun h => absurd h hstatus⟩
  refine ⟨?_, ?_⟩
  · rintro job rfl rfl
    refine ⟨env.exists_obeys (c.runJob job), fun tr' r' hr' hobeys' => ?_⟩
    rw [hanswer.1, hbuilt]
    exact (c.discovers_iff env hstorage job tr' r' hr' hobeys').symm
  · intro hrefused e he
    rw [hanswer.2 hrefused, List.append_nil] at he
    exact hquiet e he

/-! ### A request for one host -/

deriving instance DecidableEq for TriggerBackupRequest

/-- A request and a job for the same host and plugin agree. -/
theorem trigger_agrees_files :
    ∃ tr tr' r', ∃ response : Response Unit,
      Runs (triggerBackup (hostController "web" filesServer backupRepo :
        Controller ResticProvider) ⟨"\x7b\"host\":\"web\",\"plugin\":\"files\"\x7d", none⟩)
          tr response ∧
      Runs ((hostController "web" filesServer backupRepo :
        Controller ResticProvider).runJob filesJob) tr' r' ∧
      (response.status ≠ 404 ↔ Discovers tr') := by
  let c : Controller ResticProvider := hostController "web" filesServer backupRepo
  let env : BuildEnvironment := ⟨fun _ _ => none, fun _ => .ok ()⟩
  rcases env.exists_obeys (triggerBackup c
    ⟨"\x7b\"host\":\"web\",\"plugin\":\"files\"\x7d", none⟩ : Proc _ (Response Unit)) with
    ⟨tr, response, hr, hobeys⟩
  have hagrees := trigger_agrees c (storageChecked_host "web" filesServer backupRepo rfl) env
    ⟨"\x7b\"host\":\"web\",\"plugin\":\"files\"\x7d", none⟩ "web" "files" (by decide +kernel)
    (by decide) (by decide) tr response hr hobeys
  rcases hagrees.1 filesJob rfl rfl with ⟨⟨tr', r', hr', hobeys'⟩, hall⟩
  exact ⟨tr, tr', r', response, hr, hr', hall tr' r' hr' hobeys'⟩

end Api

end Bop
