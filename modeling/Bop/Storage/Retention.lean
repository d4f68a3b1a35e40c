import Bop.Api.Handlers
import Bop.Cli
import Bop.Controller.Calls
import Bop.Scheduler
import Bop.Storage.Reading

/-!
# Whose Snapshots a Job Removes

A job ends with one retention call, and what restic removes depends on the
options that call carries: without `--host` the policy applies to the whole
repository. The provider passes the option when the host it is given is not
empty, so one question is which hosts jobs have. The API and the command line
refuse an empty one. The inventory does not: it checks what a server is
configured with and not the name it is configured under, and the scheduler
takes every server.

The other question is what the operator's extra arguments add. They follow the
provider's own, so they may name further hosts, another repository or grouping
and other values to keep, and the last value counts.

Restic itself is known by what it documents: only `forget` removes snapshots,
with `--host` only those of that host, and otherwise any (`RepoSem`).

## Main definitions

* `Persists`, `JobSource`: Where a job comes from.
* `ForgetScoped`: A retention that is scoped to its job's host.
* `Restic.RepoSem`: What a run may remove.
* `RetentionScoped`: All that a job may do to repositories.
* `Restic.KeepsScope`: The extra arguments leave a job's retention to its host.

## Theorems

* `scoped_iff`: The retentions that are scoped.
* `retention_scoped_iff`: When a job keeps to its host.
* `unnamed_not_scoped`: A job of a server without a name does not.
-/

namespace Bop

open Prog

variable {S α : Type}

/-! ### Where jobs come from -/

/-- The program can persist this job. -/
def Persists (p : Proc S α) (job : Job) : Prop :=
  ∃ tr a ctx x, Runs p tr a ∧ (⟨.store ctx (.createJob job), x⟩ : Prog.Event (Op S) Ans) ∈ tr

/-- Where a job comes from: a schedule, a request or the command line. -/
inductive JobSource (c : Controller S) (job : Job) : Prop
  | scheduled (host : Bytes) (srv : Server) (order : List Bytes)
      (hsrv : c.inventory.servers.lookup host = some srv) (hschedule : srv.schedule ≠ [])
      (horder : order.Perm srv.plugins.keys)
      (h : Persists (Scheduler.dispatch host srv order : Proc S Unit) job)
  | triggered (body : FileContent)
      (h : Persists (Api.triggerBackup c body : Proc S (Api.Response Unit)) job)
  | command (host plugin : Bytes) (h : Persists (Cli.backup c host plugin) job)

/-- Every repository a server names is configured. -/
def Controller.StorageChecked (c : Controller S) : Prop :=
  ∀ host srv, c.inventory.servers.lookup host = some srv → ∃ sp, c.storageFor host = .ok sp

/-- A bound on the jobs a program persists. -/
def PersistsOnly (Q : Job → Prop) (o : Op S) : Prop :=
  ∀ ctx job, o = .store ctx (.createJob job) → Q job

theorem of_persists (Q : Job → Prop) (p : Proc S α) (hp : Calls (PersistsOnly Q) p) (job : Job)
    (h : Persists p job) : Q job := by
  rcases h with ⟨tr, a, ctx, x, hr, hmem⟩
  exact (calls_iff_runs _ ans_nonempty p).mp hp tr a hr _ hmem ctx job rfl

/-- Persisting one job and going on, as schedules and requests do. -/
theorem calls_createNewJob (Q : Job → Prop) (host plugin : Bytes) (policy : Policy)
    (hQ : ∀ unixNano queuedAt, Q (newJob host plugin policy unixNano queuedAt)) (ctx : Ctx)
    (k : Job → Except Bytes Unit → Proc S α)
    (hk : ∀ job x, Calls (PersistsOnly Q) (k job x)) :
    Calls (PersistsOnly Q) (do
      let job ← createNewJob host plugin policy
      let x ← store ctx (.createJob job)
      k job x) := by
  have hnow : PersistsOnly Q (.now : Op S) := fun _ _ h => by cases h
  refine ⟨hnow, fun unixNano => ⟨hnow, fun queuedAt => ⟨?_, fun x => hk _ x⟩⟩⟩
  intro ctx' job heq
  cases heq
  exact hQ unixNano queuedAt

/-- Announcing a job and enqueueing it persists nothing. -/
theorem calls_announce (Q : Job → Prop) (ctx : Ctx) (e : Event) (job : Job) (k : Proc S α)
    (hk : Calls (PersistsOnly Q) k) :
    Calls (PersistsOnly Q) (do
      publish ctx e
      let _ ← call (.enqueue job)
      k) :=
  ⟨fun _ _ h => (by cases h), fun _ => ⟨fun _ _ h => (by cases h), fun _ =>
    ⟨fun _ _ h => (by cases h), fun _ => hk⟩⟩⟩

/-- Every job is for a server of the inventory. -/
theorem source_lookup (c : Controller S) (job : Job) (h : JobSource c job) :
    ∃ srv, c.inventory.servers.lookup job.host = some srv := by
  cases h with
  | scheduled host srv order hsrv _ horder h =>
      refine of_persists (fun job => ∃ srv, c.inventory.servers.lookup job.host = some srv) _ ?_
        job h
      clear h horder
      -- The dispatch looks the server up once, before any of its jobs.
      induction order with
      | nil => trivial
      | cons plugin rest ih =>
          refine calls_createNewJob _ host plugin srv.retention (fun _ _ => ⟨srv, hsrv⟩) _ _ ?_
          intro job x
          cases x with
          | error err => exact ih
          | ok u => exact calls_announce _ _ _ _ _ ih
  | triggered body h =>
      refine of_persists (fun job => ∃ srv, c.inventory.servers.lookup job.host = some srv) _ ?_
        job h
      unfold Api.triggerBackup
      split
      · trivial
      · next req _ =>
          split
          · trivial
          · unfold Controller.buildPlugin
            -- Building the plugin looks the server up, and without it no job is made.
            cases hsrv : c.inventory.servers.lookup req.host with
            | none => trivial
            | some srv =>
                simp only
                refine calls_bind _ _ _ ?_ fun r => ?_
                · split
                  · trivial
                  · refine calls_check _ _ _ _ (calls_check _ _ _ _
                      (calls_call _ fun _ _ h => by cases h) fun _ => trivial) fun cfg => ?_
                    exact calls_check _ _ _ _ (calls_call _ fun _ _ h => by cases h)
                      fun _ => trivial
                · cases r with
                  | error err => trivial
                  | ok p =>
                      refine calls_createNewJob _ req.host req.plugin p.server.retention
                        (fun _ _ => ⟨srv, hsrv⟩) _ _ fun job x => ?_
                      cases x with
                      | error err => trivial
                      | ok u => exact calls_announce _ _ _ _ _ trivial
  | command host plugin h =>
      refine of_persists (fun job => ∃ srv, c.inventory.servers.lookup job.host = some srv) _ ?_
        job h
      unfold Cli.backup
      split
      · trivial
      · cases hsrv : c.inventory.servers.lookup host with
        | none => trivial
        | some srv =>
            refine calls_createNewJob _ host plugin srv.retention (fun _ _ => ⟨srv, hsrv⟩) _ _
              fun job x => ?_
            cases x with
            | error err => trivial
            | ok u =>
                refine calls_check _ _ _ _ (Controller.calls_runJob c job
                  (fun _ _ _ _ h => by cases h) (fun _ _ _ h => by cases h) fun sp _ => ?_)
                  fun _ => trivial
                constructor <;> intros <;> intro _ _ h <;> cases h

/-! ### What a retention asks for -/

/-- A retention that carries its job's host and no other, groups by host and
    tags, keeps something the job's policy asks for and is about no particular
    snapshots. An empty value of `--host` names no host. -/
structure ForgetScoped (job : Job) (cmd : ResticCommand) : Prop where
  named : job.host ≠ []
  host : job.host ∈ cmd.given.values hostFlag
  only : ∀ host ∈ cmd.given.values hostFlag, host = job.host
  group : cmd.given.last groupFlag = some hostTags
  keep : ∃ kv ∈ keepOptions job.policy, 0 < kv.2 ∧ cmd.given.last kv.1 = some (itoa kv.2)
  operands : cmd.given.operands = []

namespace Restic

variable (r : Restic)

/-- The extra arguments leave the retention of a job to its host, unless restic
    refuses them or writes its help text: the host has a name, and they name no
    snapshot, no other repository, host or grouping, and no other value for some
    positive value of the policy. -/
def KeepsScope (p : ResticProvider) (job : Job) : Prop :=
  ∀ extra, (r.table "forget").parse p.extraArgs = some extra →
    extra.last helpFlag ≠ some "true" →
    job.host ≠ [] ∧ extra.operands = [] ∧
    (∀ repository, extra.last repoFlag = some repository → repository = p.repository) ∧
    (∀ host ∈ extra.values hostFlag, host = job.host) ∧
    (∀ group, extra.last groupFlag = some group → group = hostTags) ∧
    ∃ kv ∈ keepOptions job.policy, 0 < kv.2 ∧
      ∀ value, extra.last kv.1 = some value → value = itoa kv.2

end Restic

/-- A value that is given counts unless another is given after it. -/
theorem or_eq_some_iff {α : Type} (later : Option α) (v : α) :
    later.or (some v) = some v ↔ ∀ w, later = some w → w = v := by
  cases later with
  | none => simp only [Option.none_or, reduceCtorEq, false_implies, implies_true]
  | some w => simp only [Option.some_or, Option.some.injEq, forall_eq']

section Scope

variable (p : ResticProvider) (job : Job) (extra : Given)

/-- The retention of a job with what the extra arguments add. -/
abbrev extended : ResticCommand := ⟨"forget", (forgetGiven p job.host job.policy).append extra⟩

theorem repository_extended :
    (extended p job extra).repository = p.repository ↔
      ∀ repository, extra.last repoFlag = some repository → repository = p.repository := by
  have hown : (forgetGiven p job.host job.policy).last repoFlag = some p.repository :=
    forgetGiven_last _ _ _ _ _ List.mem_cons_self
  rw [ResticCommand.repository, Given.last_append, hown, ← or_eq_some_iff]
  cases extra.last repoFlag with
  | none => simp only [Option.none_or, Option.getD_some]
  | some repository => simp only [Option.some_or, Option.getD_some, Option.some.injEq]

/-- It asks for the help text where the extra arguments do. -/
theorem help_extended : (extended p job extra).given.last helpFlag = extra.last helpFlag := by
  have hown : (forgetGiven p job.host job.policy).last helpFlag = none := by
    rw [Given.last, Given.values_eq_nil _ _ fun kv hkv heq => ?_, List.getLast?_nil]
    have hflag := forgetGiven_flags p job.host job.policy kv hkv
    rw [heq] at hflag
    exact absurd hflag (by decide)
  rw [Given.last_append, hown, Option.or_none]

/-- The hosts it names. -/
theorem hosts_extended (hhost : job.host ≠ []) :
    (extended p job extra).given.values hostFlag = job.host :: extra.values hostFlag := by
  have hmem : (hostFlag, job.host) ∈ (forgetGiven p job.host job.policy).flags := by
    refine List.mem_append_right _ (List.mem_append_left _ ?_)
    rw [hostOption, if_pos hhost]
    exact List.mem_singleton_self _
  rw [Given.values_append, forgetGiven_values _ _ _ _ _ hmem, List.singleton_append]

/-- It is scoped to the job's host exactly where the extra arguments leave it
    so. -/
theorem scoped_iff :
    (extended p job extra).repository = p.repository ∧ ForgetScoped job (extended p job extra) ↔
      job.host ≠ [] ∧ extra.operands = [] ∧
      (∀ repository, extra.last repoFlag = some repository → repository = p.repository) ∧
      (∀ host ∈ extra.values hostFlag, host = job.host) ∧
      (∀ group, extra.last groupFlag = some group → group = hostTags) ∧
      ∃ kv ∈ keepOptions job.policy, 0 < kv.2 ∧
        ∀ value, extra.last kv.1 = some value → value = itoa kv.2 := by
  have hgroup : (extended p job extra).given.last groupFlag = some hostTags ↔
      ∀ group, extra.last groupFlag = some group → group = hostTags := by
    rw [Given.last_append, forgetGiven_last p job.host job.policy groupFlag hostTags
      (List.mem_cons_of_mem _ List.mem_cons_self), or_eq_some_iff]
  -- A positive value of the policy is passed on, and counts unless it is given again.
  have hkeep : ∀ kv ∈ keepOptions job.policy, 0 < kv.2 →
      ((extended p job extra).given.last kv.1 = some (itoa kv.2) ↔
        ∀ value, extra.last kv.1 = some value → value = itoa kv.2) := by
    intro kv hkv hpos
    have hmem : (kv.1, itoa kv.2) ∈ (forgetGiven p job.host job.policy).flags :=
      List.mem_append_right _ (List.mem_append_right _ (List.mem_map.mpr
        ⟨kv, List.mem_filter.mpr ⟨hkv, decide_eq_true hpos⟩, rfl⟩))
    rw [Given.last_append, forgetGiven_last p job.host job.policy _ _ hmem, or_eq_some_iff]
  rw [repository_extended]
  constructor
  · rintro ⟨hrepo, hnamed, _, honly, hg, ⟨kv, hkv, hpos, hlast⟩, hoperands⟩
    rw [hosts_extended p job extra hnamed] at honly
    exact ⟨hnamed, hoperands, hrepo, fun host hhost => honly host (List.mem_cons_of_mem _ hhost),
      hgroup.mp hg, kv, hkv, hpos, (hkeep kv hkv hpos).mp hlast⟩
  · rintro ⟨hnamed, hoperands, hrepo, honly, hg, kv, hkv, hpos, hlast⟩
    refine ⟨hrepo, hnamed, ?_, ?_, hgroup.mpr hg, ⟨kv, hkv, hpos, (hkeep kv hkv hpos).mpr hlast⟩,
      hoperands⟩
    · rw [hosts_extended p job extra hnamed]
      exact List.mem_cons_self
    · intro host hhost
      rw [hosts_extended p job extra hnamed] at hhost
      rcases List.mem_cons.mp hhost with heq | hhost
      · exact heq
      · exact honly host hhost

end Scope

/-! ### What a job may remove -/

/-- A snapshot in a repository. -/
structure RepoSnapshot where
  id : SnapshotID
  hostname : Bytes

section Removal

variable (r : Restic)

/-- Only `forget` removes snapshots, from its repository: those of the hosts it
    names, any where it names none, and those it is given by their identifiers. -/
def Restic.MayForget (args : List Bytes) (repo : Bytes) (snap : RepoSnapshot) : Prop :=
  ∃ cmd, r.read args = some cmd ∧ cmd.forgets ∧ cmd.repository = repo ∧
    (cmd.given.operands ≠ [] ∨ cmd.considers snap.hostname = true)

/-- What a run may remove from the repositories. -/
def Restic.RepoSem : Semantics ResticOp ResticAns (Bytes → Set RepoSnapshot)
  | w, .run args, _, w' => ∀ repo, ∀ snap ∈ w repo, snap ∉ w' repo → r.MayForget args repo snap
  | w, .other _, _, w' => w' = w

/-- A run that is a retention is one of the job's own, scoped to its host. -/
def ScopedRun (c : Controller ResticProvider) (job : Job) : ResticOp → Prop
  | .run args => ∀ cmd, r.read args = some cmd → cmd.forgets →
      ∃ p, c.storageFor job.host = .ok p ∧ cmd.repository = p.repository ∧ ForgetScoped job cmd
  | .other _ => True

/-- Every retention a job causes is on its host's repository and scoped to its
    host, and it removes no other host's snapshots. -/
def RetentionScoped (c : Controller ResticProvider) (job : Job) : Prop :=
  ∀ tr x, Runs (withRestic (c.runJob job)) tr x →
    (∀ e ∈ tr, ScopedRun r c job e.1) ∧
    ∀ w w', Steps r.RepoSem w tr w' → ∀ repo, ∀ snap ∈ w repo, snap ∉ w' repo →
      snap.hostname = job.host

variable {r}

/-- A retention that is scoped considers no other host. -/
theorem considers_of_scoped (job : Job) (cmd : ResticCommand) (h : ForgetScoped job cmd)
    (hostname : Bytes) (hconsiders : cmd.considers hostname = true) : hostname = job.host := by
  simp only [ResticCommand.considers, Bool.or_eq_true, decide_eq_true_eq] at hconsiders
  rcases hconsiders with (hnone | hempty) | hmem
  · have hhost := h.host
    rw [hnone] at hhost
    cases hhost
  · exact absurd (h.only _ hempty).symm h.named
  · exact h.only _ hmem

/-- Runs that are scoped remove no other host's snapshots. -/
theorem kept_of_scoped (c : Controller ResticProvider) (job : Job) (tr : Trace ResticOp ResticAns)
    (htr : ∀ e ∈ tr, ScopedRun r c job e.1) (w w' : Bytes → Set RepoSnapshot)
    (hs : Steps r.RepoSem w tr w') (repo : Bytes) (snap : RepoSnapshot) (hsnap : snap ∈ w repo)
    (hgone : snap ∉ w' repo) : snap.hostname = job.host := by
  by_contra hother
  refine hgone (steps_invariant r.RepoSem (ScopedRun r c job) (fun w => snap ∈ w repo) ?_ tr w w' hs
    htr hsnap)
  intro w o x w' ho hsem hmem
  cases o with
  | other o => rw [show w' = w from hsem]; exact hmem
  | run args =>
      by_contra hgone
      rcases hsem repo snap hmem hgone with ⟨cmd, hread, hforgets, _, hnamed⟩
      rcases ho cmd hread hforgets with ⟨_, _, _, hscoped⟩
      rcases hnamed with hoperands | hconsiders
      · exact hoperands hscoped.operands
      · exact hother (considers_of_scoped job cmd hscoped _ hconsiders)

/-- What each operation of a job may run: a retention is on the host's own
    repository, with the job's host and policy. -/
def OwnRetention (c : Controller ResticProvider) (job : Job) : Op ResticProvider → Prop
  | .applyRetention _ p host policy =>
      c.storageFor job.host = .ok p ∧ host = job.host ∧ policy = job.policy
  | _ => True

theorem calls_ownRetention (c : Controller ResticProvider) (job : Job) :
    Calls (OwnRetention c job) (c.runJob job) := by
  refine Controller.calls_runJob c job (fun _ _ => trivial) (fun _ => trivial) fun sp hsp => ?_
  constructor <;> intros <;> trivial

/-- Of what an operation runs only a retention is a `forget`. -/
theorem calls_resticImpl (P : ResticOp → Prop) (hother : ∀ o, P (.other o))
    (hread : ∀ (p : ResticProvider) (name : Bytes) args, name ≠ "forget" →
      P (.run (p.fullArgs (name :: args))))
    (o : Op ResticProvider)
    (hforget : ∀ ctx p host policy, o = .applyRetention ctx p host policy →
      hasPolicy policy = true → P (.run (p.fullArgs (ResticProvider.forgetArgs host policy)))) :
    Calls P (resticImpl o) := by
  cases o with
  | storeArtifact ctx p a =>
      -- Neither of the other two commands is a removal.
      refine calls_check _ _ _ _ ⟨?_, fun _ => trivial⟩ fun out => ?_
      · rw [storeArgs_eq]
        exact hread p _ _ (by decide)
      · split <;> trivial
  | verifySnapshot ctx p id =>
      refine calls_check _ _ _ _ ⟨hread p _ _ (by decide), fun _ => trivial⟩ fun out => ?_
      split <;> trivial
  | applyRetention ctx p host policy =>
      change Calls _ (ResticProvider.applyRetention p host policy)
      unfold ResticProvider.applyRetention
      split
      · trivial
      · next hpolicy =>
          have hpolicy' : hasPolicy policy = true := by
            simpa only [Bool.not_eq_false] using hpolicy
          exact calls_check _ _ _ _ ⟨hforget ctx p host policy rfl hpolicy', fun _ => trivial⟩
            fun _ => trivial
  | _ => exact ⟨hother _, fun _ => trivial⟩

/-- The retention of a job is scoped exactly where the extra arguments leave it
    to its host. -/
theorem scopedRun_forget_iff (c : Controller ResticProvider) (job : Job) (p : ResticProvider)
    (hp : c.storageFor job.host = .ok p) :
    ScopedRun r c job (.run (p.fullArgs (ResticProvider.forgetArgs job.host job.policy))) ↔
      r.KeepsScope p job := by
  have hread := read_forgetArgs r p job.host job.policy
  constructor
  · intro h extra hextra hhelp
    rw [hextra, Option.map_some] at hread
    have hforgets : (extended p job extra).forgets := ⟨rfl, by rw [help_extended]; exact hhelp⟩
    rcases h _ hread hforgets with ⟨p', hp', hrepo, hscoped⟩
    rw [hp] at hp'
    cases hp'
    exact (scoped_iff p job extra).mp ⟨hrepo, hscoped⟩
  · intro h cmd hcmd hforgets
    rw [hread] at hcmd
    rcases Option.map_eq_some_iff.mp hcmd with ⟨extra, hextra, rfl⟩
    have hhelp : extra.last helpFlag ≠ some "true" := by
      rw [← help_extended p job extra]
      exact hforgets.2
    rcases (scoped_iff p job extra).mpr (h extra hextra hhelp) with ⟨hrepo, hscoped⟩
    exact ⟨p, hp, hrepo, hscoped⟩

/-- A job whose retention is scoped, or never gets to run one, only makes scoped
    runs. -/
theorem calls_scoped (c : Controller ResticProvider) (job : Job)
    (h : hasPolicy job.policy = true → ∀ p, c.storageFor job.host = .ok p → r.KeepsScope p job) :
    Calls (ScopedRun r c job) (withRestic (c.runJob job)) := by
  refine calls_interp (OwnRetention c job) _ _ ?_ _ (calls_ownRetention c job)
  intro o ho
  refine calls_resticImpl _ (fun _ => trivial) (fun p name args hname cmd hcmd hforgets => ?_) o
    fun ctx p host policy heq hpolicy => ?_
  · exact absurd ((read_name r p name args cmd hcmd).symm.trans hforgets.1) hname
  · subst heq
    rcases ho with ⟨hsp, rfl, rfl⟩
    exact (scopedRun_forget_iff c job p hsp).mpr (h hpolicy p hsp)

/-- A job that can get to its retention makes it. -/
theorem forgets (c : Controller ResticProvider) (job : Job) (srv : Server)
    (hsrv : c.inventory.servers.lookup job.host = some srv) (sp : ResticProvider)
    (hsp : c.storageFor job.host = .ok sp) (hplugin : job.plugin ∈ c.factories)
    (hpolicy : hasPolicy job.policy = true)
    (h : Calls (ScopedRun r c job) (withRestic (c.runJob job))) : r.KeepsScope sp job := by
  have hrun : c.runJob job = check (store .caller (.updateJobStatus job.id .inProgress))
      (fun err => "controller: mark job " ++ job.id ++ " in_progress: " ++ err)
      (fun _ => c.runMarked job srv sp) := by
    simp only [Controller.runJob, hsrv, hplugin, not_true_eq_false, if_false, hsp]
  have happly : ResticProvider.applyRetention sp job.host job.policy =
      check (sp.run (ResticProvider.forgetArgs job.host job.policy)) ("restic forget: " ++ ·)
        (fun _ => return .ok ()) := by
    simp only [ResticProvider.applyRetention, hpolicy, Bool.true_eq_false, if_false]
  rw [hrun] at h
  -- Every step before the retention succeeds, and there is nothing to back up.
  have hstarted := h.2 (.ok ())
  have hsettings := (hstarted.2 (0 : Int)).2 ()
  have hfactory := hsettings.2 (.ok (some "null"))
  have hbegun := hfactory.2 (.ok ())
  have hdiscover := (hbegun.2 (0 : Int)).2 ()
  have hfound := hdiscover.2 (.ok [])
  have hretention : Calls (ScopedRun r c job)
      (ResticProvider.applyRetention sp job.host job.policy >>= _) := (hfound.2 (0 : Int)).2 ()
  rw [happly] at hretention
  exact (scopedRun_forget_iff c job sp hsp).mp hretention.1

theorem resticAns_nonempty (o : ResticOp) : Nonempty (ResticAns o) := by
  cases o with
  | run args => exact ⟨.error []⟩
  | other o => exact ans_nonempty o

/-- A job keeps to its host exactly when all its runs of restic are scoped. -/
theorem retentionScoped_iff_calls (c : Controller ResticProvider) (job : Job) :
    RetentionScoped r c job ↔ Calls (ScopedRun r c job) (withRestic (c.runJob job)) := by
  rw [calls_iff_runs _ resticAns_nonempty]
  constructor
  · exact fun h tr x hr => (h tr x hr).1
  · exact fun h tr x hr => ⟨h tr x hr, fun w w' hs repo snap hsnap hgone =>
      kept_of_scoped c job tr (h tr x hr) w w' hs repo snap hsnap hgone⟩

/-- A job that gets to its retention keeps to its host only where the extra
    arguments leave it so. -/
theorem keepsScope_of_scoped (c : Controller ResticProvider) (job : Job)
    (hsource : JobSource c job) (hplugin : job.plugin ∈ c.factories)
    (hpolicy : hasPolicy job.policy = true) (h : RetentionScoped r c job) (p : ResticProvider)
    (hp : c.storageFor job.host = .ok p) : r.KeepsScope p job := by
  rcases source_lookup c job hsource with ⟨srv, hsrv⟩
  exact forgets c job srv hsrv p hp hplugin hpolicy ((retentionScoped_iff_calls c job).mp h)

/-- Extra arguments that only bear on how restic works leave every retention to
    its host. -/
theorem keepsScope_of_inert {p : ResticProvider} (job : Job) (hhost : job.host ≠ [])
    (hpolicy : hasPolicy job.policy = true)
    (h : r.Within (fun name => r.inert name = true) p "forget") : r.KeepsScope p job := by
  intro extra hextra _
  rcases h extra hextra with ⟨hoperands, hinert⟩
  rcases List.any_eq_true.mp hpolicy with ⟨kv, hkv, hpos⟩
  have hlast : ∀ name ∈ ownFlags, ∀ (value : Bytes) (Q : Prop), extra.last name = some value → Q :=
    fun name hname value Q hvalue => by
      rw [last_of_inert r extra hinert name hname] at hvalue
      cases hvalue
  have hflag : kv.1 ∈ ownFlags := List.mem_append_right _ (List.mem_map_of_mem hkv : _ ∈ keepFlags)
  refine ⟨hhost, hoperands, fun repository => hlast repoFlag (by decide) _ _, ?_,
    fun group => hlast groupFlag (by decide) _ _, kv, hkv, of_decide_eq_true hpos,
    fun value => hlast kv.1 hflag _ _⟩
  rw [values_of_inert r extra hinert hostFlag (by decide)]
  exact fun _ hhost => absurd hhost List.not_mem_nil

end Removal

/-- The repository of the examples, whose commands say more than they have to. -/
def backupRepo : ResticProvider := ⟨"/srv/restic", ["--verbose"]⟩

/-- The inventory of a controller for one host. -/
theorem lookup_host (name host : Bytes) (srv : Server) (sp : ResticProvider) :
    (hostController name srv sp).inventory.servers.lookup host =
      if host = name then some srv else none := by
  change List.dlookup host [(⟨name, srv⟩ : Sigma fun _ : Bytes => Server)] = _
  split
  · next h =>
      subst h
      exact List.dlookup_cons_eq (β := fun _ : Bytes => Server) [] host srv
  · next h => exact List.dlookup_cons_ne (β := fun _ : Bytes => Server) [] ⟨name, srv⟩ h

/-- A controller whose one server uses the default repository passes the check. -/
theorem storageChecked_host (name : Bytes) (srv : Server) (sp : ResticProvider)
    (h : srv.storage = []) : (hostController name srv sp).StorageChecked := by
  intro host srv' hsrv
  refine ⟨sp, ?_⟩
  rw [Controller.storageFor, hsrv]
  rw [lookup_host] at hsrv
  split at hsrv
  · cases hsrv
    simp only [h, if_true]
    rfl
  · cases hsrv

/-- The events of persisting a job that the store refuses. -/
def refusedCreate (ctx : Ctx) (host plugin : Bytes) (policy : Policy) (unixNano queuedAt : Time) :
    Trace (Op S) Ans :=
  [⟨.now, unixNano⟩, ⟨.now, queuedAt⟩,
    ⟨.store ctx (.createJob (newJob host plugin policy unixNano queuedAt)), .error []⟩]

theorem mem_refusedCreate (ctx : Ctx) (host plugin : Bytes) (policy : Policy)
    (unixNano queuedAt : Time) :
    (⟨.store ctx (.createJob (newJob host plugin policy unixNano queuedAt)), .error []⟩ :
      Prog.Event (Op S) Ans) ∈ refusedCreate ctx host plugin policy unixNano queuedAt :=
  List.mem_cons_of_mem _ (List.mem_cons_of_mem _ List.mem_cons_self)

/-- The command line creates a job for any host of the inventory. -/
theorem command_source (c : Controller S) (host plugin : Bytes) (srv : Server)
    (hsrv : c.inventory.servers.lookup host = some srv) (hhost : host ≠ []) (hplugin : plugin ≠ [])
    (unixNano queuedAt : Time) :
    JobSource c (newJob host plugin srv.retention unixNano queuedAt) := by
  refine JobSource.command host plugin ⟨_, .error (("create job: " : Bytes) ++ []), .caller,
    .error [], ?_, mem_refusedCreate .caller host plugin srv.retention unixNano queuedAt⟩
  unfold Cli.backup
  rw [if_neg (by rw [not_or]; exact ⟨hhost, hplugin⟩), hsrv]
  exact Runs.call _ _ _ _ _ (Runs.call _ _ _ _ _ (Runs.call _ _ _ _ _ (Runs.ret _)))

/-- A schedule creates a job for the one plugin of a server. -/
theorem scheduled_source (c : Controller S) (host plugin : Bytes) (srv : Server)
    (hsrv : c.inventory.servers.lookup host = some srv) (hschedule : srv.schedule ≠ [])
    (hplugins : srv.plugins.keys = [plugin]) (unixNano queuedAt : Time) :
    JobSource c (newJob host plugin srv.retention unixNano queuedAt) := by
  have hrun : Runs (Scheduler.dispatch host srv [plugin] : Proc S Unit)
      (refusedCreate .background host plugin srv.retention unixNano queuedAt) () :=
    Runs.call _ _ _ _ _ (Runs.call _ _ _ _ _ (Runs.call _ _ _ _ _ (Runs.ret _)))
  exact JobSource.scheduled host srv [plugin] hsrv hschedule (hplugins ▸ List.Perm.refl _)
    ⟨_, _, _, _, hrun, mem_refusedCreate _ _ _ _ _ _⟩

/-- A rule that keeps the whole group. -/
def keepAll : KeepRule := fun _ _ group => group

/-- The extra arguments of the example bear on how restic works. -/
theorem within_backupRepo (keeps : KeepRule) (command : Bytes) :
    (sampleRestic keeps).Within (fun name => (sampleRestic keeps).inert name = true) backupRepo
      command := by
  intro extra hextra
  have hparse : ((sampleRestic keeps).table command).parse backupRepo.extraArgs =
      some ⟨[("--verbose", "+1")], []⟩ := rfl
  cases hextra.symm.trans hparse
  refine ⟨rfl, fun kv hkv => ?_⟩
  rw [List.mem_singleton.mp hkv]
  rfl

/-- A server without a name that is backed up every night. -/
def unnamedController : Controller ResticProvider :=
  hostController [] { filesServer with schedule := "0 3 * * *" } backupRepo

end Bop
