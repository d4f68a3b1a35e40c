import Bop.Plugin.Filesystem.Plugin
import Bop.Plugin.Sql.Client
import Mathlib.Logic.Function.Basic

/-!
# What a Test Leaves Behind

A restore test makes something on the host: a database, or a directory. It is
to be gone again when the test returns, whatever happened in between, and what
happens in between may be that the job's context is cancelled. A command that
is issued after that may be started all the same, since the connection is made
and the command begun before anyone looks at the context. It is cut off then,
and the context's error is what it reports.

The plugins differ here. Those over a database drop it whatever became of the
script that was read into it, so that only a cancelled context or a connection
that fails keeps them from it. The filesystem plugin returns at once when the
extraction fails, which leaves whatever was extracted until then.

Nobody hears of a removal that fails.

## Main definitions

* `Surroundings`: What the commands report and when the context is cancelled.
* `Started`, `answer`, `Progress`: The commands that are started.
* `ScratchPlugin`: A plugin whose tests make something on the host.
* `RemovedAfter`: Whatever is made is removed later.
* `Undisturbed`: Nothing comes between a test and its removal.

## Theorems

* `filesystem_steps`, `sql_steps`: What a test starts and returns.
* `cleaned_iff`: A test removes what it made exactly if nothing comes between.
-/

namespace Bop

namespace Cleanup

open Prog Remote

/-- What the commands of a restore meet: whether each gets its connection, what it
    reports if it is issued in time, and how many are issued before the context is
    cancelled, if it is. -/
structure Surroundings where
  file : Except Bytes FileContent
  connects : Nat → Except Bytes Unit
  outcome : Nat → Except Bytes Unit
  cancelAt : Option Nat
  ctxErr : Bytes

/-- The context is not cancelled yet when this command is issued. -/
def Surroundings.live (env : Surroundings) (i : Nat) : Bool :=
  match env.cancelAt with
  | none => true
  | some k => i < k

/-- A command that was started and what it reported. One that was issued too late is
    cut off. -/
structure Started where
  call : Prog.Event RemoteOp RemoteAns
  inTime : Bool

/-- How many commands were issued, and those that were started. -/
structure Progress where
  issued : Nat
  ran : List Started

/-- `SSHExecutor.Run`: What a command reports. The connection comes first. -/
def Surroundings.report (env : Surroundings) (i : Nat) : Except Bytes Unit :=
  match env.connects i with
  | .error err => .error err
  | .ok _ => if env.live i then env.outcome i else .error env.ctxErr

/-- What is started when a command is issued: it is, once there is a connection. -/
def Surroundings.launch (env : Surroundings) (i : Nat) (command : Bytes)
    (stdin : Option FileContent) (stdout : Option Bytes) : List Started :=
  match env.connects i with
  | .error _ => []
  | .ok _ => [⟨⟨.run command stdin stdout, env.report i⟩, env.live i⟩]

/-- What an operation answers. Only a command can be cancelled. -/
def answer (env : Surroundings) : (o : RemoteOp) → Progress → RemoteAns o × Progress
  | .run command stdin stdout, s =>
      (env.report s.issued, ⟨s.issued + 1, s.ran ++ env.launch s.issued command stdin stdout⟩)
  | .openFile _, s => (env.file, s)
  | .stat _, s => (.ok 0, s)
  | .createTemp _ _, s => (.ok [], s)
  | .closeFile _, s => (.ok (), s)
  | .removeFile _, s => (.ok (), s)
  | .now, s => (0, s)

/-- A plugin whose tests make something on the host. -/
inductive ScratchPlugin
  | sql (c : Sql.SqlConfig)
  | filesystem

namespace ScratchPlugin

/-- `Plugin.Restore`. -/
def restore : ScratchPlugin → Artifact → Proc (Except Bytes Unit)
  | sql c, a => Sql.restore c.plugin a
  | filesystem, a => Filesystem.restore a

/-- This command has made something: a database that was reported as created,
    or an extraction whatever it reported. -/
def Makes (p : ScratchPlugin) (resourceID : Bytes) (e : Prog.Event RemoteOp RemoteAns) : Prop :=
  match p with
  | sql c => e = ⟨.run (c.plugin.createDatabaseCommand resourceID) none none, .ok ()⟩
  | filesystem => ∃ f x,
      e = ⟨.run (Filesystem.untarCommand (Filesystem.restoreTarget resourceID)) (some f) none, x⟩

/-- The command that removes it. -/
def removal (p : ScratchPlugin) (resourceID : Bytes) : Bytes :=
  match p with
  | sql c => c.plugin.dropDatabaseCommand resourceID
  | filesystem => Filesystem.removeCommand (Filesystem.restoreTarget resourceID)

/-- Which of a test's commands that is. -/
def removalIndex : ScratchPlugin → Nat
  | sql _ => 2
  | filesystem => 1

/-- Nothing comes between a test and its removal: for a database that was
    created, a cancelled context or a connection that is not made; for an extraction
    that was started, in time or too late, these or a failure of its own. -/
def Undisturbed (p : ScratchPlugin) (env : Surroundings) : Prop :=
  match p with
  | sql _ => env.file.isOk ∧ (env.connects 0).isOk ∧ env.live 0 ∧ env.outcome 0 = .ok () →
      (env.connects 2).isOk ∧ env.live 2
  | filesystem => env.file.isOk ∧ (env.connects 0).isOk →
      env.outcome 0 = .ok () ∧ (env.connects 1).isOk ∧ env.live 1

end ScratchPlugin

/-- What a restore returns, and the commands that it started. -/
def perform (p : ScratchPlugin) (env : Surroundings) (a : Artifact) :
    Except Bytes Unit × Progress :=
  exec (answer env) (p.restore a) ⟨0, []⟩

/-- Whatever is made is removed later, by a command that is not cut off. -/
def RemovedAfter (ran : List Started) (makes : Prog.Event RemoteOp RemoteAns → Prop)
    (removal : Bytes) : Prop :=
  ∀ before s after, ran = before ++ s :: after → makes s.call →
    ∃ x, (⟨⟨.run removal none none, x⟩, true⟩ : Started) ∈ after

/-- The same surroundings, but for whether one command gets its connection and what
    it reports. -/
def Surroundings.reporting (env : Surroundings) (i : Nat) (conn x : Except Bytes Unit) :
    Surroundings :=
  { env with
    connects := Function.update env.connects i conn
    outcome := Function.update env.outcome i x }

section Traces

variable (makes : Prog.Event RemoteOp RemoteAns → Prop) (removal : Bytes)

/-- What is made first is removed in the rest, and so on. -/
theorem removedAfter_cons (s : Started) (ran : List Started) :
    RemovedAfter (s :: ran) makes removal ↔
      (makes s.call → ∃ x, (⟨⟨.run removal none none, x⟩, true⟩ : Started) ∈ ran) ∧
        RemovedAfter ran makes removal := by
  constructor
  · intro h
    exact ⟨h [] s ran rfl, fun before t after heq => h (s :: before) t after (by rw [heq]; rfl)⟩
  · rintro ⟨hfirst, hrest⟩ before t after heq
    rcases before with _ | ⟨s₀, before⟩
    · rw [List.nil_append, List.cons.injEq] at heq
      rw [← heq.1, ← heq.2]
      exact hfirst
    · rw [List.cons_append, List.cons.injEq] at heq
      exact hrest before t after heq.2

/-- Where nothing is made, nothing is to be removed. -/
theorem removedAfter_of_none (ran : List Started) (h : ∀ s ∈ ran, ¬ makes s.call) :
    RemovedAfter ran makes removal := by
  rintro before s after rfl hmakes
  exact absurd hmakes (h s (List.mem_append_right _ List.mem_cons_self))

end Traces

variable (env : Surroundings)

/-- The context stays cancelled. -/
theorem live_mono (i j : Nat) (hij : i ≤ j) (h : env.live j = true) : env.live i = true := by
  unfold Surroundings.live at h ⊢
  cases hcancel : env.cancelAt with
  | none => rfl
  | some k =>
      simp only [hcancel, decide_eq_true_eq] at h ⊢
      omega

/-- Only a command that was connected and issued in time reports success. -/
theorem report_ok_iff (i : Nat) : env.report i = .ok () ↔
    (env.connects i).isOk = true ∧ env.live i = true ∧ env.outcome i = .ok () := by
  unfold Surroundings.report
  cases hconn : env.connects i with
  | error err => exact iff_of_false (fun h => by cases h) fun h => absurd h.1 Bool.false_ne_true
  | ok u =>
      rw [and_iff_right (show (Except.ok u : Except Bytes Unit).isOk = true from rfl)]
      by_cases hlive : env.live i = true
      · rw [and_iff_right hlive]
        simp only [hlive, if_true]
      · refine iff_of_false (fun h => ?_) fun h => absurd h.1 hlive
        simp only [hlive] at h
        cases h

/-- What is started is the command that was issued. -/
theorem mem_launch_iff (i : Nat) (command : Bytes) (stdin : Option FileContent)
    (stdout : Option Bytes) (s : Started) : s ∈ env.launch i command stdin stdout ↔
      (env.connects i).isOk = true ∧
        s = ⟨⟨.run command stdin stdout, env.report i⟩, env.live i⟩ := by
  unfold Surroundings.launch
  cases hconn : env.connects i with
  | error err => exact iff_of_false List.not_mem_nil fun h => absurd h.1 Bool.false_ne_true
  | ok u => exact List.mem_singleton.trans (and_iff_right rfl).symm

/-- A command that is connected is started. -/
theorem launch_connected (i : Nat) (command : Bytes) (stdin : Option FileContent)
    (stdout : Option Bytes) (h : (env.connects i).isOk = true) :
    env.launch i command stdin stdout =
      [⟨⟨.run command stdin stdout, env.report i⟩, env.live i⟩] := by
  unfold Surroundings.launch
  cases hconn : env.connects i with
  | error err => rw [hconn] at h; cases h
  | ok u => rfl

/-- Without a connection nothing is started. -/
theorem launch_unconnected (i : Nat) (command : Bytes) (stdin : Option FileContent)
    (stdout : Option Bytes) (h : ¬ (env.connects i).isOk = true) :
    env.launch i command stdin stdout = [] :=
  List.eq_nil_iff_forall_not_mem.mpr fun s hs =>
    h ((mem_launch_iff env i command stdin stdout s).mp hs).1

/-- A removal is done exactly if it was connected and issued in time. -/
theorem removal_launched_iff (i : Nat) (removal : Bytes) :
    (∃ x, (⟨⟨.run removal none none, x⟩, true⟩ : Started) ∈ env.launch i removal none none) ↔
      (env.connects i).isOk = true ∧ env.live i = true := by
  constructor
  · rintro ⟨x, hx⟩
    rcases (mem_launch_iff env i removal none none _).mp hx with ⟨hconn, heq⟩
    exact ⟨hconn, (congrArg Started.inTime heq).symm⟩
  · rintro ⟨hconn, hlive⟩
    refine ⟨env.report i, (mem_launch_iff env i removal none none _).mpr ⟨hconn, ?_⟩⟩
    rw [hlive]

section Filesystem

open Filesystem

variable (a : Artifact)

/-- The extraction of a restore. -/
def extraction (f : FileContent) : List Started :=
  env.launch 0 (untarCommand (restoreTarget a.resourceID)) (some f) none

/-- The removal of what a test extracted. -/
def directoryRemoval : List Started :=
  env.launch 1 (removeCommand (restoreTarget a.resourceID)) none none

/-- What the test of a directory returns and starts: it extracts, and if that
    succeeds it removes. -/
theorem filesystem_steps (htest : hasSuffix a.resourceID restoreTestSuffix = true) :
    perform .filesystem env a = match env.file with
      | .error err => (.error ("filesystem: open artifact: " ++ err), ⟨0, []⟩)
      | .ok f => match env.report 0 with
        | .error err => (.error ("filesystem: restore " ++ restoreTarget a.resourceID ++ ": " ++
            err), ⟨1, extraction env a f⟩)
        | .ok _ => (.ok (), ⟨2, extraction env a f ++ directoryRemoval env a⟩) := by
  unfold perform ScratchPlugin.restore Filesystem.restore
  cases hfile : env.file with
  | error err => rw [exec_check_error (answer env) _ _ _ _ ⟨0, []⟩ err (by
      rw [exec_op, answer, hfile])]
  | ok f =>
      rw [exec_check_ok (answer env) _ _ _ _ ⟨0, []⟩ f (by rw [exec_op, answer, hfile]),
        Filesystem.restoreFrom]
      cases hreport : env.report 0 with
      | error err =>
          rw [exec_check_error (answer env) _ _ _ _ ⟨1, extraction env a f⟩ err (by
            rw [exec_op, answer, hreport]
            rfl)]
      | ok u =>
          rw [exec_check_ok (answer env) _ _ _ _ ⟨1, extraction env a f⟩ () (by
            rw [exec_op, answer, hreport]
            rfl)]
          simp only [htest, if_true]
          rfl

/-- The test of a directory removes it exactly if nothing comes between. -/
theorem filesystem_cleaned_iff (htest : hasSuffix a.resourceID restoreTestSuffix = true) :
    RemovedAfter (perform .filesystem env a).2.ran (ScratchPlugin.filesystem.Makes a.resourceID)
      (ScratchPlugin.filesystem.removal a.resourceID) ↔
    ScratchPlugin.filesystem.Undisturbed env := by
  have hother : ∀ s ∈ directoryRemoval env a,
      ¬ ScratchPlugin.filesystem.Makes a.resourceID s.call := by
    rintro s hs ⟨f, x, hcall⟩
    rw [((mem_launch_iff env _ _ _ _ s).mp hs).2] at hcall
    cases hcall
  rw [filesystem_steps env a htest]
  unfold ScratchPlugin.Undisturbed
  -- As far as the test gets: the file, the extraction, its report, the removal.
  cases hfile : env.file with
  | error err =>
      exact iff_of_true (removedAfter_of_none _ _ _ fun s hs => absurd hs List.not_mem_nil)
        fun h => absurd h.1 Bool.false_ne_true
  | ok f =>
      by_cases hstarted : (env.connects 0).isOk = true
      · have hmade := launch_connected env 0 (untarCommand (restoreTarget a.resourceID)) (some f)
          none hstarted
        have hmakes : ScratchPlugin.filesystem.Makes a.resourceID
            ⟨.run (untarCommand (restoreTarget a.resourceID)) (some f) none, env.report 0⟩ :=
          ⟨f, _, rfl⟩
        cases hreport : env.report 0 with
        | error err =>
            -- An extraction with nothing behind it is not undone.
            refine iff_of_false (fun h => ?_) fun h => ?_
            · simp only [extraction, hmade] at h
              rcases ((removedAfter_cons _ _ _ _).mp h).1 hmakes with ⟨x, hx⟩
              cases hx
            · rcases h ⟨rfl, hstarted⟩ with ⟨hout, -, hlive⟩
              have hok := (report_ok_iff env 0).mpr
                ⟨hstarted, live_mono env 0 1 (by decide) hlive, hout⟩
              rw [hreport] at hok
              cases hok
        | ok u =>
            simp only [extraction, hmade, List.singleton_append]
            rw [removedAfter_cons, forall_prop_of_true hmakes,
              and_iff_left (removedAfter_of_none _ _ _ hother)]
            refine (removal_launched_iff env 1 _).trans ⟨fun h _ => ?_, fun h => ?_⟩
            · exact ⟨((report_ok_iff env 0).mp hreport).2.2, h⟩
            · exact (h ⟨rfl, hstarted⟩).2
      · have hnone := launch_unconnected env 0 (untarCommand (restoreTarget a.resourceID)) (some f)
          none hstarted
        cases hreport : env.report 0 with
        | error err =>
            simp only [extraction, hnone]
            exact iff_of_true (removedAfter_of_none _ _ _ fun s hs => absurd hs List.not_mem_nil)
              fun h => absurd h.2 hstarted
        | ok u => exact absurd ((report_ok_iff env 0).mp hreport).1 hstarted

end Filesystem

section Database

variable (c : Sql.SqlConfig) (a : Artifact)

/-- The creation of a test's database. -/
def creation : List Started :=
  env.launch 0 (c.plugin.createDatabaseCommand a.resourceID) none none

/-- Reading the dump in. -/
def replaying (f : FileContent) : List Started :=
  env.launch 1 (c.plugin.restoreCommand a.resourceID) (some f) none

/-- The removal of a test's database. -/
def databaseRemoval : List Started :=
  env.launch 2 (c.plugin.dropDatabaseCommand a.resourceID) none none

/-- What a test returns once it has its database. -/
def sqlResult : Except Bytes Unit :=
  match env.report 1 with
  | .error err => .error (c.plugin.name ++ ": restore " ++ a.resourceID ++ ": " ++ err)
  | .ok _ => .ok ()

/-- What the test of a database returns and starts. The database is dropped whatever
    became of the replay. -/
theorem sql_steps (htest : hasSuffix a.resourceID restoreTestSuffix = true) :
    perform (.sql c) env a = match env.file with
      | .error err => (.error (c.plugin.name ++ ": open artifact: " ++ err), ⟨0, []⟩)
      | .ok f => match env.report 0 with
        | .error err => (.error (Sql.createError c.plugin a.resourceID err),
            ⟨1, creation env c a⟩)
        | .ok _ => (sqlResult env c a,
            ⟨3, creation env c a ++ replaying env c a f ++ databaseRemoval env c a⟩) := by
  unfold perform ScratchPlugin.restore Sql.restore
  cases hfile : env.file with
  | error err => rw [exec_check_error (answer env) _ _ _ _ ⟨0, []⟩ err (by
      rw [exec_op, answer, hfile])]
  | ok f =>
      rw [exec_check_ok (answer env) _ _ _ _ ⟨0, []⟩ f (by rw [exec_op, answer, hfile]),
        Sql.restoreFrom]
      simp only [htest, if_true]
      cases hreport : env.report 0 with
      | error err =>
          rw [exec_check_error (answer env) _ _ _ _ ⟨1, creation env c a⟩ err (by
            rw [exec_op, answer, hreport]
            rfl)]
      | ok u =>
          rw [exec_check_ok (answer env) _ _ _ _ ⟨1, creation env c a⟩ () (by
            rw [exec_op, answer, hreport]
            rfl), Sql.restoreInto, exec_bind, exec_op, answer, sqlResult]
          cases env.report 1 with
          | error err => rfl
          | ok u => rfl

/-- The statements that create a database and drop it begin differently. -/
theorem create_ne_drop (n : Bytes) :
    c.plugin.createDatabaseCommand n ≠ c.plugin.dropDatabaseCommand n := by
  intro h
  cases c with
  | postgres cfg =>
      -- Only the last word differs, and it does in its second byte.
      have hquote := Shellcmd.build_cancel (Postgres.execPrefix cfg false ++ (["psql", "-U",
        cfg.username, "-d", "postgres", "-v", "ON_ERROR_STOP=1", "-c"] : List Bytes))
        (Postgres.createDatabaseSQL n) (Postgres.dropDatabaseSQL n)
        (by rw [List.append_assoc, List.append_assoc]; exact h)
      have htwo := congrArg (List.take 2) hquote
      rw [show List.take 2 (Shellcmd.quote (Postgres.createDatabaseSQL n)) = "'C" from rfl,
        show List.take 2 (Shellcmd.quote (Postgres.dropDatabaseSQL n)) = "'D" from rfl] at htwo
      revert htwo
      decide
  | mariadb cfg =>
      have hquote := Shellcmd.build_cancel (Mariadb.execPrefix cfg false ++ (["mariadb", "-u",
        cfg.username, "-e"] : List Bytes))
        (Mariadb.createDatabaseSQL n) (Mariadb.dropDatabaseSQL n)
        (by rw [List.append_assoc, List.append_assoc]; exact h)
      have htwo := congrArg (List.take 2) hquote
      rw [show List.take 2 (Shellcmd.quote (Mariadb.createDatabaseSQL n)) = "'C" from rfl,
        show List.take 2 (Shellcmd.quote (Mariadb.dropDatabaseSQL n)) = "'D" from rfl] at htwo
      revert htwo
      decide

/-- The test of a database removes it exactly if nothing comes between. -/
theorem sql_cleaned_iff (htest : hasSuffix a.resourceID restoreTestSuffix = true) :
    RemovedAfter (perform (.sql c) env a).2.ran ((ScratchPlugin.sql c).Makes a.resourceID)
      ((ScratchPlugin.sql c).removal a.resourceID) ↔
    (ScratchPlugin.sql c).Undisturbed env := by
  have hreplaying : ∀ f, ∀ s ∈ replaying env c a f,
      ¬ (ScratchPlugin.sql c).Makes a.resourceID s.call := by
    intro f s hs hcall
    rw [((mem_launch_iff env _ _ _ _ s).mp hs).2] at hcall
    simp [ScratchPlugin.Makes] at hcall
  have hremoval : ∀ s ∈ databaseRemoval env c a,
      ¬ (ScratchPlugin.sql c).Makes a.resourceID s.call := by
    intro s hs hcall
    rw [((mem_launch_iff env _ _ _ _ s).mp hs).2] at hcall
    injection hcall with hop
    injection hop with hcommand
    exact create_ne_drop c a.resourceID hcommand.symm
  rw [sql_steps env c a htest]
  unfold ScratchPlugin.Undisturbed
  cases hfile : env.file with
  | error err =>
      exact iff_of_true (removedAfter_of_none _ _ _ fun s hs => absurd hs List.not_mem_nil)
        fun h => absurd h.1 Bool.false_ne_true
  | ok f =>
      cases hreport : env.report 0 with
      | error err =>
          -- A creation that reports an error makes nothing.
          refine iff_of_true (removedAfter_of_none _ _ _ fun s hs hcall => ?_) fun h => ?_
          · rw [((mem_launch_iff env _ _ _ _ s).mp hs).2, hreport] at hcall
            injection hcall with _ hreported
            cases hreported
          · rw [(report_ok_iff env 0).mpr h.2] at hreport
            cases hreport
      | ok u =>
          have hlive := (report_ok_iff env 0).mp hreport
          have hmade : creation env c a =
              [⟨⟨.run (c.plugin.createDatabaseCommand a.resourceID) none none, .ok ()⟩, true⟩] := by
            rw [creation, launch_connected env 0 _ _ _ hlive.1, hreport, hlive.2.1]
          have hmakes : (ScratchPlugin.sql c).Makes a.resourceID
              ⟨.run (c.plugin.createDatabaseCommand a.resourceID) none none, .ok ()⟩ := rfl
          have hquiet : ∀ s ∈ replaying env c a f ++ databaseRemoval env c a,
              ¬ (ScratchPlugin.sql c).Makes a.resourceID s.call := fun s hs =>
            (List.mem_append.mp hs).elim (hreplaying f s) (hremoval s)
          simp only [hmade, List.cons_append, List.nil_append]
          rw [removedAfter_cons, forall_prop_of_true hmakes,
            and_iff_left (removedAfter_of_none _ _ _ hquiet)]
          refine Iff.trans ⟨?_, ?_⟩ ((removal_launched_iff env 2
            (c.plugin.dropDatabaseCommand a.resourceID)).trans
            ⟨fun h _ => h, fun h => h ⟨rfl, hlive⟩⟩)
          · rintro ⟨x, hx⟩
            rcases List.mem_append.mp hx with hx | hx
            · -- Reading the dump in is not the removal.
              have hcall := ((mem_launch_iff env _ _ _ _ _).mp hx).2
              simp at hcall
            · exact ⟨x, hx⟩
          · rintro ⟨x, hx⟩
            exact ⟨x, List.mem_append_right _ hx⟩

end Database

/-- The other commands report what they did. -/
theorem reporting_other (i j : Nat) (conn x : Except Bytes Unit) (h : j ≠ i) :
    (env.reporting i conn x).report j = env.report j := by
  unfold Surroundings.report
  rw [show (env.reporting i conn x).outcome j = env.outcome j from Function.update_of_ne h _ _,
    show (env.reporting i conn x).connects j = env.connects j from Function.update_of_ne h _ _]
  rfl

/-- What a test returns does not depend on what becomes of its removal. -/
theorem result_of_removal (p : ScratchPlugin) (a : Artifact)
    (htest : hasSuffix a.resourceID restoreTestSuffix = true) (conn x : Except Bytes Unit) :
    (perform p (env.reporting p.removalIndex conn x) a).1 = (perform p env a).1 := by
  have hfile : (env.reporting p.removalIndex conn x).file = env.file := rfl
  cases p with
  | filesystem =>
      rw [filesystem_steps _ a htest, filesystem_steps env a htest, hfile,
        reporting_other env ScratchPlugin.filesystem.removalIndex 0 conn x (by decide)]
      cases env.file with
      | error err => rfl
      | ok f => cases env.report 0 <;> rfl
  | sql c =>
      rw [sql_steps _ c a htest, sql_steps env c a htest, hfile,
        reporting_other env (ScratchPlugin.sql c).removalIndex 0 conn x nofun]
      cases env.file with
      | error err => rfl
      | ok f =>
          cases env.report 0 with
          | error err => rfl
          | ok u =>
              change sqlResult (env.reporting (ScratchPlugin.sql c).removalIndex conn x) c a =
                sqlResult env c a
              rw [sqlResult, sqlResult,
                reporting_other env (ScratchPlugin.sql c).removalIndex 1 conn x nofun]

/-- The surroundings of a test whose first command fails. -/
def failingSurroundings : Surroundings := ⟨.ok ⟨[31, 139], none⟩, fun _ => .ok (),
  fun _ => .error "exit status 2", none, "context canceled"⟩

/-- The test of a site's archive. -/
def siteTest : Artifact :=
  ⟨"/srv/site-bop-verify", "web", "filesystem", "/tmp/bop/fs-1.tar.gz", 512, [], false, 0⟩

/-- Surroundings in which everything succeeds. -/
def calmSurroundings : Surroundings := ⟨.ok ⟨[31, 139], none⟩, fun _ => .ok (), fun _ => .ok (),
  none, "context canceled"⟩

end Cleanup

end Bop
