import Bop.Controller.RunJob
import Bop.Effect.Handler
import Bop.Plugin.BackupPlugin
import Bop.Plugin.Informix.AgentProcess
import Bop.System.Reference

/-!
# No Agent Outlives Its Job

A job with the informix plugin starts an agent's process for each backup and
for each restore test, and the controller runs for months, so a process that is
left behind stays. Here the calls of a plugin are replaced by what the plugin's
programs and the agent's client do, down to starting, killing and waiting, and
the life of a process is watched through the whole job.

## Main definitions

* `MachineOp`, `pluginImpl`, `jobImpl`: A job with its plugin's programs in it.
* `healthCheck`: The command that checks a plugin.
* `machineLife`: The monitor of the agent's processes.
* `agentTraceOf`: What was done to them.

## Theorems

* `interp_jobImpl_life`: Whatever calls plugins ends with no process.
* `no_agent_outlives`: Every process was told to stop and waited for.
-/

namespace Bop

open Prog
open Remote (RemoteOp RemoteAns)
open Informix (AgentOp AgentOpAns Life)

variable {S : Type}

/-- What a job does with its plugin's programs in it: its own operations, those of
    a remote shell, and those of the agent's client. -/
inductive MachineOp (S : Type)
  | process (o : Op S)
  | remote (o : RemoteOp)
  | agent (o : AgentOp)

/-- What each of these answers. -/
abbrev MachineAns : MachineOp S → Type
  | .process o => Ans o
  | .remote o => RemoteAns o
  | .agent o => AgentOpAns o

/-- A program of the machine. -/
abbrev MachineProc (S α : Type) := Prog (MachineOp S) MachineAns α

/-- A plugin's program on the machine. -/
def pluginImpl {α : Type} : PluginProc α → MachineProc S α
  | .shell p => interp (fun o => op (MachineOp.remote o)) p
  | .agent p => interp (fun o => op (MachineOp.agent o)) (interp Informix.agentImpl p)

/-- A job's operations on the machine, given the plugin that is built for each
    instance. -/
def jobImpl (built : Instance → BackupPlugin) : (o : Op S) → MachineProc S (Ans o)
  | .backup _ p res => pluginImpl ((built p).backup p.tempDir res)
  | .verify _ p a => pluginImpl ((built p).verify a)
  | .restore _ p a => pluginImpl ((built p).restore a)
  | o => op (MachineOp.process o)

/-- `Plugin.Health`. -/
def BackupPlugin.health : BackupPlugin → PluginProc (Except Bytes Unit)
  | sql (.postgres _) => .shell (Remote.health "postgres")
  | sql (.mariadb _) => .shell (Remote.health "mariadb")
  | filesystem _ => .shell (Remote.health "filesystem")
  | logs cfg => .shell (Logs.health cfg)
  | informix cfg => .agent (Informix.health cfg)

/-- `bop health`, once its flags are read. -/
def healthCheck (built : Instance → BackupPlugin) (c : Controller S) (host pluginName : Bytes) :
    MachineProc S (Except Bytes Unit) :=
  check (interp (jobImpl built) (c.buildPlugin .caller host pluginName)) id fun p =>
  check (pluginImpl (built p).health) (fun err => host ++ "/" ++ pluginName ++ ": " ++ err) fun _ =>
  return .ok ()

/-- The life of the agent's processes, which nothing else touches. -/
def machineLife : Monitor (MachineOp S) MachineAns Life
  | q, .agent o, x => Informix.life q o x
  | q, _, _ => some q

/-- What was done to agents. -/
def agentTraceOf (tr : Trace (MachineOp S) MachineAns) : Trace AgentOp AgentOpAns :=
  tr.filterMap (fun
    | ⟨.agent o, x⟩ => some ⟨o, x⟩
    | _ => none)

/-- Watching the machine is watching the agents. -/
theorem watch_agentTraceOf (q : Life) (tr : Trace (MachineOp S) MachineAns) :
    watch machineLife q tr = watch Informix.life q (agentTraceOf tr) := by
  induction tr generalizing q with
  | nil => rfl
  | cons e tr ih =>
      rcases e with ⟨o, x⟩
      cases o with
      | agent o =>
          simp only [watch, machineLife, agentTraceOf, List.filterMap_cons]
          cases Informix.life q o x with
          | none => rfl
          | some q' => exact ih q'
      | process o => exact ih q
      | remote o => exact ih q

/-- A program of a remote shell does nothing to agents. -/
theorem remote_life {α : Type} (q : Life) (p : Remote.Proc α) :
    Obeys machineLife q (interp (fun o => op (MachineOp.remote o)) p : MachineProc S α)
      (fun _ q' => q' = q) := by
  induction p with
  | ret a => exact rfl
  | call o k ih => exact fun x => ⟨q, rfl, ih x⟩

/-- A program of the client does what the client's monitor says. -/
theorem agent_life {α : Type} (p : Informix.AgentProc α) (q : Life) (post : α → Life → Prop)
    (h : Obeys Informix.life q p post) :
    Obeys machineLife q (interp (fun o => op (MachineOp.agent o)) p : MachineProc S α) post := by
  induction p generalizing q with
  | ret a => exact h
  | call o k ih =>
      intro x
      rcases h x with ⟨q', hq', hk⟩
      exact ⟨q', hq', ih x q' hk⟩

/-- A plugin's program ends with no process, if it ends its session. -/
theorem pluginImpl_life {α : Type} (p : PluginProc α)
    (hp : ∀ agent, p = .agent agent → Obeys Informix.session false agent (fun _ q => q = false)) :
    Obeys machineLife .none (pluginImpl p : MachineProc S α) (fun _ q => q = .none) := by
  cases p with
  | shell p => exact remote_life .none p
  | agent p => exact agent_life _ _ _ (Informix.life_of_session p (hp p rfl))

/-- Each of a job's operations ends with no process. -/
theorem jobImpl_life (built : Instance → BackupPlugin) (o : Op S) :
    Obeys machineLife .none (jobImpl built o) (fun _ q => q = .none) := by
  have hother : ∀ o : Op S, Obeys machineLife .none (op (MachineOp.process o))
      (fun _ q => q = .none) := fun o x => ⟨.none, rfl, rfl⟩
  cases o with
  | backup ctx p res =>
      refine pluginImpl_life _ fun agent hagent => ?_
      cases hbuilt : built p with
      | informix cfg =>
          rw [hbuilt] at hagent
          cases hagent
          exact Informix.backup_session cfg p.tempDir res
      | _ => rw [hbuilt] at hagent; cases hagent
  | verify ctx p a =>
      refine pluginImpl_life _ fun agent hagent => ?_
      cases hbuilt : built p with
      | informix cfg =>
          rw [hbuilt] at hagent
          cases hagent
          exact Informix.verify_session a
      | sql c => cases c <;> rw [hbuilt] at hagent <;> cases hagent
      | _ => rw [hbuilt] at hagent; cases hagent
  | restore ctx p a =>
      refine pluginImpl_life _ fun agent hagent => ?_
      cases hbuilt : built p with
      | informix cfg =>
          rw [hbuilt] at hagent
          cases hagent
          exact Informix.restore_session cfg a
      | _ => rw [hbuilt] at hagent; cases hagent
  | _ => exact hother _

/-- A program over these ends with no process: no operation leaves one to the
    next. -/
theorem interp_jobImpl_life {α : Type} (built : Instance → BackupPlugin) (p : Proc S α) :
    Obeys machineLife .none (interp (jobImpl built) p) (fun _ q => q = .none) := by
  induction p with
  | ret a => exact rfl
  | call o k ih =>
      refine obeys_bind machineLife _ _ _ _ _ (jobImpl_life built o) ?_
      rintro x _ rfl
      exact ih x

/-- A health check ends with no process. -/
theorem healthCheck_life (built : Instance → BackupPlugin) (c : Controller S)
    (host pluginName : Bytes) :
    Obeys machineLife .none (healthCheck built c host pluginName) (fun _ q => q = .none) := by
  refine obeys_check machineLife _ _ _ _ _ _ (interp_jobImpl_life built _) ?_ fun _ _ h => h
  rintro p _ rfl
  refine obeys_check machineLife _ _ _ _ _ _ (pluginImpl_life _ fun agent hagent => ?_) ?_
    fun _ _ h => h
  · cases hbuilt : built p with
    | informix cfg =>
        rw [hbuilt] at hagent
        cases hagent
        exact Informix.health_session cfg
    | sql c => cases c <;> rw [hbuilt] at hagent <;> cases hagent
    | _ => rw [hbuilt] at hagent; cases hagent
  · rintro _ _ rfl
    exact rfl

/-- What is done on behalf of a job, or to check a plugin. -/
inductive Errand (c : Controller S) (built : Instance → BackupPlugin) :
    MachineProc S (Except Bytes Unit) → Prop
  | job (job : Job) : Errand c built (interp (jobImpl built) (c.runJob job))
  | health (host pluginName : Bytes) : Errand c built (healthCheck built c host pluginName)

/-- Whatever the machine answers a job or a health check, every process of the
    agent it starts is told to stop, its connection is closed if there was one, and
    it is waited for, before another is started and before the program ends. -/
theorem no_agent_outlives (c : Controller S) (built : Instance → BackupPlugin)
    (p : MachineProc S (Except Bytes Unit)) (hp : Errand c built p)
    (tr : Trace (MachineOp S) MachineAns) (r : Except Bytes Unit) (hr : Runs p tr r)
    (tr₁ tr₂ : Trace AgentOp AgentOpAns) (e : Prog.Event AgentOp AgentOpAns)
    (hsplit : agentTraceOf tr = tr₁ ++ e :: tr₂) (hstart : Informix.Starts e = true) :
    Informix.Reaped tr₂ := by
  have hlife : Obeys machineLife .none p (fun _ q => q = .none) := by
    cases hp with
    | job job => exact interp_jobImpl_life built (c.runJob job)
    | health host pluginName => exact healthCheck_life built c host pluginName
  rcases obeys_runs machineLife p .none _ hlife tr r hr with ⟨q, hwatch, hq⟩
  rw [watch_agentTraceOf, hsplit, hq] at hwatch
  exact Informix.reaped_of_start tr₁ tr₂ e .none hstart hwatch

/-! ### A host with one table -/

/-- The plugin that backs up the table. -/
def stockPlugin : BackupPlugin :=
  .informix ⟨"ifx1", 9088, "bop", "secret", "ol_ifx", "stores", "/usr/local/bin/ifx-agent"⟩

/-- An agent that starts and answers, but does not shut down in time, on a machine
    that counts the agents that were started. -/
def slowAgent : (o : AgentOp) → Nat → AgentOpAns o × Nat
  | .start _, n => (.ok (), n + 1)
  | .readStdout, n => (⟨"LISTENING 40123\n", none⟩, n)
  | .connect _, n => (.ok "conn-1", n)
  | .recv, n => (⟨[.columns [⟨"id"⟩], .done], none⟩, n)
  | .shutdown, n => (.error "context deadline exceeded", n)
  | .other o, n => (match o with
      | .createTemp _ _ => .ok "/tmp/bop/ifx-1.jsonl"
      | .write _ _ => .ok ()
      | .stat _ => .ok (64 : Int)
      | .closeFile _ => .ok ()
      | .removeFile _ => .ok ()
      | .openFile _ => .error "no such file"
      | .now => (0 : Int)
      | .dial _ => .error []
      | .agent _ => .error [], n)
  | .stdoutPipe, n | .newClient _, n | .kill, n | .closeConn, n | .wait, n => (.ok (), n)
  | .executeQuery _ _ _, n | .beginTransaction _, n | .commitTransaction _, n => (.ok (), n)
  | .rollbackTransaction _, n | .disconnect _, n => (.ok (), n)

/-- A plugin that finds the table. -/
def stockResources : Plugin where
  resources := [⟨"stock", "stock"⟩]
  artifact := fun res => ⟨res.id, [], [], [], 0, [], false, 0⟩

/-- A machine with that agent, whose store holds the queued job. -/
def stockMachine : (o : MachineOp Unit) → Nat → MachineAns o × Nat
  | .agent o, n => slowAgent o n
  | .remote o, n => (match o with
      | .createTemp _ _ | .closeFile _ | .removeFile _ | .openFile _ | .stat _ => .error []
      | .run _ _ _ => .error []
      | .now => (0 : Int), n)
  | .process o, n => ((Shared.answer stockResources 0 o ⟨leftQueued, Memory.new 1⟩).1, n)

/-- What that machine counts. -/
def counting (n : Nat) : (o : MachineOp Unit) → MachineAns o → Nat → Prop
  | .agent o, x, n' => n' = if Informix.Starts ⟨o, x⟩ then n + 1 else n
  | _, _, n' => n' = n

theorem counting_stockMachine (o : MachineOp Unit) (n : Nat) :
    counting n o (stockMachine o n).1 (stockMachine o n).2 := by
  cases o with
  | agent o => cases o <;> rfl
  | process o => rfl
  | remote o => rfl

/-- A machine that has counted saw a start. -/
theorem exists_start (tr : Trace (MachineOp Unit) MachineAns) (n n' : Nat)
    (hs : Steps counting n tr n') (hne : n' ≠ n) :
    ∃ e ∈ agentTraceOf tr, Informix.Starts e = true := by
  induction hs with
  | nil n => exact absurd rfl hne
  | cons n m n' o x tr hone _ ih =>
      by_cases hm : m = n
      · subst hm
        rcases ih hne with ⟨e, he, hstart⟩
        refine ⟨e, ?_, hstart⟩
        cases o with
        | agent o => exact List.mem_cons_of_mem _ he
        | process o => exact he
        | remote o => exact he
      · cases o with
        | agent o =>
            by_cases hstart : Informix.Starts ⟨o, x⟩ = true
            · exact ⟨⟨o, x⟩, List.mem_cons_self, hstart⟩
            · exact absurd (hone.trans (if_neg hstart)) hm
        | process o => exact absurd hone hm
        | remote o => exact absurd hone hm

/-- The agent of the table is reaped. -/
theorem no_agent_outlives_stock :
    ∃ tr r, Runs (interp (jobImpl fun _ => stockPlugin) (filesController.runJob filesJob)) tr r ∧
      ∃ tr₁ e tr₂, agentTraceOf tr = tr₁ ++ e :: tr₂ ∧ Informix.Starts e = true ∧
        Informix.Reaped tr₂ := by
  rcases steps_exec counting stockMachine counting_stockMachine
    (interp (jobImpl fun _ => stockPlugin) (filesController.runJob filesJob)) 0 with ⟨tr, hr, hs⟩
  have hone : (exec stockMachine
      (interp (jobImpl fun _ => stockPlugin) (filesController.runJob filesJob)) 0).2 ≠ 0 := by
    decide +kernel
  rcases exists_start tr _ _ hs hone with ⟨e, he, hstart⟩
  rcases List.mem_iff_append.mp he with ⟨tr₁, tr₂, hsplit⟩
  exact ⟨tr, _, hr, tr₁, e, tr₂, hsplit, hstart, no_agent_outlives filesController
    (fun _ => stockPlugin) _ (.job filesJob) tr _ hr tr₁ tr₂ e hsplit hstart⟩

end Bop
