import Bop.Core
import Bop.Effect.Handler
import Bop.Plugin.Informix.Config
import Bop.Text.Lines

/-!
# The Informix Agent

The informix plugin reaches its server through a local agent process: it dials
one for every call, opens one connection, works and shuts the agent down. What
the agent is asked and what it answers are messages, and the ones the plugin
uses are here, with the other things the plugin does to the world: it opens
artifacts and writes them.

A cell and a parameter are the same message under two names, one on the way
out of the server and one on the way in. Either is null, or carries a text or
bytes. Nothing stops the agent from sending a cell with neither.

## Main definitions

* `Value`, `Cell`, `Param`: A value on its way out or in.
* `QueryResult`: What a query answers.
* `AgentCall`, `AgentAns`: The calls of an agent and their answers.
* `PluginOp`, `PluginAns`: All the plugin can do.
* `connect`, `disconnect`: The two ends of a session.
* `agentTrace`: The calls of the agent among all that was done.

## Theorems

* `connect_runs`: How a session starts.
* `deferring_disconnect_runs`: How one ends.
* `runs_accept`: Everything can succeed.
-/

namespace Bop

namespace Informix

/-- `pb.Value`, when it carries something. -/
inductive Value
  | text (s : Bytes)
  | bytes (b : Bytes)
  deriving DecidableEq

/-- `pb.Cell`. -/
structure Cell where
  isNull : Bool
  sqlType : Int32
  value : Option Value
  deriving DecidableEq

/-- `pb.Param`. -/
structure Param where
  isNull : Bool
  parameterType : Int32
  value : Option Value
  deriving DecidableEq

/-- The part of `pb.ColumnDesc` an artifact keeps. -/
structure ColumnDesc where
  name : Bytes
  deriving DecidableEq

/-- What a query answers: its columns and its rows. -/
structure QueryResult where
  columns : List ColumnDesc
  rows : List (List Cell)
  deriving DecidableEq

/-- `pb.ConnectRequest`. -/
structure ConnectRequest where
  host : Bytes
  port : Int32
  username : Bytes
  password : Bytes
  serverName : Bytes
  database : Bytes
  deriving DecidableEq

/-- The calls of an agent. -/
inductive AgentCall
  | connect (req : ConnectRequest)
  | beginTransaction (connID : Bytes)
  | executeQuery (connID sql : Bytes) (params : List Param)
  | commitTransaction (connID : Bytes)
  | rollbackTransaction (connID : Bytes)
  | disconnect (connID : Bytes)
  | close
  deriving DecidableEq

/-- What a call yields when it succeeds. -/
abbrev AgentVal : AgentCall → Type
  | .connect _ => Bytes
  | .executeQuery _ _ _ => QueryResult
  | _ => Unit

/-- What a call answers. -/
abbrev AgentAns (c : AgentCall) : Type := Except Bytes (AgentVal c)

/-- All the plugin can do. -/
inductive PluginOp
  | dial (agentPath : Bytes)
  | agent (c : AgentCall)
  | openFile (path : Bytes)
  | createTemp (dir pattern : Bytes)
  | write (path data : Bytes)
  | stat (path : Bytes)
  | closeFile (path : Bytes)
  | removeFile (path : Bytes)
  | now

/-- What each of these answers. -/
abbrev PluginAns : PluginOp → Type
  | .dial _ => Except Bytes Unit
  | .agent c => AgentAns c
  | .openFile _ => Except Bytes FileContent
  | .createTemp _ _ => Except Bytes Bytes
  | .write _ _ => Except Bytes Unit
  | .stat _ => Except Bytes Int
  | .closeFile _ => Except Bytes Unit
  | .removeFile _ => Except Bytes Unit
  | .now => Time

/-- A program of the plugin. -/
abbrev Proc (α : Type) := Prog PluginOp PluginAns α

/-- What the plugin did, with the answers. -/
abbrev PluginTrace := Prog.Trace PluginOp PluginAns

/-- What the agent was asked, with the answers. -/
abbrev AgentTrace := Prog.Trace AgentCall AgentAns

open Prog

/-- Asking the agent. -/
abbrev ask (c : AgentCall) : Proc (AgentAns c) := op (PluginOp.agent c)

/-- The request that opens the connection. The port is converted to 32 bits. -/
def Config.request (cfg : Config) : ConnectRequest where
  host := cfg.host
  port := Int32.ofInt cfg.port
  username := cfg.username
  password := cfg.password
  serverName := cfg.serverName
  database := cfg.database

/-- `Plugin.connect`. An agent that cannot connect is shut down again. -/
def connect (cfg : Config) : Proc (Except Bytes Bytes) :=
  check (op (PluginOp.dial cfg.agentPath)) ("informix: " ++ ·) fun _ => do
    match ← ask (.connect cfg.request) with
    | .error err =>
        let _ ← ask .close
        return .error ("informix: " ++ err)
    | .ok connID => return .ok connID

/-- `Plugin.disconnect`. What either call answers is at most logged. -/
def disconnect (connID : Bytes) : Proc Unit := do
  let _ ← ask (.disconnect connID)
  let _ ← ask .close
  return ()

/-- The calls of the agent among all that was done. -/
def agentTrace (tr : PluginTrace) : AgentTrace :=
  tr.filterMap (fun
    | ⟨.agent c, x⟩ => some ⟨c, x⟩
    | _ => none)

theorem agentTrace_append (s t : PluginTrace) :
    agentTrace (s ++ t) = agentTrace s ++ agentTrace t := List.filterMap_append

/-- Connecting: no agent, an agent that could not connect, or a connection. -/
theorem connect_runs (cfg : Config) (tr : PluginTrace) (r : Except Bytes Bytes)
    (h : Runs (connect cfg) tr r) :
    (∃ msg err, r = .error msg ∧ tr = [⟨.dial cfg.agentPath, .error err⟩]) ∨
    (∃ msg err x, r = .error msg ∧
      agentTrace tr = [⟨.connect cfg.request, .error err⟩, ⟨.close, x⟩]) ∨
    ∃ connID, r = .ok connID ∧ agentTrace tr = [⟨.connect cfg.request, .ok connID⟩] := by
  rcases (runs_call_iff _ _ _ _).mp h with ⟨dialled, tr', rfl, hdial⟩
  cases dialled with
  | error err =>
      rcases (runs_ret_iff _ _ _).mp hdial with ⟨rfl, rfl⟩
      exact Or.inl ⟨_, err, rfl, rfl⟩
  | ok u =>
      rcases (runs_call_iff _ _ _ _).mp hdial with ⟨answer, tr', rfl, hconnect⟩
      cases answer with
      | error err =>
          rcases (runs_call_iff _ _ _ _).mp hconnect with ⟨x, tr', rfl, hret⟩
          rcases (runs_ret_iff _ _ _).mp hret with ⟨rfl, rfl⟩
          exact Or.inr (Or.inl ⟨_, err, x, rfl, rfl⟩)
      | ok connID =>
          rcases (runs_ret_iff _ _ _).mp hconnect with ⟨rfl, rfl⟩
          exact Or.inr (Or.inr ⟨connID, rfl, rfl⟩)

/-- The clean-up is two more calls, and what was returned stays. -/
theorem deferring_disconnect_runs {α : Type} (connID : Bytes) (body : Proc α) (tr : PluginTrace)
    (r : α) (h : Runs (deferring (disconnect connID) body) tr r) :
    ∃ tr' y z, Runs body tr' r ∧ agentTrace tr = agentTrace tr' ++
      [⟨.disconnect connID, y⟩, ⟨.close, z⟩] := by
  rcases (runs_bind_iff _ _ _ _).mp h with ⟨tr₁, tr₂, a, rfl, hbody, hrest⟩
  rcases (runs_call_iff _ _ _ _).mp hrest with ⟨y, tr₃, rfl, hclose⟩
  rcases (runs_call_iff _ _ _ _).mp hclose with ⟨z, tr₄, rfl, hret⟩
  rcases (runs_ret_iff _ _ _).mp hret with ⟨rfl, rfl⟩
  exact ⟨tr₁, y, z, hbody, agentTrace_append _ _⟩

/-- The operation succeeded. -/
def succeeded : Prog.Event PluginOp PluginAns → Bool
  | ⟨.dial _, x⟩ => x.isOk
  | ⟨.agent _, x⟩ => x.isOk
  | ⟨.openFile _, x⟩ => x.isOk
  | ⟨.createTemp _ _, x⟩ => x.isOk
  | ⟨.write _ _, x⟩ => x.isOk
  | ⟨.stat _, x⟩ => x.isOk
  | ⟨.closeFile _, x⟩ => x.isOk
  | ⟨.removeFile _, x⟩ => x.isOk
  | ⟨.now, _⟩ => true

/-- A world in which everything succeeds. -/
def accept : (o : PluginOp) → Unit → PluginAns o × Unit
  | .agent (.connect _), s => (.ok [], s)
  | .agent (.executeQuery _ _ _), s => (.ok ⟨[], []⟩, s)
  | .agent (.beginTransaction _), s => (.ok (), s)
  | .agent (.commitTransaction _), s => (.ok (), s)
  | .agent (.rollbackTransaction _), s => (.ok (), s)
  | .agent (.disconnect _), s => (.ok (), s)
  | .agent .close, s => (.ok (), s)
  | .openFile _, s => (.ok ⟨[], none⟩, s)
  | .createTemp _ _, s => (.ok [], s)
  | .dial _, s => (.ok (), s)
  | .write _ _, s => (.ok (), s)
  | .stat _, s => (.ok (0 : Int), s)
  | .closeFile _, s => (.ok (), s)
  | .removeFile _, s => (.ok (), s)
  | .now, s => ((0 : Int), s)

/-- A program has a run in which everything succeeds. -/
theorem runs_accept {α : Type} (p : Proc α) :
    ∃ tr, Runs p tr (exec accept p ()).1 ∧ ∀ e ∈ tr, succeeded e = true := by
  have haccept : ∀ o s, succeeded ⟨o, (accept o s).1⟩ = true := by
    intro o s
    cases o with
    | agent c => cases c <;> rfl
    | _ => rfl
  rcases runs_exec accept p () with ⟨tr, h, hall⟩
  refine ⟨tr, h, fun e he => ?_⟩
  rcases e with ⟨o, x⟩
  rcases hall _ he with ⟨s, hx⟩
  rw [show x = (accept o s).1 from hx]
  exact haccept o s

end Informix

end Bop
