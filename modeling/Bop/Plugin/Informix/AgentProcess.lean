import Bop.Effect.Monitor
import Bop.Json.Number
import Bop.Plugin.Informix.Restore

/-!
# The Agent's Process

The client of the agent starts a process for every session, reads the port it
listens on from the first line of its output, and talks to it over a
connection. Closing asks the process to shut down, kills it if it does not
answer, and waits for it either way.

Nothing else in the program waits for such a process, so every way out of a
session has to. The monitor is the life of one process: it is started, it may
be connected to, it is told to stop, the connection is closed, and it is waited
for.

## Main definitions

* `AgentOp`, `AgentOpAns`: What the client does.
* `readListeningPort`, `dialAgent`, `closeAgent`: The two ends of a session.
* `collect`: What `ExecuteQuery` makes of the messages of a stream.
* `agentImpl`: The plugin's calls as the client makes them.
* `Life`, `life`: The monitor of a process.
* `session`: The same as the plugin sees it.

## Theorems

* `life_agentImpl`: The client keeps to the life of a process.
* `backup_session`, `restore_session`, `health_session`: The plugin keeps to a
  session.
* `life_of_session`: What ends its session ends the process.
* `reaped_of_start`: What an accepted life does with a process it starts.
-/

namespace Bop

namespace Informix

open Prog

/-! ### The client -/

/-- A message of the stream that a query answers with. -/
inductive QueryEvent
  | columns (columns : List ColumnDesc)
  | row (cells : List Cell)
  | done

/-- The messages of a stream before its end, and the error it ends with if it does
    not end in order. -/
structure QueryStream where
  events : List QueryEvent
  err : Option Bytes

/-- What the client does: to the process, to the connection, over the connection,
    and the operations that need no agent. -/
inductive AgentOp
  | stdoutPipe
  | start (agentPath : Bytes)
  /-- The output of the process, until the scanner has a line. -/
  | readStdout
  | newClient (address : Bytes)
  | kill
  | closeConn
  | wait
  | connect (req : ConnectRequest)
  | executeQuery (connID sql : Bytes) (params : List Param)
  /-- `stream.Recv` until it fails. -/
  | recv
  | beginTransaction (connID : Bytes)
  | commitTransaction (connID : Bytes)
  | rollbackTransaction (connID : Bytes)
  | disconnect (connID : Bytes)
  | shutdown
  | other (o : PluginOp)

/-- What each of these answers. -/
abbrev AgentOpAns : AgentOp → Type
  | .readStdout => FileContent
  | .connect _ => Except Bytes Bytes
  | .recv => QueryStream
  | .other o => PluginAns o
  | _ => Except Bytes Unit

/-- A program of the client. -/
abbrev AgentProc (α : Type) := Prog AgentOp AgentOpAns α

/-- The error of `strconv.Atoi` for what is no integer or none of 64 bits. -/
def atoiError (s : Bytes) : Bytes :=
  let unsigned := if s.head? = some 43 ∨ s.head? = some 45 then s.tail else s
  "strconv.Atoi: parsing " ++ quoteGo s ++
    if unsigned ≠ [] ∧ unsigned.all Json.isDigit then ": value out of range" else ": invalid syntax"

/-- What the first line of the output begins with. -/
def listeningPrefix : Bytes := "LISTENING "

/-- `readListeningPort`. -/
def readListeningPort (out : FileContent) : Except Bytes Int :=
  let scan := scanLines maxScanTokenSize out.data out.readErr
  match scan.lines with
  | [] => match scan.err with
    | some err => .error err
    | none => .error "ifx-agent closed stdout before printing a listening port"
  | line :: _ =>
      if listeningPrefix.isPrefixOf line = false then
        .error ("unexpected first line from ifx-agent: " ++ quoteGo line)
      else match atoi (line.drop listeningPrefix.length) with
        | none => .error (atoiError (line.drop listeningPrefix.length))
        | some port => .ok port

/-- A process that is given up before there is a connection to it. -/
def abandon : AgentProc Unit := do
  let _ ← op AgentOp.kill
  let _ ← op AgentOp.wait
  return ()

/-- `dialAgent`. -/
def dialAgent (agentPath : Bytes) : AgentProc (Except Bytes Unit) :=
  check (op AgentOp.stdoutPipe) ("informix: ifx-agent stdout pipe: " ++ ·) fun _ =>
  check (op (AgentOp.start agentPath)) ("informix: start ifx-agent: " ++ ·) fun _ => do
    let out ← op AgentOp.readStdout
    match readListeningPort out with
    | .error err =>
        abandon
        return .error ("informix: read ifx-agent listening port: " ++ err)
    | .ok port => match ← op (AgentOp.newClient ("127.0.0.1:" ++ itoa port)) with
      | .error err =>
          abandon
          return .error ("informix: dial ifx-agent: " ++ err)
      | .ok _ => return .ok ()

/-- `Close`. What goes wrong is only logged. -/
def closeAgent : AgentProc (Except Bytes Unit) := do
  match ← op AgentOp.shutdown with
  | .error _ =>
      let _ ← op AgentOp.kill
      let _ ← op AgentOp.closeConn
      let _ ← op AgentOp.wait
      return .ok ()
  | .ok _ =>
      let _ ← op AgentOp.closeConn
      let _ ← op AgentOp.wait
      return .ok ()

/-- What one message adds to the result. -/
def receive (result : QueryResult) : QueryEvent → QueryResult
  | .columns columns => { result with columns := columns }
  | .row cells => { result with rows := result.rows ++ [cells] }
  | .done => result

/-- The loop of `ExecuteQuery`. -/
def collect (stream : QueryStream) : Except Bytes QueryResult :=
  match stream.err with
  | some err => .error ("informix: ExecuteQuery stream: " ++ err)
  | none => .ok (stream.events.foldl receive ⟨[], []⟩)

/-- The plugin's calls as the client makes them. -/
def agentImpl : (o : PluginOp) → AgentProc (PluginAns o)
  | .dial agentPath => dialAgent agentPath
  | .agent (.connect req) => check (op (AgentOp.connect req)) ("informix: Connect RPC: " ++ ·)
      fun connID => return .ok connID
  | .agent (.executeQuery connID sql params) =>
      check (op (AgentOp.executeQuery connID sql params)) ("informix: ExecuteQuery RPC: " ++ ·)
        fun _ => do
        let stream ← op AgentOp.recv
        return collect stream
  | .agent (.beginTransaction connID) => check (op (AgentOp.beginTransaction connID))
      ("informix: BeginTransaction RPC: " ++ ·) fun _ => return .ok ()
  | .agent (.commitTransaction connID) => check (op (AgentOp.commitTransaction connID))
      ("informix: CommitTransaction RPC: " ++ ·) fun _ => return .ok ()
  | .agent (.rollbackTransaction connID) => check (op (AgentOp.rollbackTransaction connID))
      ("informix: RollbackTransaction RPC: " ++ ·) fun _ => return .ok ()
  | .agent (.disconnect connID) => check (op (AgentOp.disconnect connID))
      ("informix: Disconnect RPC: " ++ ·) fun _ => return .ok ()
  | .agent .close => closeAgent
  | o => op (AgentOp.other o)

/-! ### The life of a process -/

/-- Where the process of a session is. -/
inductive Life
  /-- There is none. -/
  | none
  /-- It was started. -/
  | started
  /-- There is a connection to it. -/
  | connected
  /-- It was told to stop, and there is still a connection. -/
  | told
  /-- It was told to stop, and there is no connection. -/
  | leaving
  deriving DecidableEq

/-- The order in which the client may do things to a process. -/
def life : Monitor AgentOp AgentOpAns Life
  | q, .stdoutPipe, _ => if q = .none then some .none else none
  | q, .start _, x => if q = .none then some (if x.isOk then .started else .none) else none
  | q, .readStdout, _ => if q = .started then some .started else none
  | q, .newClient _, x =>
      if q = .started then some (if x.isOk then .connected else .started) else none
  | .started, .kill, _ => some .leaving
  | .connected, .kill, _ => some .told
  | _, .kill, _ => none
  | q, .shutdown, x => if q = .connected then some (if x.isOk then .told else .connected) else none
  | q, .closeConn, _ => if q = .told then some .leaving else none
  | q, .wait, _ => if q = .leaving then some .none else none
  | _, .other (.dial _), _ => none
  | _, .other (.agent _), _ => none
  | q, .other _, _ => some q
  -- What is left are the calls over the connection.
  | q, _, _ => if q = .connected then some .connected else none

/-- The same as the plugin sees it: whether there is an agent. -/
def session : Monitor PluginOp PluginAns Bool
  | q, .dial _, x => if q then none else some x.isOk
  | q, .agent .close, _ => if q then some false else none
  | q, .agent _, _ => if q then some true else none
  | q, _, _ => some q

/-- Where the process is between the plugin's calls. -/
def Life.of : Bool → Life
  | true => .connected
  | false => .none

/-- Dialling ends with a connected process or with none. -/
theorem life_dialAgent (agentPath : Bytes) :
    Obeys life .none (dialAgent agentPath) (fun x q => q = Life.of x.isOk) := by
  have habandon : ∀ err : Bytes, Obeys life .started (do
      abandon
      return .error err : AgentProc (Except Bytes Unit)) (fun x q => q = Life.of x.isOk) :=
    fun err _ => ⟨.leaving, rfl, fun _ => ⟨.none, rfl, rfl⟩⟩
  refine obeys_check life _ _ _ _ (fun _ q => q = .none) _ (fun _ => ⟨.none, rfl, rfl⟩) ?_
    fun _ _ h => h
  rintro _ _ rfl
  refine obeys_check life _ _ _ _ (fun x q => q = if x.isOk then .started else .none) _
    (fun x => ⟨_, rfl, rfl⟩) ?_ fun _ _ h => h
  rintro _ _ rfl
  -- From here on there is a process, and every error gives it up.
  refine obeys_bind life (op AgentOp.readStdout) _ _ (fun _ q => q = .started) _
    (fun _ => ⟨.started, rfl, rfl⟩) ?_
  rintro out _ rfl
  split
  · exact habandon _
  · refine obeys_bind life (op (AgentOp.newClient _)) _ _
      (fun x q => q = if x.isOk then .connected else .started) _ (fun x => ⟨_, rfl, rfl⟩) ?_
    rintro x _ rfl
    cases x with
    | error err => exact habandon _
    | ok u => exact rfl

/-- Closing ends with no process, whatever it answers. -/
theorem life_closeAgent : Obeys life .connected closeAgent (fun _ q => q = .none) := by
  intro answer
  cases answer with
  | error err =>
      exact ⟨.connected, rfl, fun _ => ⟨.told, rfl, fun _ => ⟨.leaving, rfl, fun _ =>
        ⟨.none, rfl, rfl⟩⟩⟩⟩
  | ok u =>
      exact ⟨.told, rfl, fun _ => ⟨.leaving, rfl, fun _ => ⟨.none, rfl, rfl⟩⟩⟩

/-- A call over the connection leaves the process connected. -/
theorem life_checked {α β : Type} (p : AgentProc (Except Bytes α)) (wrap : Bytes → Bytes)
    (k : α → AgentProc (Except Bytes β))
    (hp : Obeys life .connected p (fun _ q => q = .connected))
    (hk : ∀ a, Obeys life .connected (k a) (fun _ q => q = .connected)) :
    Obeys life .connected (check p wrap k) (fun _ q => q = .connected) := by
  refine obeys_check life p wrap k _ _ _ hp ?_ fun _ _ h => h
  rintro a _ rfl
  exact hk a

/-- The client keeps to the life of a process where the plugin keeps to a session. -/
theorem life_agentImpl (q : Bool) (o : PluginOp) (h : ∀ x, ∃ q', session q o x = some q') :
    Obeys life (Life.of q) (agentImpl o)
      (fun x r => ∃ q', session q o x = some q' ∧ r = Life.of q') := by
  have hfalse : ∀ c : AgentCall, q = false → ∀ x : AgentAns c, session q (.agent c) x = none := by
    rintro c rfl x
    cases c <;> rfl
  cases o with
  | dial agentPath =>
      cases q with
      | true =>
          rcases h (.ok ()) with ⟨q', hq'⟩
          cases hq'
      | false =>
          refine obeys_mono life _ _ _ _ (life_dialAgent agentPath) ?_
          rintro x _ rfl
          exact ⟨x.isOk, rfl, rfl⟩
  | agent c =>
      cases q with
      | false =>
          rcases h (.error []) with ⟨q', hq'⟩
          rw [hfalse c rfl] at hq'
          cases hq'
      | true =>
          -- Every call but the last leaves the process as it is.
          have hone : ∀ o : AgentOp, (∀ x, life .connected o x = some .connected) →
              Obeys life .connected (op o) (fun _ q => q = .connected) :=
            fun o ho x => ⟨_, ho x, rfl⟩
          cases c with
          | close =>
              refine obeys_mono life _ _ _ _ life_closeAgent ?_
              rintro x _ rfl
              exact ⟨false, rfl, rfl⟩
          | executeQuery connID sql params =>
              refine obeys_mono life _ _ _ _ (life_checked (op (AgentOp.executeQuery connID sql
                params)) _ _ (hone _ fun _ => rfl) fun _ => obeys_bind life (op AgentOp.recv) _ _
                (fun _ q => q = .connected) _ (hone _ fun _ => rfl) ?_) ?_
              · rintro _ _ rfl
                exact rfl
              · rintro x _ rfl
                exact ⟨true, rfl, rfl⟩
          | connect req =>
              refine obeys_mono life _ _ _ _ (life_checked (op (AgentOp.connect req)) _ _
                (hone _ fun _ => rfl) fun _ => rfl) ?_
              rintro x _ rfl
              exact ⟨true, rfl, rfl⟩
          | beginTransaction connID =>
              refine obeys_mono life _ _ _ _ (life_checked (op (AgentOp.beginTransaction connID))
                _ _ (hone _ fun _ => rfl) fun _ => rfl) ?_
              rintro x _ rfl
              exact ⟨true, rfl, rfl⟩
          | commitTransaction connID =>
              refine obeys_mono life _ _ _ _ (life_checked (op (AgentOp.commitTransaction connID))
                _ _ (hone _ fun _ => rfl) fun _ => rfl) ?_
              rintro x _ rfl
              exact ⟨true, rfl, rfl⟩
          | rollbackTransaction connID =>
              refine obeys_mono life _ _ _ _ (life_checked (op (AgentOp.rollbackTransaction connID))
                _ _ (hone _ fun _ => rfl) fun _ => rfl) ?_
              rintro x _ rfl
              exact ⟨true, rfl, rfl⟩
          | disconnect connID =>
              refine obeys_mono life _ _ _ _ (life_checked (op (AgentOp.disconnect connID)) _ _
                (hone _ fun _ => rfl) fun _ => rfl) ?_
              rintro x _ rfl
              exact ⟨true, rfl, rfl⟩
  | openFile | createTemp | write | stat | closeFile | removeFile | now =>
      intro x
      cases q <;> exact ⟨_, rfl, _, rfl, rfl⟩

/-! ### Sessions -/

/-- A program that only does things that need no agent. -/
def Local (o : PluginOp) : Prop := ∀ q x, session q o x = some q

theorem session_of_calls {α : Type} (q : Bool) (p : Proc α) (h : Calls Local p) :
    Obeys session q p (fun _ q' => q' = q) :=
  obeys_of_calls session Local q (fun _ ho x => ho q x) p h

/-- Connecting ends with an agent or with none. -/
theorem connect_session (cfg : Config) :
    Obeys session false (connect cfg) (fun r q => q = r.isOk) := by
  refine obeys_check session _ _ _ _ (fun x q => q = x.isOk) _ (fun x => ⟨x.isOk, rfl, rfl⟩) ?_
    fun _ _ h => h
  rintro _ _ rfl
  intro answer
  cases answer with
  | error err => exact ⟨true, rfl, fun _ => ⟨false, rfl, rfl⟩⟩
  | ok connID => exact ⟨true, rfl, rfl⟩

theorem disconnect_session (connID : Bytes) :
    Obeys session true (disconnect connID) (fun _ q => q = false) :=
  fun _ => ⟨true, rfl, fun _ => ⟨false, rfl, rfl⟩⟩

/-- What is done in a connection, between connecting and disconnecting. -/
theorem connected_session {α : Type} (cfg : Config) (wrap : Bytes → Bytes)
    (body : Bytes → Proc (Except Bytes α))
    (hbody : ∀ connID, Obeys session true (body connID) (fun _ q => q = true)) :
    Obeys session false (check (connect cfg) wrap fun connID =>
      deferring (disconnect connID) (body connID)) (fun _ q => q = false) := by
  refine obeys_check session _ _ _ _ _ _ (connect_session cfg) ?_ fun _ _ h => h
  rintro connID _ rfl
  refine obeys_bind session _ _ _ _ _ (hbody connID) ?_
  rintro r _ rfl
  refine obeys_bind session _ _ _ _ _ (disconnect_session connID) ?_
  rintro _ _ rfl
  exact rfl

/-- Calls of the agent in a connection. -/
theorem ask_session (c : AgentCall) (hc : c ≠ .close) :
    Obeys session true (ask c) (fun _ q => q = true) := by
  intro x
  refine ⟨true, ?_, rfl⟩
  cases c with
  | close => exact absurd rfl hc
  | _ => rfl

theorem askChecked_session {α : Type} (c : AgentCall) (hc : c ≠ .close) (wrap : Bytes → Bytes)
    (k : AgentVal c → Proc (Except Bytes α))
    (hk : ∀ a, Obeys session true (k a) (fun _ q => q = true)) :
    Obeys session true (check (ask c) wrap k) (fun _ q => q = true) := by
  refine obeys_check session _ _ _ _ _ _ (ask_session c hc) ?_ fun _ _ h => h
  rintro a _ rfl
  exact hk a

theorem calls_writeArtifact (tempDir resID : Bytes) (result : QueryResult) :
    Calls Local (writeArtifact tempDir resID result) := by
  have hop : ∀ o : PluginOp, Local o → Calls Local (op o : Proc (PluginAns o)) :=
    fun o ho => ⟨ho, fun _ => trivial⟩
  have hdump : ∀ path, Calls Local (writeDump path resID result) := by
    intro path
    refine calls_check _ _ _ _ (hop _ fun _ _ => rfl) fun _ => ?_
    generalize result.rows = rows
    induction rows with
    | nil => trivial
    | cons row rows ih => exact calls_check _ _ _ _ (hop _ fun _ _ => rfl) fun _ => ih
  have hgone : ∀ (path err : Bytes), Calls Local (do
      discard path
      return .error err : Proc (Except Bytes Artifact)) := fun path err =>
    ⟨fun _ _ => rfl, fun _ => ⟨fun _ _ => rfl, fun _ => trivial⟩⟩
  refine calls_check _ _ _ _ (hop _ fun _ _ => rfl) fun path => ?_
  refine calls_bind _ _ _ (hdump path) fun wrote => ?_
  cases wrote with
  | error err => exact hgone _ _
  | ok u =>
      refine ⟨fun _ _ => rfl, fun size => ?_⟩
      cases size with
      | error err => exact hgone _ _
      | ok size =>
          refine ⟨fun _ _ => rfl, fun closed => ?_⟩
          cases closed with
          | error err => exact ⟨fun _ _ => rfl, fun _ => trivial⟩
          | ok u => exact ⟨fun _ _ => rfl, fun _ => trivial⟩

/-- A backup is one session. -/
theorem backup_session (cfg : Config) (tempDir : Bytes) (res : Resource) :
    Obeys session false (backup cfg tempDir res) (fun _ q => q = false) := by
  refine connected_session cfg _ _ fun connID => ?_
  exact askChecked_session (.executeQuery connID _ []) (by rintro ⟨⟩) _ _ fun result =>
    session_of_calls true _ (calls_writeArtifact tempDir res.id result)

theorem insertRows_session (connID insertSQL : Bytes) (columnCount : Nat) (err : Option Bytes)
    (lines : List Bytes) :
    Obeys session true (insertRows connID insertSQL columnCount err lines)
      (fun _ q => q = true) := by
  induction lines with
  | nil => cases err <;> exact rfl
  | cons line rest ih =>
      unfold insertRows
      cases decodeRow line with
      | none => exact rfl
      | some row =>
          dsimp only
          split
          · exact rfl
          · exact askChecked_session _ (by rintro ⟨⟩) _ _ fun _ => ih

/-- What a restore does in its connection. -/
theorem restoreRows_inSession (d : Dump) (test : Bool) (connID : Bytes) :
    Obeys session true (restoreRows d test connID) (fun _ q => q = true) := by
  refine askChecked_session _ (by rintro ⟨⟩) _ _ fun _ => ?_
  refine obeys_bind session _ _ _ _ _ (insertRows_session _ _ _ _ _) ?_
  rintro insertErr _ rfl
  dsimp only
  split
  · refine obeys_bind session _ _ _ _ _ (ask_session _ (by rintro ⟨⟩)) ?_
    rintro _ _ rfl
    split <;> exact rfl
  · exact askChecked_session _ (by rintro ⟨⟩) _ _ fun _ => rfl

/-- A restore is one session, or none if its artifact does not open. -/
theorem restore_session (cfg : Config) (a : Artifact) :
    Obeys session false (restore cfg a) (fun _ q => q = false) := by
  refine obeys_check session _ _ _ _ (fun _ q => q = false) _ (fun _ => ⟨false, rfl, rfl⟩) ?_
    fun _ _ h => h
  rintro file _ rfl
  unfold restoreFrom
  split
  · exact rfl
  · exact connected_session cfg _ _ fun connID => restoreRows_inSession _ _ connID

/-- A verification has no session. -/
theorem verify_session (a : Artifact) :
    Obeys session false (verify a) (fun _ q => q = false) := by
  refine obeys_check session _ _ _ _ (fun _ q => q = false) _ (fun _ => ⟨false, rfl, rfl⟩) ?_
    fun _ _ h => h
  rintro file _ rfl
  dsimp only
  split
  · split <;> exact rfl
  · split
    · exact rfl
    · split <;> exact rfl

/-- A health check is one session. -/
theorem health_session (cfg : Config) :
    Obeys session false (health cfg) (fun _ q => q = false) := by
  refine obeys_check session _ _ _ _ _ _ (connect_session cfg) ?_ fun _ _ h => h
  rintro connID _ rfl
  refine obeys_bind session _ _ _ _ _ (disconnect_session connID) ?_
  rintro _ _ rfl
  exact rfl

/-- A program that ends its session ends the process. -/
theorem life_of_session {α : Type} (p : Proc α)
    (h : Obeys session false p (fun _ q => q = false)) :
    Obeys life .none (interp agentImpl p) (fun _ q => q = .none) := by
  refine obeys_mono life _ _ _ _ (obeys_interp session life Life.of agentImpl life_agentImpl p
    false _ h) ?_
  rintro _ _ ⟨_, rfl, rfl⟩
  exact rfl

/-! ### What an accepted life comes to -/

/-- A process is started. -/
def Starts (e : Prog.Event AgentOp AgentOpAns) : Bool :=
  match e with
  | ⟨.start _, .ok _⟩ => true
  | _ => false

/-- A process is told to stop: it is killed, or it answers that it shuts down. -/
def Stops (e : Prog.Event AgentOp AgentOpAns) : Bool :=
  match e with
  | ⟨.kill, _⟩ => true
  | ⟨.shutdown, .ok _⟩ => true
  | _ => false

/-- A connection is made, or closed. -/
def Connects (e : Prog.Event AgentOp AgentOpAns) : Bool :=
  match e with
  | ⟨.newClient _, .ok _⟩ => true
  | _ => false

def Disconnects (e : Prog.Event AgentOp AgentOpAns) : Bool :=
  match e with
  | ⟨.closeConn, _⟩ => true
  | _ => false

/-- The process is waited for. -/
def Waits (e : Prog.Event AgentOp AgentOpAns) : Bool :=
  match e with
  | ⟨.wait, _⟩ => true
  | _ => false

/-- What is done after a process is started: it is waited for, having been told to
    stop before, its connection is closed if there was one, and no other process
    is started until then. -/
def Reaped (tr : Trace AgentOp AgentOpAns) : Prop :=
  ∃ before wait after, tr = before ++ wait :: after ∧ Waits wait = true ∧
    (∃ e ∈ before, Stops e = true) ∧
    ((∃ e ∈ before, Connects e = true) → ∃ e ∈ before, Disconnects e = true) ∧
    ∀ e ∈ before, Starts e = false ∧ Waits e = false

namespace Life

/-- The process was told to stop. -/
def isTold : Life → Bool
  | told | leaving => true
  | _ => false

/-- There is a connection to it. -/
def hasConn : Life → Bool
  | connected | told => true
  | _ => false

end Life

/-- What is done to a process leaves it there: it was told to stop by it or before,
    its connection is closed by it or was before, and a connection that is made is
    there afterwards. -/
structure Stays (q q' : Life) (e : Prog.Event AgentOp AgentOpAns) : Prop where
  starts : Starts e = false
  waits : Waits e = false
  there : q' ≠ .none
  told : q'.isTold = true → q.isTold = true ∨ Stops e = true
  closed : q'.hasConn = false → q.hasConn = false ∨ Disconnects e = true
  made : Connects e = true → q'.hasConn = true

section Stays

variable {q q' : Life}

/-- What is done leaves the process as it was. -/
theorem stays_self (e : Prog.Event AgentOp AgentOpAns) (hq : q ≠ .none)
    (hstarts : Starts e = false) (hwaits : Waits e = false) (hconnects : Connects e = false) :
    Stays q q e where
  starts := hstarts
  waits := hwaits
  there := hq
  told := Or.inl
  closed := Or.inl
  made := fun h => by
    rw [hconnects] at h
    cases h

/-- Calls that are allowed in one place and stay there. -/
theorem eq_of_life (p : Life) (h : (if q = p then some p else none) = some q') : q' = q := by
  by_cases hq : q = p
  · rw [if_pos hq] at h
    rw [hq, Option.some.inj h]
  · rw [if_neg hq] at h
    cases h

theorem stays_newClient (address : Bytes) (x : Except Bytes Unit)
    (h : life q (.newClient address) x = some q') : Stays q q' ⟨.newClient address, x⟩ := by
  by_cases hq : q = .started
  · subst hq
    cases x with
    | ok u =>
        have hq' : Life.connected = q' := Option.some.inj h
        subst hq'
        exact ⟨rfl, rfl, by decide, nofun, nofun, fun _ => rfl⟩
    | error err =>
        have hq' : Life.started = q' := Option.some.inj h
        subst hq'
        exact stays_self _ (by decide) rfl rfl rfl
  · simp only [life, if_neg hq] at h
    cases h

theorem stays_kill (x : Except Bytes Unit) (h : life q .kill x = some q') :
    Stays q q' ⟨.kill, x⟩ := by
  cases q with
  | started =>
      cases h
      exact ⟨rfl, rfl, by decide, fun _ => Or.inr rfl, fun _ => Or.inl rfl, nofun⟩
  | connected =>
      cases h
      exact ⟨rfl, rfl, by decide, fun _ => Or.inr rfl, nofun, nofun⟩
  | none | told | leaving => cases h

theorem stays_shutdown (x : Except Bytes Unit) (h : life q .shutdown x = some q') :
    Stays q q' ⟨.shutdown, x⟩ := by
  by_cases hq : q = .connected
  · subst hq
    cases x with
    | ok u =>
        have hq' : Life.told = q' := Option.some.inj h
        subst hq'
        exact ⟨rfl, rfl, by decide, fun _ => Or.inr rfl, nofun, nofun⟩
    | error err =>
        have hq' : Life.connected = q' := Option.some.inj h
        subst hq'
        exact stays_self _ (by decide) rfl rfl rfl
  · simp only [life, if_neg hq] at h
    cases h

theorem stays_closeConn (x : Except Bytes Unit) (h : life q .closeConn x = some q') :
    Stays q q' ⟨.closeConn, x⟩ := by
  by_cases hq : q = .told
  · subst hq
    have hq' : Life.leaving = q' := Option.some.inj h
    subst hq'
    exact ⟨rfl, rfl, by decide, fun _ => Or.inl rfl, fun _ => Or.inr rfl, nofun⟩
  · simp only [life, if_neg hq] at h
    cases h

end Stays

/-- One thing that is done to a process that is there: it is waited for, or it
    stays. -/
theorem life_step (q q' : Life) (e : Prog.Event AgentOp AgentOpAns)
    (h : life q e.1 e.2 = some q') (hq : q ≠ .none) :
    Starts e = false ∧ Waits e = true ∧ q = .leaving ∧ q' = .none ∨ Stays q q' e := by
  rcases e with ⟨o, x⟩
  have hkept : ∀ p, (if q = p then some p else none) = some q' → Starts ⟨o, x⟩ = false →
      Waits ⟨o, x⟩ = false → Connects ⟨o, x⟩ = false → Stays q q' ⟨o, x⟩ := by
    intro p hp hstarts hwaits hconnects
    rw [eq_of_life p hp]
    exact stays_self _ hq hstarts hwaits hconnects
  cases o with
  | start path | stdoutPipe =>
      simp only [life, if_neg hq] at h
      cases h
  | wait =>
      by_cases hleaving : q = .leaving
      · simp only [life, if_pos hleaving, Option.some.injEq] at h
        exact Or.inl ⟨rfl, rfl, hleaving, h.symm⟩
      · simp only [life, if_neg hleaving] at h
        cases h
  | newClient address => exact Or.inr (stays_newClient address x h)
  | kill => exact Or.inr (stays_kill x h)
  | shutdown => exact Or.inr (stays_shutdown x h)
  | closeConn => exact Or.inr (stays_closeConn x h)
  | readStdout => exact Or.inr (hkept .started h rfl rfl rfl)
  | connect req => exact Or.inr (hkept .connected h rfl rfl rfl)
  | executeQuery connID sql params => exact Or.inr (hkept .connected h rfl rfl rfl)
  | recv => exact Or.inr (hkept .connected h rfl rfl rfl)
  | beginTransaction connID => exact Or.inr (hkept .connected h rfl rfl rfl)
  | commitTransaction connID => exact Or.inr (hkept .connected h rfl rfl rfl)
  | rollbackTransaction connID => exact Or.inr (hkept .connected h rfl rfl rfl)
  | disconnect connID => exact Or.inr (hkept .connected h rfl rfl rfl)
  | other o =>
      -- The plugin's calls of the agent are made of the others.
      have hsame : q' = q := by cases o <;> first | exact (Option.some.inj h).symm | cases h
      subst hsame
      exact Or.inr (stays_self _ hq rfl rfl rfl)

/-- From a process that is there, an accepted life that ends with none waits for
    it, and does what it has to before. -/
theorem reaped_of_watch (tr : Trace AgentOp AgentOpAns) (q : Life) (hq : q ≠ .none)
    (h : watch life q tr = some .none) :
    ∃ before wait after, tr = before ++ wait :: after ∧ Waits wait = true ∧
      (q.isTold = true ∨ ∃ e ∈ before, Stops e = true) ∧
      ((q.hasConn = true ∨ ∃ e ∈ before, Connects e = true) →
        ∃ e ∈ before, Disconnects e = true) ∧
      ∀ e ∈ before, Starts e = false ∧ Waits e = false := by
  induction tr generalizing q with
  | nil => exact absurd (Option.some.inj h) hq
  | cons e tr ih =>
      simp only [watch] at h
      cases hstep : life q e.1 e.2 with
      | none =>
          rw [hstep] at h
          cases h
      | some q' =>
          rw [hstep] at h
          rcases life_step q q' e hstep hq with
            ⟨_, hwait, rfl, rfl⟩ | ⟨hstart, hwait, hq', htold, hconn, hmade⟩
          · refine ⟨[], e, tr, rfl, hwait, Or.inl rfl, fun hc => ?_,
              fun _ hmem => absurd hmem List.not_mem_nil⟩
            rcases hc with hc | ⟨_, hmem, _⟩
            · cases hc
            · exact absurd hmem List.not_mem_nil
          · rcases ih q' hq' h with ⟨before, w, after, rfl, hw, hstops, hdisconnects, hquiet⟩
            refine ⟨e :: before, w, after, rfl, hw, ?_, fun hc => ?_, fun e' he' => ?_⟩
            · rcases hstops with htold' | ⟨e', he', hstop⟩
              · exact (htold htold').imp_right fun hstop => ⟨e, List.mem_cons_self, hstop⟩
              · exact Or.inr ⟨e', List.mem_cons_of_mem e he', hstop⟩
            · -- The connection is there afterwards, or it is closed right here.
              by_cases hclosed : q'.hasConn = true ∨ ∃ e' ∈ before, Connects e' = true
              · rcases hdisconnects hclosed with ⟨e', he', hd⟩
                exact ⟨e', List.mem_cons_of_mem e he', hd⟩
              · rw [not_or, Bool.not_eq_true] at hclosed
                refine ⟨e, List.mem_cons_self, ?_⟩
                rcases hconn hclosed.1 with hnone | hd
                · rcases hc with hhas | ⟨e', he', hc'⟩
                  · rw [hnone] at hhas
                    cases hhas
                  · rcases List.mem_cons.mp he' with rfl | he'
                    · rw [hmade hc'] at hclosed
                      cases hclosed.1
                    · exact absurd ⟨e', he', hc'⟩ hclosed.2
                · exact hd
            · rcases List.mem_cons.mp he' with rfl | he'
              · exact ⟨hstart, hwait⟩
              · exact hquiet e' he'

/-- A process that is started in a life that ends with none is reaped. -/
theorem reaped_of_start (tr₁ tr₂ : Trace AgentOp AgentOpAns) (e : Prog.Event AgentOp AgentOpAns)
    (q : Life) (he : Starts e = true) (h : watch life q (tr₁ ++ e :: tr₂) = some .none) :
    Reaped tr₂ := by
  rw [watch_append, Option.bind_eq_some_iff] at h
  rcases h with ⟨q₁, _, h⟩
  rcases e with ⟨o, x⟩
  cases o with
  | start path =>
      cases x with
      | error err => cases he
      | ok u =>
          simp only [watch, life] at h
          split at h
          · cases h
          · next q' hq' =>
              split at hq'
              · cases hq'
                rcases reaped_of_watch tr₂ .started (by decide) h with
                  ⟨before, w, after, hsplit, hw, hstops, hdisconnects, hquiet⟩
                refine ⟨before, w, after, hsplit, hw, hstops.resolve_left (by decide),
                  fun hc => hdisconnects (Or.inr hc), hquiet⟩
              · cases hq'
  | _ => cases he

end Informix

end Bop
