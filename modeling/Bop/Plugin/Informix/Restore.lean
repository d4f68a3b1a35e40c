import Bop.Effect.Interp
import Bop.Plugin.Informix.Dump

/-!
# The Informix Plugin

Backing a table up, checking an artifact and restoring one. A restore reads
everything it needs from the artifact: the table from the header line and the
values, with their types, from the rows. The header has to pass three checks
before anything else happens. Then all rows go into one transaction, which is
committed if every row was inserted, and rolled back if not or if the restore
is only a test.

What a restore asks of the agent is one of a few things, whatever the artifact
holds and whatever fails. `Session` lists them and what each says about the
artifact and the result.

## Main definitions

* `Dump`, `openDump`: An artifact with a header that passes.
* `restore`, `backup`, `verify`, `health`: The plugin's entry points.
* `parseRows`: The parameters of all rows.
* `Session`: What a restore asks of the agent.

## Theorems

* `insertRows_runs`: The loop over the rows.
* `restoreFrom_session`: A restore asks nothing or is one of the sessions.
-/

namespace Bop

namespace Informix

open Prog Json

/-- What stands for the text of an `encoding/json` error. -/
def jsonError : Bytes := "json: cannot decode"

/-- `newDumpScanner`, scanned to its end. -/
def scanDump (file : FileContent) : Scan := scanLines maxDumpLineSize file.data file.readErr

/-- An artifact with a header that passes: the header and what follows it. -/
structure Dump where
  header : DumpHeader
  /-- The lines after the header. -/
  rows : List Bytes
  /-- The error the scan of them ends with. -/
  err : Option Bytes
  /-- The header names a table. -/
  named : validTableName header.table = true
  /-- The header declares columns. -/
  declared : GoSlice.toList header.columns ≠ []

/-- How many columns the header declares. -/
def Dump.columnCount (d : Dump) : Nat := (GoSlice.toList d.header.columns).length

/-- Reading the header line and checking it. -/
def openDump (file : FileContent) : Except Bytes Dump :=
  let scan := scanDump file
  match scan.lines with
  | [] => match scan.err with
    | some err => .error ("informix: restore: read artifact header: " ++ err)
    | none => .error ("informix: restore: artifact has no header line" : Bytes)
  | line :: rows => match decodeHeader line with
    | none => .error ("informix: restore: parse artifact header: " ++ jsonError)
    | some header =>
        if h : header.table = [] ∨ GoSlice.toList header.columns = [] then
          .error ("informix: restore: artifact header missing table/columns" : Bytes)
        else if hname : validTableName header.table = true then
          .ok ⟨header, rows, scan.err, hname, fun hnil => h (Or.inr hnil)⟩
        else .error ("informix: restore: artifact header table name " ++ quoteGo header.table ++
          " is not a valid identifier")

/-- `strings.Repeat`. -/
def repeatBytes (s : Bytes) (count : Nat) : Bytes := (List.replicate count s).flatten

/-- `strings.TrimSuffix`. -/
def trimSuffix (s suffix : Bytes) : Bytes :=
  if hasSuffix s suffix then s.take (s.length - suffix.length) else s

/-- The statement that inserts one row. -/
def Dump.insertSQL (d : Dump) : Bytes :=
  "insert into " ++ d.header.table ++ " values (" ++
    trimSuffix (repeatBytes "?," d.columnCount) "," ++ ")"

/-- `Plugin.insertRows`, over the lines the scanner delivers and the error it
    ends with. -/
def insertRows (connID insertSQL : Bytes) (columnCount : Nat) (err : Option Bytes) :
    List Bytes → Proc (Except Bytes Unit)
  | [] => match err with
    | some err => return .error ("read artifact: " ++ err)
    | none => return .ok ()
  | line :: rest => match decodeRow line with
    | none => return .error ("parse row: " ++ jsonError)
    | some row =>
        let cells := GoSlice.toList row.cells
        if cells.length ≠ columnCount then
          return .error ("row has " ++ itoaNat cells.length ++ " cell(s), header declares " ++
            itoaNat columnCount ++ " column(s)")
        else check (ask (.executeQuery connID insertSQL (cells.map cellToParam)))
          (fun err => ("insert row: " : Bytes) ++ err)
          fun _ => insertRows connID insertSQL columnCount err rest

/-- A restore is a test when the resource is marked as one. -/
def isRestoreTest (a : Artifact) : Bool := hasSuffix a.resourceID restoreTestSuffix

/-- A restore's part inside the connection. -/
def restoreRows (d : Dump) (test : Bool) (connID : Bytes) : Proc (Except Bytes Unit) :=
  let wrap (err : Bytes) : Bytes := "informix: restore " ++ d.header.table ++ ": " ++ err
  check (ask (.beginTransaction connID)) (fun err =>
    wrap ("begin transaction: " ++ err)) fun _ => do
    let insertErr ← insertRows connID d.insertSQL d.columnCount d.err d.rows
    if insertErr.isOk = false ∨ test = true then
      let _ ← ask (.rollbackTransaction connID)
      match insertErr with
      | .error err => return .error (wrap err)
      | .ok _ => return .ok ()
    else
      check (ask (.commitTransaction connID)) (fun err => wrap ("commit transaction: " ++ err))
        fun _ => return .ok ()

/-- A restore from an artifact that was opened. -/
def restoreFrom (cfg : Config) (a : Artifact) (file : FileContent) : Proc (Except Bytes Unit) :=
  match openDump file with
  | .error err => return .error err
  | .ok d => check (connect cfg) (fun err => "informix: restore " ++ d.header.table ++ ": " ++ err)
      fun connID => deferring (disconnect connID) (restoreRows d (isRestoreTest a) connID)

/-- `Plugin.Restore`. -/
def restore (cfg : Config) (a : Artifact) : Proc (Except Bytes Unit) :=
  check (op (PluginOp.openFile a.path))
    (fun err => ("informix: restore: open artifact: " : Bytes) ++ err) fun file =>
    restoreFrom cfg a file

/-- `Plugin.Verify`. The name of the table is not checked here. -/
def verify (a : Artifact) : Proc (Except Bytes Unit) :=
  check (op (PluginOp.openFile a.path))
    (fun err => ("informix: verify: open artifact: " : Bytes) ++ err) fun file =>
    let scan := scanDump file
    match scan.lines with
    | [] => match scan.err with
      | some err => return .error ("informix: verify: read artifact: " ++ err)
      | none => return .error ("informix: verify: artifact is empty" : Bytes)
    | line :: _ => match decodeHeader line with
      | none => return .error ("informix: verify: artifact header is not valid JSON: " ++ jsonError)
      | some header =>
          if header.table = [] ∨ GoSlice.toList header.columns = [] then
            return .error ("informix: verify: artifact header missing table/columns" : Bytes)
          else return .ok ()

/-- An artifact file that is given up: it is closed and then removed. -/
def discard (path : Bytes) : Proc Unit := do
  let _ ← op (PluginOp.closeFile path)
  let _ ← op (PluginOp.removeFile path)
  return ()

/-- The file a result goes into, and what becomes of it on an error. -/
def writeArtifact (tempDir resID : Bytes) (result : QueryResult) :
    Proc (Except Bytes Artifact) :=
  check (op (PluginOp.createTemp tempDir ("informix-" ++ resID ++ "-*")))
    (fun err => ("informix: create artifact file: " : Bytes) ++ err) fun path => do
    match ← writeDump path resID result with
    | .error err =>
        discard path
        return .error ("informix: write artifact: " ++ err)
    | .ok _ => match ← op (PluginOp.stat path) with
      | .error err =>
          discard path
          return .error ("informix: stat artifact: " ++ err)
      | .ok size => match ← op (PluginOp.closeFile path) with
        | .error err =>
            let _ ← op (PluginOp.removeFile path)
            return .error ("informix: close artifact: " ++ err)
        | .ok _ => do
            let createdAt ← op PluginOp.now
            return .ok ⟨resID, [], [], path, size, [], false, createdAt⟩

/-- `Plugin.Backup`. -/
def backup (cfg : Config) (tempDir : Bytes) (res : Resource) : Proc (Except Bytes Artifact) :=
  let wrap (err : Bytes) : Bytes := "informix: backup " ++ res.id ++ ": " ++ err
  check (connect cfg) wrap fun connID => deferring (disconnect connID) <|
    check (ask (.executeQuery connID ("select * from " ++ res.id) []))
      (fun err => wrap ("query: " ++ err)) fun result => writeArtifact tempDir res.id result

/-- `Plugin.Health`. -/
def health (cfg : Config) : Proc (Except Bytes Unit) :=
  check (connect cfg) (fun err => ("informix: health check: " : Bytes) ++ err) fun connID => do
    disconnect connID
    return .ok ()

/-! ### What a restore asks of the agent -/

/-- The parameters of a row, if its line has the declared number of cells. -/
def parseRow (columnCount : Nat) (line : Bytes) : Option (List Param) :=
  match decodeRow line with
  | none => none
  | some row =>
      let cells := GoSlice.toList row.cells
      if cells.length ≠ columnCount then none else some (cells.map cellToParam)

/-- The parameters of all rows, if every line is a row. -/
def parseRows (columnCount : Nat) (lines : List Bytes) : Option (List (List Param)) :=
  lines.mapM (parseRow columnCount)

/-- The parameters of all rows of a dump, if it can be read to its end. -/
def Dump.params (d : Dump) : Option (List (List Param)) :=
  if d.err = none then parseRows d.columnCount d.rows else none

/-- One insertion for each row, in order. -/
def Inserts (connID sql : Bytes) (rows : List (List Param)) (tr : AgentTrace) : Prop :=
  tr.map Sigma.fst = rows.map (fun params => AgentCall.executeQuery connID sql params)

/-- Every call succeeded. -/
def AllOk (tr : AgentTrace) : Prop := ∀ e ∈ tr, e.2.isOk = true

/-- The agent did what it was asked if everything succeeded. -/
theorem allOk_of_succeeded (tr : PluginTrace) (hok : ∀ e ∈ tr, succeeded e = true) :
    AllOk (agentTrace tr) := by
  intro e he
  rcases List.mem_filterMap.mp he with ⟨⟨o, x⟩, hmem, hsome⟩
  cases o with
  | agent c =>
      cases hsome
      exact hok _ hmem
  | _ => cases hsome

theorem parseRow_length (n : Nat) (line : Bytes) (params : List Param)
    (h : parseRow n line = some params) : params.length = n := by
  unfold parseRow at h
  split at h
  · cases h
  · simp only at h
    split at h
    · cases h
    · next hlen =>
        cases h
        rw [List.length_map]
        exact not_not.mp hlen

theorem parseRows_cons (n : Nat) (line : Bytes) (rest : List Bytes) :
    parseRows n (line :: rest) =
      (parseRow n line).bind fun params => (parseRows n rest).map (params :: ·) := by
  rw [parseRows, List.mapM_cons]
  cases parseRow n line with
  | none => rfl
  | some params =>
      change (parseRows n rest >>= fun rows => pure (params :: rows)) = _
      cases parseRows n rest <;> rfl

/-- The rows of a dump all have as many cells as it declares columns. -/
theorem parseRows_length (n : Nat) (lines : List Bytes) (rows : List (List Param))
    (h : parseRows n lines = some rows) : ∀ params ∈ rows, params.length = n := by
  induction lines generalizing rows with
  | nil =>
      cases h
      exact fun _ hmem => absurd hmem List.not_mem_nil
  | cons line rest ih =>
      rw [parseRows_cons] at h
      rcases Option.bind_eq_some_iff.mp h with ⟨params, hline, hrest⟩
      rcases Option.map_eq_some_iff.mp hrest with ⟨rows', hrows, rfl⟩
      intro ps hmem
      rcases List.mem_cons.mp hmem with rfl | hmem
      · exact parseRow_length n line _ hline
      · exact ih rows' hrows ps hmem

/-- A line either is a row that is inserted, or ends the loop. -/
theorem insertRows_cons (connID sql : Bytes) (n : Nat) (err : Option Bytes) (line : Bytes)
    (rest : List Bytes) :
    (∃ params, parseRow n line = some params ∧
      insertRows connID sql n err (line :: rest) =
        check (ask (.executeQuery connID sql params)) (fun err => ("insert row: " : Bytes) ++ err)
          fun _ => insertRows connID sql n err rest) ∨
    (parseRow n line = none ∧
      ∃ msg, insertRows connID sql n err (line :: rest) = .ret (.error msg)) := by
  simp only [insertRows, parseRow]
  cases decodeRow line with
  | none => exact Or.inr ⟨rfl, _, rfl⟩
  | some row =>
      simp only
      split
      · exact Or.inr ⟨rfl, _, rfl⟩
      · exact Or.inl ⟨_, rfl, rfl⟩

/-- The loop over the rows inserts them in order. It succeeds when every line
    is a row and every insertion succeeds, and then it inserted them all. -/
theorem insertRows_runs (connID sql : Bytes) (n : Nat) (err : Option Bytes) (lines : List Bytes)
    (tr : PluginTrace) (r : Except Bytes Unit)
    (h : Runs (insertRows connID sql n err lines) tr r) :
    ∃ rows, Inserts connID sql rows (agentTrace tr) ∧ (∀ params ∈ rows, params.length = n) ∧
      ((r = .ok () ∧ err = none ∧ parseRows n lines = some rows ∧ AllOk (agentTrace tr)) ∨
        (r.isOk = false ∧
          ¬ (err = none ∧ (parseRows n lines).isSome ∧ AllOk (agentTrace tr)))) := by
  induction lines generalizing tr with
  | nil =>
      refine ⟨[], ?_⟩
      cases err with
      | none =>
          rcases (runs_ret_iff _ _ _).mp h with ⟨rfl, rfl⟩
          exact ⟨rfl, fun _ hmem => absurd hmem List.not_mem_nil,
            Or.inl ⟨rfl, rfl, rfl, fun _ hmem => absurd hmem List.not_mem_nil⟩⟩
      | some err =>
          rcases (runs_ret_iff _ _ _).mp h with ⟨rfl, rfl⟩
          exact ⟨rfl, fun _ hmem => absurd hmem List.not_mem_nil,
            Or.inr ⟨rfl, fun hall => by cases hall.1⟩⟩
  | cons line rest ih =>
      rcases insertRows_cons connID sql n err line rest with ⟨params, hline, heq⟩ | ⟨hline, _, heq⟩
      · rw [heq] at h
        rcases (runs_call_iff _ _ _ _).mp h with ⟨x, tr', rfl, hr⟩
        have hlen := parseRow_length n line params hline
        cases x with
        | error e =>
            -- The insertion failed, and the rest of the file is not read.
            rcases (runs_ret_iff _ _ _).mp hr with ⟨rfl, rfl⟩
            refine ⟨[params], rfl, fun ps hmem => ?_, Or.inr ⟨rfl, fun hall => ?_⟩⟩
            · rw [List.mem_singleton.mp hmem]
              exact hlen
            · exact absurd (hall.2.2 _ List.mem_cons_self) Bool.false_ne_true
        | ok q =>
            rcases ih tr' hr with ⟨rows, hins, hlens, hcase⟩
            refine ⟨params :: rows, ?_, List.forall_mem_cons.mpr ⟨hlen, hlens⟩, ?_⟩
            · change _ :: (agentTrace tr').map Sigma.fst = _
              rw [hins]
              rfl
            · rw [parseRows_cons, hline, Option.bind_some]
              rcases hcase with ⟨rfl, herr, hparse, hok⟩ | ⟨hr, hnot⟩
              · refine Or.inl ⟨rfl, herr, ?_, List.forall_mem_cons.mpr ⟨rfl, hok⟩⟩
                rw [hparse]
                rfl
              · refine Or.inr ⟨hr, fun hall => hnot ⟨hall.1, ?_, ?_⟩⟩
                · simpa only [Option.isSome_map] using hall.2.1
                · exact (List.forall_mem_cons.mp hall.2.2).2
      · rw [heq] at h
        rcases (runs_ret_iff _ _ _).mp h with ⟨rfl, rfl⟩
        refine ⟨[], rfl, fun _ hmem => absurd hmem List.not_mem_nil, Or.inr ⟨rfl, fun hall => ?_⟩⟩
        rw [parseRows_cons, hline] at hall
        exact absurd hall.2.1 Bool.false_ne_true

/-- What a restore from a dump asks of the agent, what that says about the dump
    and the answers, and what the restore returns. -/
inductive Session (cfg : Config) (d : Dump) (test : Bool) : AgentTrace → Except Bytes Unit → Prop
  /-- The agent could not connect. -/
  | refused (err msg : Bytes) (x : Except Bytes Unit) :
      Session cfg d test [⟨.connect cfg.request, .error err⟩, ⟨.close, x⟩] (.error msg)
  /-- No transaction could be begun. -/
  | notBegun (connID err msg : Bytes) (x y : Except Bytes Unit) :
      Session cfg d test [⟨.connect cfg.request, .ok connID⟩,
        ⟨.beginTransaction connID, .error err⟩, ⟨.disconnect connID, x⟩, ⟨.close, y⟩] (.error msg)
  /-- The transaction was given up: a row was not inserted, or it was a test. -/
  | rolledBack (connID : Bytes) (rows : List (List Param)) (ins : AgentTrace)
      (x y z r : Except Bytes Unit) (hins : Inserts connID d.insertSQL rows ins)
      (hlens : ∀ params ∈ rows, params.length = d.columnCount)
      (hr : (r = .ok () ∧ test = true) ∨
        (r.isOk = false ∧ ¬ (d.params.isSome ∧ AllOk ins))) :
      Session cfg d test (⟨.connect cfg.request, .ok connID⟩ ::
        ⟨.beginTransaction connID, .ok ()⟩ :: ins ++
        [⟨.rollbackTransaction connID, x⟩, ⟨.disconnect connID, y⟩, ⟨.close, z⟩]) r
  /-- Every row was inserted and the transaction was to be committed. -/
  | committed (connID : Bytes) (rows : List (List Param)) (ins : AgentTrace)
      (x y z r : Except Bytes Unit) (hins : Inserts connID d.insertSQL rows ins)
      (hparams : d.params = some rows) (hok : AllOk ins) (htest : test = false)
      (hr : r.isOk = x.isOk) :
      Session cfg d test (⟨.connect cfg.request, .ok connID⟩ ::
        ⟨.beginTransaction connID, .ok ()⟩ :: ins ++
        [⟨.commitTransaction connID, x⟩, ⟨.disconnect connID, y⟩, ⟨.close, z⟩]) r

/-- Inside the connection: begin, insert, and commit or roll back. -/
theorem restoreRows_session (cfg : Config) (d : Dump) (test : Bool) (connID : Bytes)
    (tr : PluginTrace) (r : Except Bytes Unit) (y z : Except Bytes Unit)
    (h : Runs (restoreRows d test connID) tr r) :
    Session cfg d test (⟨.connect cfg.request, .ok connID⟩ :: (agentTrace tr ++
      [⟨.disconnect connID, y⟩, ⟨.close, z⟩])) r := by
  rcases (runs_call_iff _ _ _ _).mp h with ⟨x, tr', rfl, hr⟩
  cases x with
  | error err =>
      rcases (runs_ret_iff _ _ _).mp hr with ⟨rfl, rfl⟩
      exact Session.notBegun connID err _ y z
  | ok u =>
      change Runs (insertRows connID d.insertSQL d.columnCount d.err d.rows >>= _) tr' r at hr
      rcases (runs_bind_iff _ _ _ _).mp hr with ⟨tr₁, tr₂, insertErr, rfl, hins, hend⟩
      rcases insertRows_runs _ _ _ _ _ _ _ hins with ⟨rows, hrows, hlens, hcase⟩
      change Session cfg d test (_ :: _ :: (agentTrace (tr₁ ++ tr₂) ++ _)) r
      rw [agentTrace_append, List.append_assoc]
      split at hend
      · next hback =>
          rcases (runs_call_iff _ _ _ _).mp hend with ⟨x, tr₃, rfl, hret⟩
          -- The insertion failed for the file or for the agent.
          have hparams : insertErr.isOk = false → ¬ (d.params.isSome ∧ AllOk (agentTrace tr₁)) := by
            intro hfail
            rcases hcase with ⟨rfl, _⟩ | ⟨_, hnot⟩
            · cases hfail
            · rintro ⟨hsome, hok⟩
              unfold Dump.params at hsome
              split at hsome
              · next herr => exact hnot ⟨herr, hsome, hok⟩
              · cases hsome
          cases insertErr with
          | error err =>
              rcases (runs_ret_iff _ _ _).mp hret with ⟨rfl, rfl⟩
              exact Session.rolledBack connID rows _ x y z _ hrows hlens
                (Or.inr ⟨rfl, hparams rfl⟩)
          | ok v =>
              rcases (runs_ret_iff _ _ _).mp hret with ⟨rfl, rfl⟩
              refine Session.rolledBack connID rows _ x y z _ hrows hlens (Or.inl ⟨rfl, ?_⟩)
              exact hback.resolve_left (fun hfail => by cases hfail)
      · next hkeep =>
          rw [not_or] at hkeep
          rcases hcase with ⟨rfl, herr, hparse, hok⟩ | ⟨hfail, _⟩
          · rcases (runs_call_iff _ _ _ _).mp hend with ⟨x, tr₃, rfl, hret⟩
            have hparams : d.params = some rows := by
              rw [Dump.params, if_pos herr, hparse]
            have htest : test = false := Bool.eq_false_iff.mpr hkeep.2
            -- What the commit answers is what the restore returns.
            have hr : r.isOk = Except.isOk x ∧ tr₃ = [] := by
              cases x with
              | error err =>
                  rcases (runs_ret_iff _ _ _).mp hret with ⟨rfl, rfl⟩
                  exact ⟨rfl, rfl⟩
              | ok v =>
                  rcases (runs_ret_iff _ _ _).mp hret with ⟨rfl, rfl⟩
                  exact ⟨rfl, rfl⟩
            rw [hr.2]
            exact Session.committed connID rows _ x y z r hrows hparams hok htest hr.1
          · exact absurd hfail hkeep.1

/-- A restore asks the agent nothing and fails, or the artifact has a header
    that passes and it is one of the sessions. -/
theorem restoreFrom_session (cfg : Config) (a : Artifact) (file : FileContent) (tr : PluginTrace)
    (r : Except Bytes Unit) (h : Runs (restoreFrom cfg a file) tr r) :
    (agentTrace tr = [] ∧ r.isOk = false ∧
      ((openDump file).isOk = false ∨ ∃ e ∈ tr, succeeded e = false)) ∨
      ∃ d, openDump file = .ok d ∧ Session cfg d (isRestoreTest a) (agentTrace tr) r := by
  unfold restoreFrom at h
  split at h
  · next err hd =>
      rcases (runs_ret_iff _ _ _).mp h with ⟨rfl, rfl⟩
      exact Or.inl ⟨rfl, rfl, Or.inl (by rw [hd]; rfl)⟩
  · next d hd =>
      rcases (runs_bind_iff _ _ _ _).mp h with ⟨tr₁, tr₂, conn, rfl, hconn, hrest⟩
      rw [agentTrace_append]
      -- The agent was not started, or it refused, or it let us in.
      rcases connect_runs cfg tr₁ conn hconn with
        ⟨msg, err, rfl, rfl⟩ | ⟨msg, err, x, rfl, hcalls⟩ | ⟨connID, rfl, hcalls⟩
      · rcases (runs_ret_iff _ _ _).mp hrest with ⟨rfl, rfl⟩
        exact Or.inl ⟨rfl, rfl, Or.inr ⟨_, List.mem_cons_self, rfl⟩⟩
      · rcases (runs_ret_iff _ _ _).mp hrest with ⟨rfl, rfl⟩
        refine Or.inr ⟨d, hd, ?_⟩
        rw [hcalls]
        exact Session.refused err _ x
      · rcases deferring_disconnect_runs _ _ _ _ hrest with ⟨tr', y, z, hbody, heq⟩
        refine Or.inr ⟨d, hd, ?_⟩
        rw [hcalls, heq]
        exact restoreRows_session cfg d _ connID tr' r y z hbody

/-- A restore goes on from the artifact it opened. -/
theorem restore_opened (cfg : Config) (a : Artifact) (file : FileContent) (tr : PluginTrace)
    (r : Except Bytes Unit) :
    Runs (restore cfg a) (⟨.openFile a.path, .ok file⟩ :: tr) r ↔
      Runs (restoreFrom cfg a file) tr r := by
  constructor
  · intro h
    rcases (runs_call_iff _ _ _ _).mp h with ⟨x, tr', heq, hr⟩
    cases heq
    exact hr
  · intro h
    exact (runs_call_iff _ _ _ _).mpr ⟨.ok file, tr, rfl, h⟩

end Informix

end Bop
