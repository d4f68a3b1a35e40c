import Bop.Plugin.Sql.Client

/-!
# Replaying a Dump

What a restore says about its dump. A dump is a script of statements, and the
server runs each of them against whatever state it is in, with or without an
error. Every statement that was run is kept in a log with what came of it, so
that a restore can be compared with its dump afterwards.

The client decides what an error does. The one that stops exits with an error,
and a restore that passes has run the whole script without one. The one that
goes on exits as if nothing had happened. And the client decides whether it reads
the dump at all: given options in place of a name, it may do something else and
exit well.

## Main definitions

* `SqlServer`: A server, as its clients see it.
* `Target`: Its state and the statements of dumps it ran.
* `runScript`: A client reading a script.
* `perform`: A client doing anything else.
* `answer`: The plugin's world.
* `AllSucceed`: A script that meets no error.
* `PassingMeansReplayed`: What a passing restore is taken to mean.
* `Begins`: The restore gets as far as reading the dump.
* `Diverted`: Its client does something else instead, and exits well.

## Theorems

* `runScript_succeeds`, `runScript_fails`: A script without an error, and one
  with an error, under either client.
* `restore_reached`: A restore ends like its client.
* `passing_means_replayed_iff`: When a passing restore means that the dump was
  replayed.
* `not_replayed`: A restore that passes although the dump failed.
-/

namespace Bop

namespace Sql

open Prog Remote

/-- A database server, as its clients see it. -/
structure SqlServer (σ Stmt : Type) where
  /-- The statements of a script. -/
  script : Bytes → List Stmt
  create : Bytes → σ → Except Bytes Unit × σ
  drop : Bytes → σ → Except Bytes Unit × σ
  /-- Whether a client is let into a database. -/
  connect : Bytes → σ → Except Bytes Unit
  /-- One statement of a script, in a database. -/
  exec : Bytes → Stmt → σ → Except Bytes Unit × σ
  /-- Anything else that a command line makes a client do. -/
  other : Bytes → σ → Except Bytes Unit × σ

/-- The server's state, and the statements of dumps that were run. -/
structure Target (σ Stmt : Type) where
  state : σ
  log : List (Stmt × Except Bytes Unit)

variable {σ Stmt : Type} (srv : SqlServer σ Stmt)

/-- A client reading a script into a database. The one that goes on after an
    error exits as if there had been none. -/
def runScript (stop : Bool) (database : Bytes) :
    List Stmt → Target σ Stmt → Except Bytes Unit × Target σ Stmt
  | [], t => (.ok (), t)
  | stmt :: rest, t =>
      let r := srv.exec database stmt t.state
      let t' : Target σ Stmt := ⟨r.2, t.log ++ [(stmt, r.1)]⟩
      match r.1 with
      | .ok _ => runScript stop database rest t'
      | .error err => if stop then (.error err, t') else runScript stop database rest t'

/-- A client doing what it is asked for when that is not reading a script. -/
def perform (command : Bytes) (s : σ) : List Request → Except Bytes Unit × σ
  | [.create database] => srv.create database s
  | [.drop database] => srv.drop database s
  | _ => srv.other command s

/-- The plugin's world: the files of the controller, the remote shell and the
    server behind the clients it can start. A command line that starts no client
    fails and changes nothing. -/
def answer (containerEnv : Bytes → Bytes → Bytes) (clients : Clients)
    (files : Bytes → Except Bytes Bytes) :
    (o : RemoteOp) → Target σ Stmt → RemoteAns o × Target σ Stmt
  | .openFile path, t => ((files path).map (fun data => ⟨data, none⟩), t)
  | .run command stdin _, t => match reading containerEnv clients command with
    | none => (.error "sh: not found", t)
    | some (.requests rs) =>
        let r := perform srv command t.state rs
        (r.1, { t with state := r.2 })
    | some (.replay stop database) => match srv.connect database t.state with
      | .error err => (.error err, t)
      | .ok _ => runScript srv stop database (srv.script (stdin.elim [] (·.data))) t
  | .stat _, t => (.error "no such file", t)
  | .createTemp _ _, t => (.error "no such directory", t)
  | .closeFile _, t => (.error "file already closed", t)
  | .removeFile _, t => (.error "no such file", t)
  | .now, t => ((0 : Int), t)

/-- Every statement of a script succeeds, one after the other. -/
def AllSucceed (database : Bytes) : List Stmt → σ → Prop
  | [], _ => True
  | stmt :: rest, s => (srv.exec database stmt s).1.isOk = true ∧
      AllSucceed database rest (srv.exec database stmt s).2

/-- The log of a script every statement of which succeeded. -/
def clean (stmts : List Stmt) : List (Stmt × Except Bytes Unit) :=
  stmts.map (fun stmt => (stmt, .ok ()))

/-- A statement that succeeds is logged, and the reading goes on. -/
theorem runScript_ok (stop : Bool) (database : Bytes) (stmt : Stmt) (rest : List Stmt)
    (t : Target σ Stmt) (h : (srv.exec database stmt t.state).1 = .ok ()) :
    runScript srv stop database (stmt :: rest) t = runScript srv stop database rest
      ⟨(srv.exec database stmt t.state).2, t.log ++ [(stmt, .ok ())]⟩ := by
  simp only [runScript, h]

/-- A statement that fails is logged too, and what follows is the client's
    choice. -/
theorem runScript_error (stop : Bool) (database : Bytes) (stmt : Stmt) (rest : List Stmt)
    (t : Target σ Stmt) (err : Bytes) (h : (srv.exec database stmt t.state).1 = .error err) :
    runScript srv stop database (stmt :: rest) t =
      if stop then
        (.error err, ⟨(srv.exec database stmt t.state).2, t.log ++ [(stmt, .error err)]⟩)
      else runScript srv stop database rest
        ⟨(srv.exec database stmt t.state).2, t.log ++ [(stmt, .error err)]⟩ := by
  simp only [runScript, h]

/-- A clean log grows at its end. -/
theorem clean_cons (log : List (Stmt × Except Bytes Unit)) (stmt : Stmt) (rest : List Stmt) :
    log ++ clean (stmt :: rest) = log ++ [(stmt, .ok ())] ++ clean rest := by
  simp [clean]

/-- A script without an error runs to its end under either client. -/
theorem runScript_succeeds (stop : Bool) (database : Bytes) (stmts : List Stmt)
    (t : Target σ Stmt) (h : AllSucceed srv database stmts t.state) :
    (runScript srv stop database stmts t).1 = .ok () ∧
      (runScript srv stop database stmts t).2.log = t.log ++ clean stmts := by
  induction stmts generalizing t with
  | nil => simp [runScript, clean]
  | cons stmt rest ih =>
      simp only [AllSucceed] at h
      rcases hr : (srv.exec database stmt t.state).1 with err | u
      · simp [hr, Except.isOk, Except.toBool] at h
      · rw [runScript_ok srv stop database stmt rest t hr]
        rw [clean_cons]
        exact ih ⟨_, _⟩ h.2

/-- What was logged stays in front of what a script logs. -/
theorem runScript_extends (stop : Bool) (database : Bytes) (stmts : List Stmt)
    (t : Target σ Stmt) :
    ∃ more, (runScript srv stop database stmts t).2.log = t.log ++ more := by
  induction stmts generalizing t with
  | nil => exact ⟨[], by simp [runScript]⟩
  | cons stmt rest ih =>
      rcases hr : (srv.exec database stmt t.state).1 with err | u
      · rw [runScript_error srv stop database stmt rest t err hr]
        rcases ih ⟨(srv.exec database stmt t.state).2, t.log ++ [(stmt, .error err)]⟩ with
          ⟨more, hmore⟩
        by_cases hstop : stop = true
        · exact ⟨[(stmt, .error err)], by simp [hstop]⟩
        · exact ⟨(stmt, .error err) :: more, by simpa [hstop] using hmore⟩
      · rw [runScript_ok srv stop database stmt rest t hr]
        rcases ih ⟨(srv.exec database stmt t.state).2, t.log ++ [(stmt, .ok ())]⟩ with
          ⟨more, hmore⟩
        exact ⟨(stmt, .ok ()) :: more, by simpa using hmore⟩

/-- The client that goes on never exits with an error. -/
theorem runScript_goesOn (database : Bytes) (stmts : List Stmt) (t : Target σ Stmt) :
    (runScript srv false database stmts t).1 = .ok () := by
  induction stmts generalizing t with
  | nil => rfl
  | cons stmt rest ih =>
      rcases hr : (srv.exec database stmt t.state).1 with err | u
      · rw [runScript_error srv false database stmt rest t err hr]
        simpa using ih _
      · rw [runScript_ok srv false database stmt rest t hr]
        exact ih _

/-- A log that goes on from an error is not clean. -/
theorem not_clean (log more : List (Stmt × Except Bytes Unit)) (stmt : Stmt) (err : Bytes)
    (rest : List Stmt) : log ++ (stmt, .error err) :: more ≠ log ++ clean (stmt :: rest) := by
  simp [clean]

/-- A script with an error ends with one under the client that stops, and under
    either its log is not clean. -/
theorem runScript_fails (stop : Bool) (database : Bytes) (stmts : List Stmt)
    (t : Target σ Stmt) (h : ¬ AllSucceed srv database stmts t.state) :
    (runScript srv stop database stmts t).1.isOk = !stop ∧
      (runScript srv stop database stmts t).2.log ≠ t.log ++ clean stmts := by
  induction stmts generalizing t with
  | nil => exact absurd trivial h
  | cons stmt rest ih =>
      simp only [AllSucceed] at h
      rcases hr : (srv.exec database stmt t.state).1 with err | u
      · -- This is the statement that fails.
        rw [runScript_error srv stop database stmt rest t err hr]
        rcases runScript_extends srv stop database rest
          ⟨(srv.exec database stmt t.state).2, t.log ++ [(stmt, .error err)]⟩ with ⟨more, hmore⟩
        simp only [List.append_assoc, List.singleton_append] at hmore
        -- One client stops here. The other goes on, and has this error in its log.
        cases stop with
        | true => exact ⟨rfl, not_clean t.log [] stmt err rest⟩
        | false =>
            simp only [Bool.false_eq_true, if_false, hmore]
            exact ⟨by rw [runScript_goesOn]; rfl, not_clean t.log more stmt err rest⟩
      · have hrest : ¬ AllSucceed srv database rest (srv.exec database stmt t.state).2 :=
          fun hall => h ⟨by rw [hr]; rfl, hall⟩
        rw [runScript_ok srv stop database stmt rest t hr]
        rw [clean_cons]
        exact ih ⟨_, _⟩ hrest

section Restore

variable (containerEnv : Bytes → Bytes → Bytes) (clients : Clients)
  (files : Bytes → Except Bytes Bytes)

/-- There is a database to restore into, and then the server is in this state.
    A test has to create its own. -/
def Provided (c : SqlConfig) (a : Artifact) (s s' : σ) : Prop :=
  if hasSuffix a.resourceID restoreTestSuffix then
    c.Runnable (c.plugin.createDatabaseCommand a.resourceID) ∧
      srv.create a.resourceID s = (.ok (), s')
  else s' = s

/-- The restore of an artifact gets as far as its client, and then the server is in
    this state: the file opens, there is a database, and the client is started. -/
def Reached (c : SqlConfig) (a : Artifact) (s : σ) (dump : Bytes) (s' : σ) : Prop :=
  files a.path = .ok dump ∧ Provided srv c a s s' ∧
  c.Runnable (c.plugin.restoreCommand a.resourceID)

/-- It gets as far as reading its dump: the client takes the name for this
    database, which it is let into, and stops at an error or not. -/
def Begins (c : SqlConfig) (a : Artifact) (s : σ) (dump : Bytes) (s' : σ) (stop : Bool)
    (database : Bytes) : Prop :=
  Reached srv files c a s dump s' ∧ c.reads clients a.resourceID = .replay stop database ∧
  srv.connect database s' = .ok ()

/-- The client takes the name for something else, which it does without an error. -/
def Diverted (c : SqlConfig) (a : Artifact) (s : σ) (dump : Bytes) (s' : σ) : Prop :=
  Reached srv files c a s dump s' ∧ ∃ rs, c.reads clients a.resourceID = .requests rs ∧
  (perform srv (c.plugin.restoreCommand a.resourceID) s' rs).1 = .ok ()

/-- A passing restore has run every statement of its dump without an error. -/
def PassingMeansReplayed (c : SqlConfig) (a : Artifact) (s : σ) : Prop :=
  (exec (answer srv containerEnv clients files) (restore c.plugin a) ⟨s, []⟩).1 = .ok () →
    ∃ dump, files a.path = .ok dump ∧
      (exec (answer srv containerEnv clients files) (restore c.plugin a) ⟨s, []⟩).2.log =
        clean (srv.script dump)

variable (c : SqlConfig) (a : Artifact)

/-- Dropping a scratch database runs no statement of a dump. -/
theorem dropScratchDatabase_log (database : Bytes) (t : Target σ Stmt) :
    (exec (answer srv containerEnv clients files) (dropScratchDatabase c.plugin database) t).2.log =
      t.log := by
  change (answer srv containerEnv clients files
    (.run (c.plugin.dropDatabaseCommand database) none none) t).2.log = t.log
  rcases hr : reading containerEnv clients (c.plugin.dropDatabaseCommand database) with _ | r
  · simp [answer, hr]
  · rcases (SqlConfig.reading_drop containerEnv clients c database r).mp hr with ⟨_, rfl⟩
    simp [answer, hr]

/-- Reading the dump: the result is the client's, and so is the log. -/
theorem restoreInto_replays (f : FileContent) (test : Bool) (t t' : Target σ Stmt)
    (x : Except Bytes Unit)
    (hx : answer srv containerEnv clients files
      (.run (c.plugin.restoreCommand a.resourceID) (some f) none) t = (x, t')) :
    (exec (answer srv containerEnv clients files) (restoreInto c.plugin a f test) t).1.isOk =
        x.isOk ∧
      (exec (answer srv containerEnv clients files) (restoreInto c.plugin a f test) t).2.log =
        t'.log := by
  -- Dropping the database of a test runs no statement of the dump.
  have hdrop : ∀ r : Except Bytes Unit,
      (exec (answer srv containerEnv clients files) (do
        if test then dropScratchDatabase c.plugin a.resourceID
        return r) t').1 = r ∧
      (exec (answer srv containerEnv clients files) (do
        if test then dropScratchDatabase c.plugin a.resourceID
        return r) t').2.log = t'.log := by
    intro r
    cases test with
    | false => exact ⟨rfl, rfl⟩
    | true =>
        exact ⟨rfl, dropScratchDatabase_log srv containerEnv clients files c a.resourceID t'⟩
  unfold restoreInto
  rw [exec_bind, show exec (answer srv containerEnv clients files) (run (c.plugin.restoreCommand
    a.resourceID) (some f)) t = (x, t') from hx]
  cases x with
  | error err =>
      rcases hdrop (.error (c.plugin.name ++ ": restore " ++ a.resourceID ++ ": " ++ err)) with
        ⟨hres, hlog⟩
      exact ⟨(congrArg Except.isOk hres).trans rfl, hlog⟩
  | ok u =>
      rcases hdrop (.ok ()) with ⟨hres, hlog⟩
      exact ⟨congrArg Except.isOk hres, hlog⟩

/-- A command line that does not reach its client fails. -/
theorem answer_unreachable (command : Bytes) (stdin : Option FileContent) (t : Target σ Stmt)
    (h : ∀ r, reading containerEnv clients command ≠ some r) :
    answer srv containerEnv clients files (.run command stdin none) t =
      (.error "sh: not found", t) := by
  have hnone : reading containerEnv clients command = none :=
    Option.eq_none_iff_forall_ne_some.mpr h
  simp [answer, hnone]

/-- Creating a test's database: it is there and empty, or the restore ends. -/
theorem answer_create (t : Target σ Stmt) :
    (c.Runnable (c.plugin.createDatabaseCommand a.resourceID) ∧
      ∃ s', srv.create a.resourceID t.state = (.ok (), s') ∧
      answer srv containerEnv clients files
        (.run (c.plugin.createDatabaseCommand a.resourceID) none none) t = (.ok (), ⟨s', t.log⟩)) ∨
    (∃ err t', answer srv containerEnv clients files
        (.run (c.plugin.createDatabaseCommand a.resourceID) none none) t = (.error err, t')) := by
  have hreq := SqlConfig.reading_create containerEnv clients c a.resourceID
  by_cases hrun : c.Runnable (c.plugin.createDatabaseCommand a.resourceID)
  · have hsome := (hreq _).mpr ⟨hrun, rfl⟩
    rcases hcreate : srv.create a.resourceID t.state with ⟨err | u, s'⟩
    · exact Or.inr ⟨err, ⟨s', t.log⟩, by simp [answer, hsome, perform, hcreate]⟩
    · exact Or.inl ⟨hrun, s', rfl, by simp [answer, hsome, perform, hcreate]⟩
  · refine Or.inr ⟨"sh: not found", t, ?_⟩
    exact answer_unreachable srv containerEnv clients files _ _ t
      (fun r h => hrun ((hreq r).mp h).1)

/-- The command of a restore. -/
abbrev replayed (dump : Bytes) (s' : σ) : Except Bytes Unit × Target σ Stmt :=
  answer srv containerEnv clients files
    (.run (c.plugin.restoreCommand a.resourceID) (some ⟨dump, none⟩) none) ⟨s', []⟩

/-- Where there is a dump and a database, the restore ends like its client. -/
theorem restore_reached (s s' : σ) (dump : Bytes) (hfile : files a.path = .ok dump)
    (hdb : Provided srv c a s s') :
    (exec (answer srv containerEnv clients files) (restore c.plugin a) ⟨s, []⟩).1.isOk =
        (replayed srv containerEnv clients files c a dump s').1.isOk ∧
      (exec (answer srv containerEnv clients files) (restore c.plugin a) ⟨s, []⟩).2.log =
        (replayed srv containerEnv clients files c a dump s').2.log := by
  have hopen : exec (answer srv containerEnv clients files) (op (RemoteOp.openFile a.path))
      ⟨s, []⟩ = (.ok ⟨dump, none⟩, ⟨s, []⟩) := by
    simp [exec_op, answer, hfile, Except.map]
  unfold restore
  rw [exec_check_ok _ _ _ _ _ _ _ hopen, restoreFrom]
  unfold Provided at hdb
  by_cases htest : hasSuffix a.resourceID restoreTestSuffix = true
  · -- A test has created its database.
    rw [if_pos htest] at hdb
    have hsome := (SqlConfig.reading_create containerEnv clients c a.resourceID _).mpr
      ⟨hdb.1, rfl⟩
    have hcreate : exec (answer srv containerEnv clients files)
        (run (c.plugin.createDatabaseCommand a.resourceID) none) ⟨s, []⟩ =
          (.ok (), ⟨s', []⟩) := by
      simp [run, exec_op, answer, hsome, perform, hdb.2]
    simp only [htest, if_true]
    rw [exec_check_ok _ _ _ _ _ _ _ hcreate]
    exact restoreInto_replays srv containerEnv clients files c a ⟨dump, none⟩ true _ _ _ rfl
  · rw [if_neg htest] at hdb
    rw [Bool.not_eq_true] at htest
    rw [hdb]
    simp only [htest, Bool.false_eq_true, if_false]
    exact restoreInto_replays srv containerEnv clients files c a ⟨dump, none⟩ false _ _ _ rfl

/-- A restore that passes had a dump and a database. -/
theorem provided_of_passes (s : σ)
    (hok : (exec (answer srv containerEnv clients files) (restore c.plugin a) ⟨s, []⟩).1 =
      .ok ()) :
    ∃ dump s', files a.path = .ok dump ∧ Provided srv c a s s' := by
  rcases hfile : files a.path with err | dump
  · -- The artifact does not open.
    have hopen : exec (answer srv containerEnv clients files) (op (RemoteOp.openFile a.path))
        ⟨s, []⟩ = (.error err, ⟨s, []⟩) := by
      simp [exec_op, answer, hfile, Except.map]
    rw [restore, exec_check_error _ _ _ _ _ _ _ hopen] at hok
    cases hok
  · unfold Provided
    by_cases htest : hasSuffix a.resourceID restoreTestSuffix = true
    · simp only [htest, if_true]
      rcases answer_create srv containerEnv clients files c a ⟨s, []⟩ with
        ⟨hrun, s', hcreate, _⟩ | ⟨err, t', hanswer⟩
      · exact ⟨dump, s', rfl, hrun, hcreate⟩
      · -- Its database was not created.
        have hopen : exec (answer srv containerEnv clients files) (op (RemoteOp.openFile a.path))
            ⟨s, []⟩ = (.ok ⟨dump, none⟩, ⟨s, []⟩) := by
          simp [exec_op, answer, hfile, Except.map]
        rw [restore, exec_check_ok _ _ _ _ _ _ _ hopen, restoreFrom] at hok
        simp only [htest, if_true] at hok
        rw [← exec_op (answer srv containerEnv clients files)] at hanswer
        rw [exec_check_error _ _ _ _ _ _ _ hanswer] at hok
        cases hok
    · exact ⟨dump, s, rfl, by rw [if_neg htest]⟩

/-- A command of a restore that is told a database reads the dump into it. -/
theorem replayed_begins (s s' : σ) (dump : Bytes) (stop : Bool) (database : Bytes)
    (h : Begins srv clients files c a s dump s' stop database) :
    replayed srv containerEnv clients files c a dump s' =
      runScript srv stop database (srv.script dump) ⟨s', []⟩ := by
  rcases h with ⟨⟨_, _, hrun⟩, hreads, hconn⟩
  have hsome := (SqlConfig.reading_restore containerEnv clients c a.resourceID _).mpr
    ⟨hrun, hreads.symm⟩
  simp [answer, hsome, hconn]

/-- One that is told something else reads nothing. -/
theorem replayed_diverted (s' : σ) (dump : Bytes) (rs : List Request)
    (hrun : c.Runnable (c.plugin.restoreCommand a.resourceID))
    (hreads : c.reads clients a.resourceID = .requests rs) :
    (replayed srv containerEnv clients files c a dump s').1 =
        (perform srv (c.plugin.restoreCommand a.resourceID) s' rs).1 ∧
      (replayed srv containerEnv clients files c a dump s').2.log = [] := by
  have hsome := (SqlConfig.reading_restore containerEnv clients c a.resourceID _).mpr
    ⟨hrun, hreads.symm⟩
  simp [answer, hsome]

/-- A command of a restore that ends well has read the dump or done something else. -/
theorem begins_of_replayed (s s' : σ) (dump : Bytes) (hfile : files a.path = .ok dump)
    (hdb : Provided srv c a s s')
    (hok : (replayed srv containerEnv clients files c a dump s').1 = .ok ()) :
    (∃ stop database, Begins srv clients files c a s dump s' stop database) ∨
      Diverted srv clients files c a s dump s' := by
  by_cases hrun : c.Runnable (c.plugin.restoreCommand a.resourceID)
  · have hreached : Reached srv files c a s dump s' := ⟨hfile, hdb, hrun⟩
    cases hreads : c.reads clients a.resourceID with
    | requests rs =>
        refine Or.inr ⟨hreached, rs, hreads, ?_⟩
        rw [← (replayed_diverted srv containerEnv clients files c a s' dump rs hrun hreads).1, hok]
    | replay stop database =>
        refine Or.inl ⟨stop, database, hreached, hreads, ?_⟩
        have hsome := (SqlConfig.reading_restore containerEnv clients c a.resourceID _).mpr
          ⟨hrun, hreads.symm⟩
        cases hconn : srv.connect database s' with
        | error err => simp [answer, hsome, hconn] at hok
        | ok u => rfl
  · have hnone := answer_unreachable srv containerEnv clients files
      (c.plugin.restoreCommand a.resourceID) (some ⟨dump, none⟩) ⟨s', []⟩
      fun r h => hrun ((SqlConfig.reading_restore containerEnv clients c a.resourceID r).mp h).1
    rw [replayed, hnone] at hok
    cases hok

/-- What a result says that is no error. -/
theorem ok_of_isOk (x : Except Bytes Unit) (h : x.isOk = true) : x = .ok () := by
  cases x with
  | error err => cases h
  | ok u => rfl

/-- The client that goes on lets a restore pass whose dump failed. -/
theorem passes_unreplayed (s s' : σ) (dump database : Bytes)
    (hbegins : Begins srv clients files c a s dump s' false database)
    (hfails : ¬ AllSucceed srv database (srv.script dump) s') :
    ¬ PassingMeansReplayed srv containerEnv clients files c a s := by
  intro hmeans
  rcases restore_reached srv containerEnv clients files c a s s' dump hbegins.1.1 hbegins.1.2.1
    with ⟨hres, hlog⟩
  rw [replayed_begins srv containerEnv clients files c a s s' dump false database hbegins]
    at hres hlog
  rcases runScript_fails srv false database (srv.script dump) ⟨s', []⟩ hfails with
    ⟨hpass, hunclean⟩
  -- The client went on to the end of the script, and ended well.
  rcases hmeans (ok_of_isOk _ (hres.trans hpass)) with ⟨dump', hfile, hclean⟩
  rw [hbegins.1.1, Except.ok.injEq] at hfile
  rw [hlog, ← hfile] at hclean
  exact hunclean hclean

/-- A client that does something else lets a restore pass whose dump was not read. -/
theorem passes_diverted (s s' : σ) (dump : Bytes)
    (hdiverted : Diverted srv clients files c a s dump s')
    (hmeans : PassingMeansReplayed srv containerEnv clients files c a s) :
    srv.script dump = [] := by
  rcases hdiverted with ⟨⟨hfile, hdb, hrun⟩, rs, hreads, hok⟩
  rcases restore_reached srv containerEnv clients files c a s s' dump hfile hdb with ⟨hres, hlog⟩
  rcases replayed_diverted srv containerEnv clients files c a s' dump rs hrun hreads with
    ⟨hpass, hnothing⟩
  rw [hpass, hok] at hres
  rcases hmeans (ok_of_isOk _ hres) with ⟨dump', hfile', hclean⟩
  rw [hfile, Except.ok.injEq] at hfile'
  rw [hlog, hnothing, ← hfile'] at hclean
  exact List.map_eq_nil_iff.mp hclean.symm

/-- A passing restore means that its dump was replayed exactly when, if the restore
    begins to read it, the client stops at an error or no statement fails from the
    state in which it begins, and when a client that does something else instead and
    ends well had nothing to read. -/
theorem passing_means_replayed_iff (s : σ) :
    PassingMeansReplayed srv containerEnv clients files c a s ↔
      (∀ dump s' stop database, Begins srv clients files c a s dump s' stop database →
        stop = true ∨ AllSucceed srv database (srv.script dump) s') ∧
      ∀ dump s', Diverted srv clients files c a s dump s' → srv.script dump = [] := by
  constructor
  · intro hmeans
    refine ⟨fun dump s' stop database hbegins => ?_, fun dump s' hdiverted =>
      passes_diverted srv containerEnv clients files c a s s' dump hdiverted hmeans⟩
    -- Of the two clients only one goes on after an error.
    cases stop with
    | true => exact Or.inl rfl
    | false =>
        refine Or.inr ?_
        by_contra hfails
        exact passes_unreplayed srv containerEnv clients files c a s s' dump database hbegins
          hfails hmeans
  · rintro ⟨hreads, hdiverts⟩ hok
    rcases provided_of_passes srv containerEnv clients files c a s hok with ⟨dump, s', hfile, hdb⟩
    rcases restore_reached srv containerEnv clients files c a s s' dump hfile hdb with ⟨hres, hlog⟩
    rw [hok] at hres
    refine ⟨dump, hfile, ?_⟩
    rw [hlog]
    rcases begins_of_replayed srv containerEnv clients files c a s s' dump hfile hdb
      (ok_of_isOk _ hres.symm) with ⟨stop, database, hbegins⟩ | hdiverted
    · have hrun := replayed_begins srv containerEnv clients files c a s s' dump stop database
        hbegins
      rw [hrun] at hres ⊢
      by_cases hall : AllSucceed srv database (srv.script dump) s'
      · rw [(runScript_succeeds srv stop database (srv.script dump) ⟨s', []⟩ hall).2]
        rfl
      · -- Only the client that stops is left, and it did not pass.
        have hstop := (hreads dump s' stop database hbegins).resolve_right hall
        rw [(runScript_fails srv stop database (srv.script dump) ⟨s', []⟩ hall).1, hstop] at hres
        cases hres
    · have hnone := hdiverts dump s' hdiverted
      rcases hdiverted with ⟨⟨_, _, hrun⟩, rs, hreq, _⟩
      rw [(replayed_diverted srv containerEnv clients files c a s' dump rs hrun hreq).2, hnone]
      rfl

end Restore

/-- A server on which every script is one statement, and that statement fails. -/
def brokenScript : SqlServer Unit Bytes where
  script dump := [dump]
  create _ s := (.ok (), s)
  drop _ s := (.ok (), s)
  connect _ _ := .ok ()
  exec _ _ s := (.error "ERROR: relation does not exist", s)
  other _ s := (.ok (), s)

/-- A restore test passes on a dump whose only statement fails. -/
theorem not_replayed :
    ¬ PassingMeansReplayed brokenScript (fun _ _ => []) plainClients (fun _ => .ok "INSERT")
      shopPostgres shopTest () := by
  have hbegins : Begins brokenScript plainClients (fun _ => .ok "INSERT") shopPostgres shopTest ()
      "INSERT" () false shopTest.resourceID := by
    refine ⟨⟨rfl, ?_, shop_runnable⟩, by decide, rfl⟩
    rw [Provided, if_pos (by decide)]
    exact ⟨(SqlConfig.runnable_iff _ _).1.mpr shop_runnable, rfl⟩
  refine passes_unreplayed brokenScript _ _ _ shopPostgres shopTest () () "INSERT" _ hbegins ?_
  rintro ⟨hok, _⟩
  cases hok

end Sql

end Bop
