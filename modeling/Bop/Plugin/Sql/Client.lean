import Bop.Plugin.Mariadb
import Bop.Plugin.Postgres

/-!
# What the SQL Clients Are Asked

A command line reaches a database server through a shell, the wrappers in
front of the client and the client's own arguments. `reading` reads it the way
these do: which client is started, and whether it is to create a database, drop
one or read a script into one. The name in a statement is read back out of the
quoted identifier it was written as.

An operand of a client is the name of a database, if it looks like one. What
begins with a dash is options, and these may ask for anything. To `psql` what
holds an equals sign or begins like a URI is a connection string besides, which
names a database of its own. What the clients do with such operands is theirs,
and a parameter here.

`psql` goes on after an error in a script unless `ON_ERROR_STOP` is set, and
the `mariadb` client stops.

## Main definitions

* `Request`, `Reading`: What a client is to do.
* `quotedIdentifier`: A name between quotes, with embedded quotes doubled.
* `Clients`: What the clients make of their operands.
* `psqlReading`, `mariadbReading`: The arguments of the clients.
* `reading`: What a command line asks.
* `SqlConfig`: A configuration of one of the two plugins.
* `Runnable`: A command line that reaches the client.

## Theorems

* `identifierBody_doubled`: An escaped name reads back as itself.
* `reading_create`, `reading_drop`, `reading_restore`: The plugins' commands
  ask what they are meant to, or nothing, but for their operand.
-/

namespace Bop

namespace Sql

open Shell Shellcmd

/-- What a statement asks of the server. -/
inductive Request
  | create (database : Bytes)
  | drop (database : Bytes)
  | write (database : Bytes)
deriving DecidableEq

/-- What a client does. -/
inductive Reading
  /-- Reading the script on standard input into a database, stopping at an error
      or not. -/
  | replay (stop : Bool) (database : Bytes)
  /-- Anything else, with what it asks of the server. -/
  | requests (rs : List Request)
deriving DecidableEq

/-- `psql` takes this for the name of a database: it is not empty, it is no option,
    and `libpq` does not take it for a connection string. -/
def PsqlName (n : Bytes) : Prop :=
  n ≠ [] ∧ n.head? ≠ some 45 ∧ (61 : UInt8) ∉ n ∧
    ¬ ("postgres://" : Bytes) <+: n ∧ ¬ ("postgresql://" : Bytes) <+: n

instance (n : Bytes) : Decidable (PsqlName n) :=
  inferInstanceAs (Decidable (n ≠ [] ∧ n.head? ≠ some 45 ∧ (61 : UInt8) ∉ n ∧
    ¬ ("postgres://" : Bytes) <+: n ∧ ¬ ("postgresql://" : Bytes) <+: n))

/-- `mariadb` takes this for the name of a database. -/
def MariadbName (n : Bytes) : Prop := n ≠ [] ∧ n.head? ≠ some 45

instance (n : Bytes) : Decidable (MariadbName n) :=
  inferInstanceAs (Decidable (n ≠ [] ∧ n.head? ≠ some 45))

/-- What the clients make of an operand. Of the name of a database they read the
    script into it. -/
structure Clients where
  /-- `psql`, with a user and `ON_ERROR_STOP` set or not. -/
  psql : Option Bytes → Bool → Bytes → Reading
  /-- `mariadb`, with a user. -/
  mariadb : Option Bytes → Bytes → Reading
  psql_name : ∀ user stop n, PsqlName n → psql user stop n = .replay stop n
  mariadb_name : ∀ user n, MariadbName n → mariadb user n = .replay true n

/-- A quoted identifier after its opening quote, and what follows it. -/
def identifierBody (q : UInt8) : Bytes → Option (Bytes × Bytes)
  | [] => none
  | [b] => if b = q then some ([], []) else none
  | b :: c :: s =>
      if b = q then
        -- A doubled quote is one quote of the name, a single one ends it.
        if c = q then (identifierBody q s).map (fun r => (q :: r.1, r.2)) else some ([], c :: s)
      else (identifierBody q (c :: s)).map (fun r => (b :: r.1, r.2))

/-- The name a text spells that is one quoted identifier and nothing else. -/
def quotedIdentifier (q : UInt8) : Bytes → Option Bytes
  | [] => none
  | b :: s =>
      if b = q then match identifierBody q s with
        | some (name, []) => some name
        | _ => none
      else none

/-- What follows a keyword. -/
def afterKeyword (keyword sql : Bytes) : Option Bytes :=
  if keyword.isPrefixOf sql then some (sql.drop keyword.length) else none

/-- A statement that creates or drops a database, in a dialect whose
    identifiers are quoted with `q`. -/
def adminRequest (q : UInt8) (sql : Bytes) : Option Request :=
  match afterKeyword "CREATE DATABASE " sql with
  | some rest => (quotedIdentifier q rest).map .create
  | none => match afterKeyword "DROP DATABASE " sql with
    | some rest => (quotedIdentifier q rest).map .drop
    | none => none

/-- What the arguments of a client say. -/
structure ClientArgs where
  user : Option Bytes
  operand : Option Bytes
  sets : List Bytes
  statement : Option Bytes

/-- The arguments of `psql`. A statement may be run in any database. -/
def psqlArgs : List Bytes → Option ClientArgs
  | [] => some ⟨none, none, [], none⟩
  | [operand] => some ⟨none, some operand, [], none⟩
  | opt :: v :: rest =>
      if opt = "-U" then (psqlArgs rest).map (fun o => { o with user := some v })
      else if opt = "-d" then psqlArgs rest
      else if opt = "-v" then (psqlArgs rest).map (fun o => { o with sets := v :: o.sets })
      else if opt = "-c" then (psqlArgs rest).map (fun o => { o with statement := some v })
      else none

/-- What `psql` does with these arguments. -/
def psqlReading (clients : Clients) (args : List Bytes) : Option Reading :=
  (psqlArgs args).bind fun o => match o.statement with
    | some sql => (adminRequest 34 sql).map fun r => .requests [r]
    | none => o.operand.map (clients.psql o.user (o.sets.contains "ON_ERROR_STOP=1"))

/-- The arguments of `mariadb`. -/
def mariadbArgs : List Bytes → Option ClientArgs
  | [] => some ⟨none, none, [], none⟩
  | [operand] => some ⟨none, some operand, [], none⟩
  | opt :: v :: rest =>
      if opt = "-u" then (mariadbArgs rest).map (fun o => { o with user := some v })
      else if opt = "-e" then (mariadbArgs rest).map (fun o => { o with statement := some v })
      else none

/-- What `mariadb` does with these arguments. -/
def mariadbReading (clients : Clients) (args : List Bytes) : Option Reading :=
  (mariadbArgs args).bind fun o => match o.statement with
    | some sql => (adminRequest 96 sql).map fun r => .requests [r]
    | none => o.operand.map (clients.mariadb o.user)

/-- What a program does, if it is one of the clients. -/
def clientReading (clients : Clients) : List Bytes → Option Reading
  | [] => none
  | client :: args =>
      if client = "psql" then psqlReading clients args
      else if client = "mariadb" then mariadbReading clients args
      else none

/-- What a command line makes a client do, if it starts one. -/
def reading (containerEnv : Bytes → Bytes → Bytes) (clients : Clients) (line : Bytes) :
    Option Reading :=
  (launch containerEnv line).bind fun p => clientReading clients p.argv

/-- An escaped name reads back as itself. -/
theorem identifierBody_doubled (q : UInt8) (name : Bytes) :
    identifierBody q (replaceByte q [q, q] name ++ [q]) = some (name, []) := by
  induction name with
  | nil => simp [replaceByte, identifierBody]
  | cons b name ih =>
      by_cases hb : b = q
      · -- The quote was doubled, and the pair is read as one.
        have hsplit : replaceByte q [q, q] (b :: name) ++ [q] =
            q :: q :: (replaceByte q [q, q] name ++ [q]) := by
          simp [replaceByte, hb]
        rw [hsplit, identifierBody, if_pos rfl, if_pos rfl, ih, hb]
        rfl
      · have hsplit : replaceByte q [q, q] (b :: name) ++ [q] =
            b :: (replaceByte q [q, q] name ++ [q]) := by
          simp [replaceByte, hb]
        rcases hrest : replaceByte q [q, q] name ++ [q] with _ | ⟨c, s⟩
        · simp at hrest
        · rw [hrest] at ih hsplit
          rw [hsplit, identifierBody, if_neg hb, ih]
          rfl

@[simp] theorem quotedIdentifier_doubled (q : UInt8) (name : Bytes) :
    quotedIdentifier q (q :: (replaceByte q [q, q] name ++ [q])) = some name := by
  rw [quotedIdentifier, if_pos rfl, identifierBody_doubled]

@[simp] theorem afterKeyword_append (keyword sql : Bytes) :
    afterKeyword keyword (keyword ++ sql) = some sql := by
  simp [afterKeyword]

/-- The statement that creates a database. -/
@[simp] theorem adminRequest_create (q : UInt8) (name : Bytes) :
    adminRequest q ("CREATE DATABASE " ++ (q :: (replaceByte q [q, q] name ++ [q]))) =
      some (.create name) := by
  simp [adminRequest]

/-- The statement that drops one. -/
@[simp] theorem adminRequest_drop (q : UInt8) (name : Bytes) :
    adminRequest q ("DROP DATABASE " ++ (q :: (replaceByte q [q, q] name ++ [q]))) =
      some (.drop name) := by
  have hother : ∀ s, afterKeyword "CREATE DATABASE " (("DROP DATABASE " : Bytes) ++ s) = none := by
    intro s
    rfl
  simp [adminRequest, hother]

/-! ### The command lines of the plugins -/

/-- A program that is neither of the wrappers starts as it is. -/
theorem shScript_client (lookup : Bytes → Bytes) (p : Process) (client : Bytes)
    (args : List Bytes) (hargv : p.argv = client :: args) (hsh : client ≠ "sh") :
    shScript lookup p = some p := by
  unfold shScript
  rw [hargv]
  rcases args with _ | ⟨opt, _ | ⟨script, _ | ⟨name, params⟩⟩⟩ <;> simp [hsh]

/-- A client behind `env` and one variable. -/
theorem start_env (containerEnv : Bytes → Bytes → Bytes) (set client : Bytes) (args : List Bytes)
    (hset : (61 : UInt8) ∈ set) (hclient : (61 : UInt8) ∉ client) (hsh : client ≠ "sh") :
    start containerEnv ("env" :: set :: client :: args) =
      some ⟨none, [splitAssignment set], client :: args⟩ := by
  have hdocker : ("env" : Bytes) ≠ "docker" := by decide
  have henv : envUtility ⟨none, [], "env" :: set :: client :: args⟩ =
      ⟨none, [splitAssignment set], client :: args⟩ := by
    simp [envUtility, hset, hclient]
  unfold start
  rw [show dockerExec ⟨none, [], "env" :: set :: client :: args⟩ =
    some ⟨none, [], "env" :: set :: client :: args⟩ by simp [dockerExec, hdocker]]
  simp only [Option.bind_some, henv]
  exact shScript_client _ _ client args rfl hsh

/-- A client in a container, behind any options. -/
theorem start_docker (containerEnv : Bytes → Bytes → Bytes) (opts : List Bytes)
    (env : List (Bytes × Bytes)) (container client : Bytes) (args : List Bytes)
    (hopts : dockerOptions opts = some (env, container :: client :: args))
    (henv : client ≠ "env") :
    start containerEnv ("docker" :: "exec" :: opts) =
      shScript (containerEnv container) ⟨some container, env, client :: args⟩ := by
  simp [start, dockerExec, hopts, envUtility, henv]

/-- A container named like an option hides the client, or the options are
    refused. Any other is the container. -/
theorem dockerOptions_container (container next flag : Bytes) (rest : List Bytes)
    (hnext : next.head? ≠ some 45) (hflag : flag.head? = some 45)
    (hother : flag ≠ "-i" ∧ flag ≠ "-e") :
    (container.head? ≠ some 45 →
      dockerOptions (container :: next :: flag :: rest) =
        some ([], container :: next :: flag :: rest)) ∧
    (container.head? = some 45 →
      dockerOptions (container :: next :: flag :: rest) = none ∨
      ∃ env, dockerOptions (container :: next :: flag :: rest) =
        some (env, next :: flag :: rest)) := by
  have hdash : ∀ s : Bytes, s.head? ≠ some 45 → s ≠ "-i" ∧ s ≠ "-e" := by
    intro s hs
    constructor <;> rintro rfl <;> exact hs rfl
  constructor
  · intro hc
    simp [dockerOptions, hdash container hc, hc]
  · intro hc
    by_cases hi : container = "-i"
    · -- One more `-i`, and the client is the container.
      refine Or.inr ⟨[], ?_⟩
      simp [dockerOptions, hi, hdash next hnext, hnext]
    · -- The client is a variable to set and its flag no option, or already
      -- the container's name is no option.
      refine Or.inl ?_
      have hrefused : dockerOptions (flag :: rest) = none := by
        unfold dockerOptions
        simp [hother, hflag]
      by_cases he : container = "-e"
      · simp [he, hrefused]
      · simp [dockerOptions, hi, he, hc]

/-- What a started program asks is what its client asks, and a program named
    like an option is no client. -/
theorem clientReading_dashed (clients : Clients) (flag : Bytes) (rest : List Bytes)
    (hflag : flag.head? = some 45) :
    clientReading clients (flag :: rest) = none := by
  have hpsql : flag ≠ "psql" := by
    rintro rfl
    exact absurd hflag (by decide)
  have hmariadb : flag ≠ "mariadb" := by
    rintro rfl
    exact absurd hflag (by decide)
  simp [clientReading, hpsql, hmariadb]

/-- What is asked behind `docker exec`, whatever options stand before the
    container: nothing, if the container is named like an option. -/
theorem reading_docker (containerEnv : Bytes → Bytes → Bytes) (clients : Clients)
    (fixed : List Bytes)
    (env : List (Bytes × Bytes)) (container next flag : Bytes) (rest : List Bytes)
    (hfixed : ∀ tail, dockerOptions (fixed ++ tail) =
      (dockerOptions tail).map (fun r => (env ++ r.1, r.2)))
    (hnext : next.head? ≠ some 45 ∧ next ≠ "env") (hflag : flag.head? = some 45)
    (hother : flag ≠ "-i" ∧ flag ≠ "-e") :
    (start containerEnv ("docker" :: "exec" ::
        (fixed ++ container :: next :: flag :: rest))).bind
        (fun p => clientReading clients p.argv) =
      if container.head? = some 45 then none
      else (shScript (containerEnv container)
        ⟨some container, env, next :: flag :: rest⟩).bind
        (fun p => clientReading clients p.argv) := by
  rcases dockerOptions_container container next flag rest hnext.1 hflag hother with
    ⟨hplain, hdashed⟩
  by_cases hc : container.head? = some 45
  · rw [if_pos hc]
    rcases hdashed hc with hnone | ⟨more, hsome⟩
    · have hopts := hfixed (container :: next :: flag :: rest)
      rw [hnone] at hopts
      simp [start, dockerExec, hopts]
    · -- The client is the container now, and its flag is the program.
      have hopts := hfixed (container :: next :: flag :: rest)
      rw [hsome] at hopts
      have henv : flag ≠ "env" := by
        rintro rfl
        exact absurd hflag (by decide)
      have hsh : flag ≠ "sh" := by
        rintro rfl
        exact absurd hflag (by decide)
      rw [start_docker containerEnv _ _ next flag rest hopts henv,
        shScript_client _ _ flag rest rfl hsh, Option.bind_some]
      exact clientReading_dashed clients flag rest hflag
  · have hopts := hfixed (container :: next :: flag :: rest)
    rw [hplain hc] at hopts
    simp only [Option.map_some, List.append_nil] at hopts
    rw [if_neg hc, start_docker containerEnv _ _ container next _ hopts hnext.2]

/-- What a client is asked behind `docker exec`, which sets the password. -/
theorem reading_dockerSet (containerEnv : Bytes → Bytes → Bytes) (clients : Clients)
    (interactive : Bool)
    (set container client flag : Bytes) (rest : List Bytes)
    (hclient : client.head? ≠ some 45 ∧ client ≠ "env") (hsh : client ≠ "sh")
    (hflag : flag.head? = some 45) (hother : flag ≠ "-i" ∧ flag ≠ "-e") :
    (start containerEnv
        ((if interactive then ["docker", "exec", "-i"] else ["docker", "exec"] : List Bytes) ++
          (["-e", set, container] : List Bytes) ++ client :: flag :: rest)).bind
        (fun p => clientReading clients p.argv) =
      if container.head? = some 45 then none
      else clientReading clients (client :: flag :: rest) := by
  have hset : ∀ fixed, (∀ tail, dockerOptions (fixed ++ tail) =
      (dockerOptions tail).map (fun r => ([splitAssignment set] ++ r.1, r.2))) →
      (start containerEnv ("docker" :: "exec" ::
        (fixed ++ container :: client :: flag :: rest))).bind
        (fun p => clientReading clients p.argv) =
      if container.head? = some 45 then none
      else clientReading clients (client :: flag :: rest) := by
    intro fixed hfixed
    rw [reading_docker containerEnv clients fixed _ container client flag rest hfixed hclient hflag
        hother, shScript_client _ _ client (flag :: rest) rfl hsh, Option.bind_some]
  cases interactive
  · exact hset ["-e", set] (fun tail => by simp)
  · exact hset ["-i", "-e", set] (fun tail => by simp)

/-- What `psql` is asked on the host or in a container. -/
theorem reading_postgres (containerEnv : Bytes → Bytes → Bytes) (clients : Clients)
    (cfg : Postgres.Config)
    (interactive : Bool) (rest : List Bytes) :
    (start containerEnv (Postgres.execPrefix cfg interactive ++
        (("psql" : Bytes) :: ("-U" : Bytes) :: rest))).bind
        (fun p => clientReading clients p.argv) =
      if cfg.container.head? = some 45 then none else psqlReading clients ("-U" :: rest) := by
  have hpsql : clientReading clients ("psql" :: "-U" :: rest) =
      psqlReading clients ("-U" :: rest) := by
    simp [clientReading]
  unfold Postgres.execPrefix
  -- Only that the setting is an assignment matters, not which.
  generalize hset : ("PGPASSWORD=" : Bytes) ++ cfg.password = set
  have hmem : (61 : UInt8) ∈ set := by
    rw [← hset]
    exact List.mem_append_left _ (by decide)
  by_cases hdirect : cfg.container = []
  · rw [if_pos hdirect, if_neg (by simp [hdirect])]
    simp only [List.cons_append, List.nil_append]
    rw [start_env containerEnv set "psql" _ hmem (by decide) (by decide), Option.bind_some, hpsql]
  · rw [if_neg hdirect]
    rw [reading_dockerSet containerEnv clients interactive set cfg.container "psql" "-U" rest
      (by decide)
      (by decide) (by decide) (by decide), hpsql]

/-- The word of these bytes, none of them quoted. -/
def bareWord (s : Bytes) : Word := s.map (.lit false)

/-- The script of the third way to pass a password has three words: the
    assignment, whose value is the variable, `exec` and all the arguments. -/
theorem lex_passwordScript (env : Bytes) (henv : Mariadb.envVarName env = true) :
    lex (Mariadb.passwordScript env) = some
      [.word (bareWord "MYSQL_PWD=" ++ [.param true env]), .word (bareWord "exec"),
        .word [.param true "@"]] := by
  rcases env with _ | ⟨b, n⟩
  · cases henv
  · rw [Mariadb.envVarName, Bool.and_eq_true] at henv
    have hopen : run (.plain none) ("MYSQL_PWD=\"$" : Bytes) =
        some ([], .dollar true (bareWord "MYSQL_PWD=")) := rfl
    have hclose : ∀ w, run (.plain (some w)) (" exec \"$@\"" : Bytes) =
        some ([.word w, .word (bareWord "exec")], .plain (some [.param true "@"])) := fun _ => rfl
    have hline : Mariadb.passwordScript (b :: n) =
        ("MYSQL_PWD=\"$" : Bytes) ++ (b :: n ++ 34 :: (" exec \"$@\"" : Bytes)) := by
      simp only [Mariadb.passwordScript, List.append_assoc]
      rfl
    simp only [lex, hline, run_append _ _ _ _ _ hopen, run_variable b n henv.1 henv.2, hclose,
      Option.map_some, finish, flush]
    rfl

/-- It is one assignment in front of `exec` and all the arguments. -/
theorem parse_passwordScript (env : Bytes) (henv : Mariadb.envVarName env = true) :
    parse (Mariadb.passwordScript env) = some
      { first := ⟨[bareWord "MYSQL_PWD=" ++ [.param true env]],
          [bareWord "exec", [.param true "@"]]⟩
        rest := [] } := by
  simp only [parse, lex_passwordScript env henv]
  rfl

/-- The script starts the client with the variable's value as the password. -/
theorem shScript_password (lookup : Bytes → Bytes) (container : Option Bytes) (env : Bytes)
    (henv : Mariadb.envVarName env = true) (client : Bytes) (args : List Bytes) :
    shScript lookup ⟨container, [],
        "sh" :: "-c" :: Mariadb.passwordScript env :: "sh" :: client :: args⟩ =
      some ⟨container, [("MYSQL_PWD", lookup env)], client :: args⟩ := by
  have hname : env.head?.any isNameStart = true := by
    cases env with
    | nil => cases henv
    | cons b n =>
        rw [Mariadb.envVarName, Bool.and_eq_true] at henv
        exact henv.1
  -- The shell puts in what its environment has, and the arguments one by one.
  have hset : text lookup (bareWord "MYSQL_PWD=" ++ [.param true env]) =
      some ("MYSQL_PWD=" ++ lookup env) := by
    have hlit : (bareWord "MYSQL_PWD=").mapM (pieceText lookup) =
        some (("MYSQL_PWD=" : Bytes).map (fun b => [b])) := rfl
    have hparam : pieceText lookup (.param true env) = some (lookup env) := by
      simp [pieceText, hname]
    simp only [text, List.mapM_append, hlit, List.mapM_cons, List.mapM_nil, hparam]
    change some (List.flatten (_ ++ [lookup env])) = _
    rw [List.flatten_append]
    simp only [List.flatten_cons, List.flatten_nil, List.append_nil]
    rfl
  have hsplit : splitAssignment ("MYSQL_PWD=" ++ lookup env) =
      (Bytes.ofString "MYSQL_PWD", lookup env) := rfl
  have hexec : fields lookup (client :: args) (bareWord "exec") =
      some [Bytes.ofString "exec"] := rfl
  have hall : fields lookup (client :: args) [.param true "@"] = some (client :: args) := rfl
  simp [shScript, parse_passwordScript env henv, hset, hsplit, hexec, hall]

/-- What `mariadb` is asked in each of the three ways to pass the password. -/
theorem reading_mariadb (containerEnv : Bytes → Bytes → Bytes) (clients : Clients)
    (cfg : Mariadb.Config)
    (interactive : Bool) (rest : List Bytes) :
    (start containerEnv (Mariadb.execPrefix cfg interactive ++
        (("mariadb" : Bytes) :: ("-u" : Bytes) :: rest))).bind
        (fun p => clientReading clients p.argv) =
      if cfg.container.head? = some 45 then none else mariadbReading clients ("-u" :: rest) := by
  have hmariadb : clientReading clients ("mariadb" :: "-u" :: rest) =
      mariadbReading clients ("-u" :: rest) := by
    have hother : ("mariadb" : Bytes) ≠ "psql" := by decide
    simp [clientReading, hother]
  unfold Mariadb.execPrefix
  -- Only that the setting is an assignment matters, not which.
  generalize hset : ("MYSQL_PWD=" : Bytes) ++ cfg.password = set
  have hmem : (61 : UInt8) ∈ set := by
    rw [← hset]
    exact List.mem_append_left _ (by decide)
  by_cases hdirect : cfg.container = []
  · rw [if_pos hdirect, if_neg (by simp [hdirect])]
    simp only [List.cons_append, List.nil_append]
    rw [start_env containerEnv set "mariadb" _ hmem (by decide) (by decide), Option.bind_some,
      hmariadb]
  · rw [if_neg hdirect]
    by_cases henv : cfg.passwordContainerEnv = []
    · have h := reading_dockerSet containerEnv clients interactive set cfg.container "mariadb" "-u"
        rest (by decide) (by decide) (by decide) (by decide)
      rw [hmariadb] at h
      simpa [henv] using h
    · -- The client is the shell's, and the shell is the container's.
      have hname := (cfg.envNamed.resolve_left henv).2
      have hnone : ∀ x : Option (List (Bytes × Bytes) × List Bytes),
          x = x.map (fun r => ([] ++ r.1, r.2)) := by
        intro x
        cases x <;> rfl
      have hscript := shScript_password (containerEnv cfg.container) (some cfg.container) _ hname
        "mariadb" ("-u" :: rest)
      cases interactive
      · have h := reading_docker containerEnv clients [] [] cfg.container "sh" "-c"
          (Mariadb.passwordScript cfg.passwordContainerEnv :: "sh" :: "mariadb" :: "-u" :: rest)
          (fun tail => hnone (dockerOptions tail)) (by decide) (by decide) (by decide)
        rw [hscript, Option.bind_some, hmariadb] at h
        simpa [henv] using h
      · have h := reading_docker containerEnv clients ["-i"] [] cfg.container "sh" "-c"
          (Mariadb.passwordScript cfg.passwordContainerEnv :: "sh" :: "mariadb" :: "-u" :: rest)
          (fun tail => (dockerOptions_interactive tail).trans (hnone _)) (by decide) (by decide)
          (by decide)
        rw [hscript, Option.bind_some, hmariadb] at h
        simpa [henv] using h

/-- A configuration of one of the two plugins. -/
inductive SqlConfig
  | postgres (cfg : Postgres.Config)
  | mariadb (cfg : Mariadb.Config)

namespace SqlConfig

/-- The plugin that is configured. -/
def plugin : SqlConfig → SqlPlugin
  | .postgres cfg => Postgres.plugin cfg
  | .mariadb cfg => Mariadb.plugin cfg

/-- The container the server runs in, if any. -/
def container : SqlConfig → Bytes
  | .postgres cfg => cfg.container
  | .mariadb cfg => cfg.container

/-- Whether the client is told to stop at an error in a script, or does so anyway. -/
def stops : SqlConfig → Bool
  | .postgres _ => false
  | .mariadb _ => true

/-- The client takes this for the name of a database. -/
def Names : SqlConfig → Bytes → Prop
  | .postgres _, n => PsqlName n
  | .mariadb _, n => MariadbName n

/-- What the client makes of its operand in a restore. -/
def reads (clients : Clients) : SqlConfig → Bytes → Reading
  | .postgres cfg, n => clients.psql (some cfg.username) false n
  | .mariadb cfg, n => clients.mariadb (some cfg.username) n

/-- Of the name of a database it reads the script into it. -/
theorem reads_name (clients : Clients) (c : SqlConfig) (n : Bytes) (h : c.Names n) :
    c.reads clients n = .replay c.stops n := by
  cases c with
  | postgres cfg => exact clients.psql_name _ _ n h
  | mariadb cfg => exact clients.mariadb_name _ n h

/-- A command line that reaches the client: it can be handed to a shell, and
    `docker` does not take the container's name for an option. -/
def Runnable (c : SqlConfig) (line : Bytes) : Prop :=
  NulFree line ∧ c.container.head? ≠ some 45

variable (containerEnv : Bytes → Bytes → Bytes) (clients : Clients)

/-- A built line asks what its arguments ask, if it reaches the client. -/
theorem reading_build_iff (c : SqlConfig) (args : List Bytes) (asked r : Reading)
    (hne : args ≠ [])
    (hstart : (start containerEnv args).bind (fun p => clientReading clients p.argv) =
      if c.container.head? = some 45 then none else some asked) :
    reading containerEnv clients (build args) = some r ↔ c.Runnable (build args) ∧ r = asked := by
  by_cases hnul : NulFree (build args)
  · have hlaunch : reading containerEnv clients (build args) =
        if c.container.head? = some 45 then none else some asked := by
      rw [reading, launch_build containerEnv args hne ((nulFree_build_iff args).mp hnul), hstart]
    rw [hlaunch]
    by_cases hc : c.container.head? = some 45
    · simp [hc, Runnable]
    · simp [hc, Runnable, hnul, eq_comm]
  · constructor
    · intro h
      rcases Option.bind_eq_some_iff.mp h with ⟨p, hp, _⟩
      exact absurd (nulFree_of_launch containerEnv _ p hp) hnul
    · exact fun h => absurd h.1.1 hnul

/-- The command that creates a database asks for that, or for nothing. -/
theorem reading_create (c : SqlConfig) (database : Bytes) (r : Reading) :
    reading containerEnv clients (c.plugin.createDatabaseCommand database) = some r ↔
      c.Runnable (c.plugin.createDatabaseCommand database) ∧ r = .requests [.create database] := by
  cases c with
  | postgres cfg =>
      refine reading_build_iff containerEnv clients (.postgres cfg) _ _ r (by simp) ?_
      refine (reading_postgres containerEnv clients cfg false _).trans ?_
      congr 1
      exact congrArg (Option.map fun r => Reading.requests [r])
        (adminRequest_create 34 database)
  | mariadb cfg =>
      refine reading_build_iff containerEnv clients (.mariadb cfg) _ _ r (by simp) ?_
      refine (reading_mariadb containerEnv clients cfg false _).trans ?_
      congr 1
      exact congrArg (Option.map fun r => Reading.requests [r])
        (adminRequest_create 96 database)

/-- The command that drops a database asks for that, or for nothing. -/
theorem reading_drop (c : SqlConfig) (database : Bytes) (r : Reading) :
    reading containerEnv clients (c.plugin.dropDatabaseCommand database) = some r ↔
      c.Runnable (c.plugin.dropDatabaseCommand database) ∧ r = .requests [.drop database] := by
  cases c with
  | postgres cfg =>
      refine reading_build_iff containerEnv clients (.postgres cfg) _ _ r (by simp) ?_
      refine (reading_postgres containerEnv clients cfg false _).trans ?_
      congr 1
      exact congrArg (Option.map fun r => Reading.requests [r])
        (adminRequest_drop 34 database)
  | mariadb cfg =>
      refine reading_build_iff containerEnv clients (.mariadb cfg) _ _ r (by simp) ?_
      refine (reading_mariadb containerEnv clients cfg false _).trans ?_
      congr 1
      exact congrArg (Option.map fun r => Reading.requests [r])
        (adminRequest_drop 96 database)

/-- The command that restores a database does what its client makes of the name,
    or nothing. -/
theorem reading_restore (c : SqlConfig) (database : Bytes) (r : Reading) :
    reading containerEnv clients (c.plugin.restoreCommand database) = some r ↔
      c.Runnable (c.plugin.restoreCommand database) ∧ r = c.reads clients database := by
  cases c with
  | postgres cfg =>
      exact reading_build_iff containerEnv clients (.postgres cfg) _ _ r (by simp)
        (reading_postgres containerEnv clients cfg true _)
  | mariadb cfg =>
      exact reading_build_iff containerEnv clients (.mariadb cfg) _ _ r (by simp)
        (reading_mariadb containerEnv clients cfg true _)

/-- A name with doubled quotes holds a zero byte when the name does. -/
theorem nulFree_doubled (q : UInt8) (hq : q ≠ 0) (name : Bytes) :
    NulFree (replaceByte q [q, q] name) ↔ NulFree name := by
  unfold NulFree replaceByte
  rw [not_iff_not, List.mem_flatMap]
  constructor
  · rintro ⟨b, hb, h⟩
    by_cases hbq : b = q
    · simp [hbq, Ne.symm hq] at h
    · simp only [hbq, if_false, List.mem_singleton] at h
      rwa [h]
  · intro h
    exact ⟨0, h, by simp [Ne.symm hq]⟩

instance (s : Bytes) : Decidable (NulFree s) := inferInstanceAs (Decidable ((0 : UInt8) ∉ s))

/-- The words in front of `psql` hold a zero byte or not, whether or not it is
    to read anything. -/
theorem nulFree_postgres (cfg : Postgres.Config) :
    (∀ a ∈ Postgres.execPrefix cfg true, NulFree a) ↔
      ∀ a ∈ Postgres.execPrefix cfg false, NulFree a := by
  have hi : NulFree "-i" := by decide
  unfold Postgres.execPrefix
  by_cases hdirect : cfg.container = []
  · simp [hdirect]
  · simp [hdirect, hi]

/-- The words in front of `mariadb`, likewise. -/
theorem nulFree_mariadb (cfg : Mariadb.Config) :
    (∀ a ∈ Mariadb.execPrefix cfg true, NulFree a) ↔
      ∀ a ∈ Mariadb.execPrefix cfg false, NulFree a := by
  have hi : NulFree "-i" := by decide
  unfold Mariadb.execPrefix
  by_cases hdirect : cfg.container = []
  · simp [hdirect]
  · by_cases henv : cfg.passwordContainerEnv = []
    · simp [hdirect, henv, hi]
    · simp [hdirect, henv, hi]

/-- The plugin's three commands hold a zero byte or not together: the same words
    are in all of them. -/
theorem runnable_iff (c : SqlConfig) (database : Bytes) :
    (c.Runnable (c.plugin.createDatabaseCommand database) ↔
      c.Runnable (c.plugin.restoreCommand database)) ∧
    (c.Runnable (c.plugin.dropDatabaseCommand database) ↔
      c.Runnable (c.plugin.restoreCommand database)) := by
  have hwords : ∀ s ∈ (["psql", "-U", "-d", "postgres", "-v", "ON_ERROR_STOP=1", "-c", "mariadb",
      "-u", "-e", "CREATE DATABASE ", "DROP DATABASE ", "CREATE DATABASE \"", "DROP DATABASE \"",
      "\"", [96]] : List Bytes),
      NulFree s := by decide
  simp only [List.forall_mem_cons] at hwords
  cases c with
  | postgres cfg =>
      have hname : NulFree (replaceByte 34 "\"\"" database) ↔ NulFree database :=
        nulFree_doubled 34 (by decide) database
      simp only [Runnable, plugin, Postgres.plugin, Postgres.createDatabaseCommand,
        Postgres.dropDatabaseCommand, Postgres.restoreCommand, nulFree_build_iff,
        List.forall_mem_append, List.forall_mem_cons, nulFree_postgres, Postgres.createDatabaseSQL,
        Postgres.dropDatabaseSQL, Postgres.escapeIdentifier, nulFree_append, hwords,
        hname]
      simp
  | mariadb cfg =>
      have hname := nulFree_doubled 96 (by decide) database
      simp only [Runnable, plugin, Mariadb.plugin, Mariadb.createDatabaseCommand,
        Mariadb.dropDatabaseCommand, Mariadb.restoreCommand, nulFree_build_iff,
        List.forall_mem_append, List.forall_mem_cons, nulFree_mariadb, Mariadb.createDatabaseSQL,
        Mariadb.dropDatabaseSQL, Mariadb.quoteIdentifier, nulFree_append, hwords,
        hname]
      simp

end SqlConfig

/-! ### One database -/

/-- A postgres server on the host itself, with one database. -/
def shopPostgres : SqlConfig := .postgres ⟨"bop", "secret", ["shop"], []⟩

/-- Clients that read the script into the database that is named, be it in a
    connection string that holds nothing else, and refuse any other operand. -/
def plainClients : Clients where
  psql _ stop n :=
    if PsqlName n then .replay stop n
    else match afterKeyword "dbname=" n with
      | some name => .replay stop name
      | none => .requests []
  mariadb _ n := if MariadbName n then .replay true n else .requests []
  psql_name _ _ _ h := if_pos h
  mariadb_name _ _ h := if_pos h

/-- The restore test of that database. -/
def shopTest : Artifact :=
  ⟨"shop" ++ restoreTestSuffix, "db", "postgres", "/tmp/pg-shop-1", 10, [], false, 0⟩

/-- Its commands reach their client. -/
theorem shop_runnable :
    shopPostgres.Runnable (shopPostgres.plugin.restoreCommand shopTest.resourceID) := by
  refine ⟨(nulFree_build_iff _).mpr ?_, by decide⟩
  decide

end Sql

end Bop
