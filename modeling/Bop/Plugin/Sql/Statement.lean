import Bop.Plugin.Sql.Client
import Bop.Plugin.Sql.Lexer

/-!
# The Statements of a Scratch Database

A restore test creates a database and drops it again. Its name goes into a
statement as a quoted identifier, the statement is one argument of a client,
and the client's arguments are quoted for the remote shell. Where the password
is the value of a container's variable, a second shell stands in between: it
reads a fixed script and hands the arguments on as they are.

Each of these is undone by its reader. The shells hand the client exactly its
arguments, and the server reads one identifier whose value is the name.

## Main definitions

* `shellArgv`: The arguments a shell makes of a line.
* `SqlConfig.wrapper`, `SqlConfig.inner`: What stands in front of the client.
* `SqlConfig.tokenised`: The client's arguments, when every shell has read.
* `SqlConfig.adminArgs`: The client's arguments in front of the statement.

## Theorems

* `shellArgv_build`: A shell reads back the arguments of a built line.
* `tokenised_build`: Every shell hands the client its arguments.
* `scratch_statement`: A statement names exactly the intended database.
-/

namespace Bop

namespace Shell

/-- The arguments a shell makes of a line, when it is one simple command whose
    words are all quoted. A line with a zero byte cannot be handed to one. -/
def shellArgv (line : Bytes) : Option (List Bytes) :=
  if (0 : UInt8) ∈ line then none
  else (parse line).bind fun c => if c.rest ≠ [] then none else c.first.argv

/-- The arguments an inner shell starts its command with. -/
def innerArgv (lookup : Bytes → Bytes) (argv : List Bytes) : Option (List Bytes) :=
  (shScript lookup ⟨none, [], argv⟩).map Process.argv

end Shell

open Shell

/-- A shell reads back the arguments of a built line, unless one of them cannot
    be an argument. -/
theorem Shellcmd.shellArgv_build (args : List Bytes) (hne : args ≠ []) :
    shellArgv (build args) = if ∀ a ∈ args, NulFree a then some args else none := by
  unfold shellArgv
  by_cases hnul : ∀ a ∈ args, NulFree a
  · have hline : NulFree (build args) := (nulFree_build_iff args).mpr hnul
    rw [if_neg hline, if_pos hnul, parse_build args hne hnul]
    simp only [Option.bind_some, ne_eq, not_true_eq_false, if_false, argv_quoted]
  · have hline : (0 : UInt8) ∈ build args := by
      by_contra h
      exact hnul ((nulFree_build_iff args).mp h)
    rw [if_pos hline, if_neg hnul]

namespace Sql

namespace SqlConfig

/-- What the command lines have in front of the program that is started on the
    host or in the container. -/
def wrapper : SqlConfig → List Bytes
  | .postgres cfg => Postgres.execPrefix cfg false
  | .mariadb cfg =>
      if cfg.container ≠ [] ∧ cfg.passwordContainerEnv ≠ [] then
        (["docker", "exec", cfg.container] : List Bytes)
      else Mariadb.execPrefix cfg false

/-- The inner shell and its script, if there is one. -/
def inner : SqlConfig → List Bytes
  | .postgres _ => []
  | .mariadb cfg =>
      if cfg.container ≠ [] ∧ cfg.passwordContainerEnv ≠ [] then
        (["sh", "-c", Mariadb.passwordScript cfg.passwordContainerEnv, "sh"] : List Bytes)
      else []

/-- The client's arguments in front of a statement, and the option that
    announces one. -/
def adminArgs : SqlConfig → List Bytes
  | .postgres cfg => ["psql", "-U", cfg.username, "-d", "postgres", "-v", "ON_ERROR_STOP=1"]
  | .mariadb cfg => ["mariadb", "-u", cfg.username]

def statementFlag : SqlConfig → Bytes
  | .postgres _ => "-c"
  | .mariadb _ => "-e"

/-- The quote of the server's identifiers. -/
def identifierQuote : SqlConfig → UInt8
  | .postgres _ => 34
  | .mariadb _ => 96

/-- The client's arguments, when the remote shell has read the line and the
    inner shell, if there is one, has read its script. -/
def tokenised (c : SqlConfig) (lookup : Bytes → Bytes) (line : Bytes) : Option (List Bytes) := do
  let argv ← shellArgv line
  let started := argv.drop c.wrapper.length
  if c.inner = [] then some started else innerArgv lookup started

/-- The words in front of a command line's client. -/
def clientPrefix (c : SqlConfig) : List Bytes := c.wrapper ++ c.inner

/-- They are what the plugins put there. -/
theorem clientPrefix_eq (c : SqlConfig) :
    c.clientPrefix = match c with
      | .postgres cfg => Postgres.execPrefix cfg false
      | .mariadb cfg => Mariadb.execPrefix cfg false := by
  cases c with
  | postgres cfg => exact List.append_nil _
  | mariadb cfg =>
      unfold clientPrefix wrapper inner
      by_cases h : cfg.container ≠ [] ∧ cfg.passwordContainerEnv ≠ []
      · simp only [if_pos h, Mariadb.execPrefix, if_neg h.1, if_pos h.2]
        rfl
      · simp only [if_neg h, List.append_nil]

/-- Every shell hands the client its arguments. -/
theorem tokenised_build (c : SqlConfig) (lookup : Bytes → Bytes) (client : Bytes)
    (args : List Bytes) :
    c.tokenised lookup (Shellcmd.build (c.clientPrefix ++ client :: args)) =
      if ∀ a ∈ c.clientPrefix ++ client :: args, NulFree a then some (client :: args)
      else none := by
  unfold tokenised
  rw [Shellcmd.shellArgv_build _ (by simp)]
  by_cases hnul : ∀ a ∈ c.clientPrefix ++ client :: args, NulFree a
  · rw [if_pos hnul, if_pos hnul]
    simp only [Option.bind_eq_bind, Option.bind_some, clientPrefix, List.append_assoc,
      List.drop_left]
    by_cases hinner : c.inner = []
    · rw [if_pos hinner, hinner, List.nil_append]
    · rw [if_neg hinner]
      cases c with
      | postgres cfg => exact absurd rfl hinner
      | mariadb cfg =>
          -- The script expands its arguments as they are.
          by_cases h : cfg.container ≠ [] ∧ cfg.passwordContainerEnv ≠ []
          · have hname := (cfg.envNamed.resolve_left h.2).2
            have hscript : inner (.mariadb cfg) =
                (["sh", "-c", Mariadb.passwordScript cfg.passwordContainerEnv, "sh"] :
                  List Bytes) := if_pos h
            simp only [hscript, innerArgv, List.cons_append, List.nil_append]
            rw [shScript_password lookup none _ hname client args]
            rfl
          · exact absurd (if_neg h) hinner
  · simp only [if_neg hnul, Option.bind_eq_bind, Option.bind_none]

end SqlConfig

/-- What `CREATE` and `DROP` have in front of a name. -/
theorem sqlLex_statement (q : UInt8) (hq : q = 34 ∨ q = 96) (keyword start name : Bytes)
    (hstart : (keyword = "CREATE" ∧ start = "CREATE DATABASE ") ∨
      (keyword = "DROP" ∧ start = "DROP DATABASE ")) :
    sqlLex q (start ++ (q :: double q name ++ [q])) =
      some [.word keyword, .word "DATABASE", .identifier name] := by
  have hrun : sqlRun q .between start = ([.word keyword, .word "DATABASE"], .between) := by
    rcases hq with rfl | rfl <;> rcases hstart with ⟨rfl, rfl⟩ | ⟨rfl, rfl⟩ <;> decide
  have hspace : isSqlSpace q = false := by
    rcases hq with rfl | rfl <;> decide
  exact sqlLex_identifier q start name _ hrun hspace

/-- How the plugins quote a name. -/
theorem escapeIdentifier_eq (start opened name : Bytes) (h : opened = start ++ [34]) :
    opened ++ Postgres.escapeIdentifier name ++ ("\"" : Bytes) =
      start ++ (34 :: double 34 name ++ [34]) := by
  subst h
  simp only [List.append_assoc, List.cons_append]
  rfl

namespace SqlConfig

/-- The two command lines are built from the same words and a statement. -/
theorem adminCommand_eq (c : SqlConfig) (database : Bytes) :
    (∃ sql, c.plugin.createDatabaseCommand database =
        Shellcmd.build (c.clientPrefix ++ c.adminArgs ++ [c.statementFlag, sql]) ∧
      sqlLex c.identifierQuote sql = some [.word "CREATE", .word "DATABASE", .identifier database] ∧
      (NulFree database → NulFree sql)) ∧
    ∃ sql, c.plugin.dropDatabaseCommand database =
        Shellcmd.build (c.clientPrefix ++ c.adminArgs ++ [c.statementFlag, sql]) ∧
      sqlLex c.identifierQuote sql = some [.word "DROP", .word "DATABASE", .identifier database] ∧
      (NulFree database → NulFree sql) := by
  -- Whether the statement is one argument depends on the database's name only.
  have hwords : ∀ s ∈ (["CREATE DATABASE ", "DROP DATABASE ", "CREATE DATABASE \"",
      "DROP DATABASE \"", "\"", [96]] : List Bytes), NulFree s := by decide
  simp only [List.forall_mem_cons] at hwords
  rw [clientPrefix_eq]
  cases c with
  | postgres cfg =>
      have hname : NulFree (Postgres.escapeIdentifier database) ↔ NulFree database :=
        nulFree_doubled 34 (by decide) database
      refine ⟨⟨Postgres.createDatabaseSQL database, ?_, ?_, ?_⟩,
        ⟨Postgres.dropDatabaseSQL database, ?_, ?_, ?_⟩⟩
      · rw [List.append_assoc]
        rfl
      · rw [Postgres.createDatabaseSQL, escapeIdentifier_eq "CREATE DATABASE "
          "CREATE DATABASE \"" database (by decide)]
        exact sqlLex_statement 34 (Or.inl rfl) _ _ database (Or.inl ⟨rfl, rfl⟩)
      · intro h
        simp only [Postgres.createDatabaseSQL, nulFree_append, hwords, hname, h, and_self]
      · rw [List.append_assoc]
        rfl
      · rw [Postgres.dropDatabaseSQL, escapeIdentifier_eq "DROP DATABASE "
          "DROP DATABASE \"" database (by decide)]
        exact sqlLex_statement 34 (Or.inl rfl) _ _ database (Or.inr ⟨rfl, rfl⟩)
      · intro h
        simp only [Postgres.dropDatabaseSQL, nulFree_append, hwords, hname, h, and_self]
  | mariadb cfg =>
      have hname := nulFree_doubled 96 (by decide) database
      refine ⟨⟨Mariadb.createDatabaseSQL database, ?_, ?_, ?_⟩,
        ⟨Mariadb.dropDatabaseSQL database, ?_, ?_, ?_⟩⟩
      · rw [List.append_assoc]
        rfl
      · exact sqlLex_statement 96 (Or.inr rfl) _ _ database (Or.inl ⟨rfl, rfl⟩)
      · intro h
        simp only [Mariadb.createDatabaseSQL, Mariadb.quoteIdentifier, nulFree_append, hwords,
          hname, h, and_self]
      · rw [List.append_assoc]
        rfl
      · exact sqlLex_statement 96 (Or.inr rfl) _ _ database (Or.inr ⟨rfl, rfl⟩)
      · intro h
        simp only [Mariadb.dropDatabaseSQL, Mariadb.quoteIdentifier, nulFree_append, hwords, hname,
          h, and_self]

/-- What the shells make of a statement's command line. -/
theorem tokenised_statement (c : SqlConfig) (lookup : Bytes → Bytes) (sql : Bytes)
    (hsql : NulFree sql) :
    c.tokenised lookup (Shellcmd.build (c.clientPrefix ++ c.adminArgs ++ [c.statementFlag, sql])) =
      if ∀ a ∈ c.clientPrefix ++ c.adminArgs, NulFree a then
        some (c.adminArgs ++ [c.statementFlag, sql])
      else none := by
  have hflag : NulFree c.statementFlag := by
    cases c with
    | postgres cfg => exact (by decide : NulFree "-c")
    | mariadb cfg => exact (by decide : NulFree "-e")
  have hcons : ∃ client args, c.adminArgs = client :: args := by
    cases c <;> exact ⟨_, _, rfl⟩
  rcases hcons with ⟨client, args, hargs⟩
  have hall : (∀ a ∈ c.clientPrefix ++ client :: (args ++ [c.statementFlag, sql]), NulFree a) ↔
      ∀ a ∈ c.clientPrefix ++ client :: args, NulFree a := by
    simp only [List.forall_mem_append, List.forall_mem_cons, hflag, hsql, List.not_mem_nil,
      false_implies, implies_true, and_true]
  rw [hargs, List.append_assoc, List.cons_append, tokenised_build]
  simp only [hall]

end SqlConfig

/-- A statement names exactly the intended database. Whenever the shells have
    read a command line that creates or drops a database, the client's last
    argument, after the option that announces it, is two keywords and one
    identifier whose value is the name. They read it unless some argument that
    is not the statement holds a zero byte. -/
theorem scratch_statement (c : SqlConfig) (database : Bytes) (hnul : NulFree database)
    (lookup : Bytes → Bytes) :
    (∀ argv, c.tokenised lookup (c.plugin.createDatabaseCommand database) = some argv →
      ∃ sql, argv = c.adminArgs ++ [c.statementFlag, sql] ∧ sqlLex c.identifierQuote sql =
        some [.word "CREATE", .word "DATABASE", .identifier database]) ∧
    (∀ argv, c.tokenised lookup (c.plugin.dropDatabaseCommand database) = some argv →
      ∃ sql, argv = c.adminArgs ++ [c.statementFlag, sql] ∧ sqlLex c.identifierQuote sql =
        some [.word "DROP", .word "DATABASE", .identifier database]) ∧
    ((c.tokenised lookup (c.plugin.createDatabaseCommand database)).isSome ↔
      ∀ a ∈ c.clientPrefix ++ c.adminArgs, NulFree a) ∧
    ((c.tokenised lookup (c.plugin.dropDatabaseCommand database)).isSome ↔
      ∀ a ∈ c.clientPrefix ++ c.adminArgs, NulFree a) := by
  rcases c.adminCommand_eq database with
    ⟨⟨create, hcreate, hcreateLex, hcreateNul⟩, drop, hdrop, hdropLex, hdropNul⟩
  rw [hcreate, hdrop, c.tokenised_statement lookup create (hcreateNul hnul),
    c.tokenised_statement lookup drop (hdropNul hnul)]
  by_cases hargs : ∀ a ∈ c.clientPrefix ++ c.adminArgs, NulFree a
  · simp only [if_pos hargs, Option.some.injEq, Option.isSome_some, true_iff]
    exact ⟨fun argv h => ⟨create, h.symm, hcreateLex⟩, fun argv h => ⟨drop, h.symm, hdropLex⟩,
      hargs, hargs⟩
  · simp only [if_neg hargs, reduceCtorEq, false_implies, implies_true, Option.isSome_none,
      Bool.false_eq_true, true_and, false_iff]
    exact ⟨hargs, hargs⟩

/-- A name with every kind of quote in it. -/
theorem scratch_statement_shop :
    (∀ argv, shopPostgres.tokenised (fun _ => [])
        (shopPostgres.plugin.createDatabaseCommand "it's \"a\"`\\") = some argv →
      ∃ sql, argv = shopPostgres.adminArgs ++ [shopPostgres.statementFlag, sql] ∧
        sqlLex shopPostgres.identifierQuote sql =
          some [.word "CREATE", .word "DATABASE", .identifier "it's \"a\"`\\"]) ∧
    (shopPostgres.tokenised (fun _ => [])
      (shopPostgres.plugin.createDatabaseCommand "it's \"a\"`\\")).isSome := by
  have h := scratch_statement shopPostgres "it's \"a\"`\\" (by decide) (fun _ => [])
  exact ⟨h.1, h.2.2.1.mpr (by decide)⟩

end Sql

end Bop
