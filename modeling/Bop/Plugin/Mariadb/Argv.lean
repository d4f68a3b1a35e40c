import Bop.Plugin.Sql.Statement

/-!
# What the MariaDB Commands Execute

A dump or a restore is one client with fixed arguments, a user and a database.
It is started in one of three ways: on the host, in a container with the
password on the command line of `docker exec`, or in a container whose shell
takes the password from a variable of its own.

In each of them the client gets its arguments as they are. The remote shell
reads nothing but quoted words, so it interprets no byte of them. The inner
shell reads only the script, which names one variable and takes the arguments
as `"$@"`, so it never sees them as text.

`docker` reads options before it reads a container, so a container must not be
named like one.

## Main definitions

* `Config.place`, `Config.delivered`: Where the client runs and the password it
  is given.
* `dumpArgv`, `restoreArgv`: The intended arguments.
* `expansions`: The parameters a line expands.

## Theorems

* `password_of_parseConfig`: Where the password comes from.
* `start_client`: The three ways of starting a client.
* `executes_argv`: The commands execute the intended arguments.
-/

namespace Bop

namespace Mariadb

open Shell Shellcmd

/-- The container the client runs in, if any. -/
def Config.place (cfg : Config) : Option Bytes :=
  if cfg.container = [] then none else some cfg.container

/-- The password the client is given. -/
def Config.delivered (containerEnv : Bytes → Bytes → Bytes) (cfg : Config) : Bytes :=
  if cfg.container ≠ [] ∧ cfg.passwordContainerEnv ≠ [] then
    containerEnv cfg.container cfg.passwordContainerEnv
  else cfg.password

/-- The arguments a dump is meant to execute. -/
def dumpArgv (cfg : Config) (database : Bytes) : List Bytes :=
  ["mariadb-dump", "-u", cfg.username, "--single-transaction", "--routines", "--triggers",
    "--events", "--hex-blob", database]

/-- The arguments a restore is meant to execute. -/
def restoreArgv (cfg : Config) (database : Bytes) : List Bytes :=
  ["mariadb", "-u", cfg.username, database]

/-- The parameters a word expands. -/
def wordExpansions (w : Word) : List Bytes :=
  w.filterMap fun
    | .param _ name => some name
    | .lit _ _ => none

/-- The parameters a line expands, in order. -/
def expansions (tokens : List Token) : List Bytes :=
  tokens.flatMap fun
    | .word w => wordExpansions w
    | _ => []

/-- The password is a variable of the controller, and there is none when the
    container's variable is used. -/
theorem password_of_parseConfig (getenv : Bytes → Bytes) (raw : Option PluginConfig)
    (cfg : Config) (h : parseConfig getenv raw = .ok cfg) :
    (cfg.passwordContainerEnv = [] ∧ ∃ name, cfg.password = getenv name) ∨
      (cfg.passwordContainerEnv ≠ [] ∧ cfg.password = []) := by
  -- The rest of the parser keeps both.
  have hdatabases : ∀ raw username container password env henv,
      parseDatabases raw username container password env henv = .ok cfg →
      cfg.password = password ∧ cfg.passwordContainerEnv = env := by
    intro raw username container password env henv hparse
    unfold parseDatabases at hparse
    split at hparse
    · cases hparse
    · split_ifs at hparse
      cases hparse
      exact ⟨rfl, rfl⟩
  unfold parseConfig at h
  split at h
  · cases h
  · simp only at h
    split_ifs at h with huser hboth hpw hempty henv hcontainer hname
    · rcases hdatabases _ _ _ _ _ _ h with ⟨hpassword, hnone⟩
      exact Or.inl ⟨hnone, _, hpassword⟩
    · rcases hdatabases _ _ _ _ _ _ h with ⟨hpassword, hsome⟩
      exact Or.inr ⟨by rw [hsome]; exact henv, hpassword⟩

/-- A container that is not named like an option ends the options. -/
theorem dockerOptions_plain (container : Bytes) (rest : List Bytes)
    (h : container.head? ≠ some 45) :
    dockerOptions (container :: rest) = some ([], container :: rest) := by
  have hi : container ≠ "-i" := by
    rintro rfl
    exact h rfl
  have he : container ≠ "-e" := by
    rintro rfl
    exact h rfl
  unfold dockerOptions
  simp [hi, he, h]

/-- A container behind the options that every client has. -/
theorem dockerOptions_interactively (interactive : Bool) (tail : List Bytes) :
    dockerOptions ((if interactive then ["-i"] else [] : List Bytes) ++ tail) =
      dockerOptions tail := by
  cases interactive
  · rfl
  · exact dockerOptions_interactive tail

/-- In a container, `docker exec` sets the variable. -/
theorem start_dockerSet (containerEnv : Bytes → Bytes → Bytes) (password container : Bytes)
    (hcontainer : container.head? ≠ some 45) (interactive : Bool) (client : Bytes)
    (args : List Bytes) (hsh : client ≠ "sh") (henv : client ≠ "env") :
    start containerEnv ("docker" :: "exec" :: ((if interactive then ["-i"] else [] : List Bytes) ++
        ("-e" : Bytes) :: ("MYSQL_PWD=" ++ password) :: container :: client :: args)) =
      some ⟨some container, [("MYSQL_PWD", password)], client :: args⟩ := by
  have hopts : dockerOptions ((if interactive then ["-i"] else [] : List Bytes) ++
      ("-e" : Bytes) :: ("MYSQL_PWD=" ++ password) :: container :: client :: args) =
      some ([(Bytes.ofString "MYSQL_PWD", password)], container :: client :: args) := by
    rw [dockerOptions_interactively, dockerOptions_set, dockerOptions_plain container _ hcontainer]
    rfl
  rw [Sql.start_docker containerEnv _ _ container client args hopts henv,
    Sql.shScript_client _ _ client args rfl hsh]

/-- Or the container's own shell does, from the script. -/
theorem start_dockerScript (containerEnv : Bytes → Bytes → Bytes) (name container : Bytes)
    (hcontainer : container.head? ≠ some 45) (hname : envVarName name = true)
    (interactive : Bool) (client : Bytes) (args : List Bytes) :
    start containerEnv ("docker" :: "exec" :: ((if interactive then ["-i"] else [] : List Bytes) ++
        container :: ("sh" : Bytes) :: "-c" :: passwordScript name :: "sh" :: client :: args)) =
      some ⟨some container, [("MYSQL_PWD", containerEnv container name)], client :: args⟩ := by
  have hopts : dockerOptions ((if interactive then ["-i"] else [] : List Bytes) ++
      container :: ("sh" : Bytes) :: "-c" :: passwordScript name :: "sh" :: client :: args) =
      some ([], container :: "sh" :: "-c" :: passwordScript name :: "sh" :: client :: args) := by
    rw [dockerOptions_interactively, dockerOptions_plain container _ hcontainer]
  rw [Sql.start_docker containerEnv _ _ container "sh" _ hopts (by decide)]
  exact Sql.shScript_password _ _ _ hname client args

/-- The three ways of starting a client. -/
theorem start_client (containerEnv : Bytes → Bytes → Bytes) (cfg : Config)
    (hcontainer : cfg.container.head? ≠ some 45) (interactive : Bool) (client : Bytes)
    (args : List Bytes) (hplain : (61 : UInt8) ∉ client) (hsh : client ≠ "sh")
    (henv : client ≠ "env") :
    start containerEnv (execPrefix cfg interactive ++ client :: args) =
      some ⟨cfg.place, [("MYSQL_PWD", cfg.delivered containerEnv)], client :: args⟩ := by
  unfold execPrefix Config.place Config.delivered
  by_cases hdirect : cfg.container = []
  · -- On the host, `env` sets the variable.
    have hsplit : splitAssignment ("MYSQL_PWD=" ++ cfg.password) =
        (Bytes.ofString "MYSQL_PWD", cfg.password) := rfl
    have hmem : (61 : UInt8) ∈ ("MYSQL_PWD=" : Bytes) ++ cfg.password :=
      List.mem_append_left _ (by decide)
    simp only [hdirect, if_true, ne_eq, not_true_eq_false, false_and, if_false]
    rw [← hsplit]
    exact Sql.start_env containerEnv _ client args hmem hplain hsh
  · simp only [ne_eq, hdirect, not_false_eq_true, true_and]
    by_cases hvar : cfg.passwordContainerEnv = []
    · simp only [hvar, not_true_eq_false, if_false]
      have hstart := start_dockerSet containerEnv cfg.password cfg.container hcontainer interactive
        client args hsh henv
      cases interactive <;> exact hstart
    · simp only [hvar, not_false_eq_true, if_true]
      have hstart := start_dockerScript containerEnv cfg.passwordContainerEnv cfg.container
        hcontainer (cfg.envNamed.resolve_left hvar).2 interactive client args
      cases interactive <;> exact hstart

/-- Nothing in a built line is expanded. -/
theorem expansions_quoted (args : List Bytes) :
    expansions (args.map (fun a => .word (quotedWord a))) = [] := by
  have hword : ∀ s : Bytes, wordExpansions (quotedWord s) = [] := by
    intro s
    unfold wordExpansions quotedWord
    rw [List.filterMap_map, List.filterMap_eq_nil_iff]
    exact fun _ _ => rfl
  unfold expansions
  rw [List.flatMap_map, List.flatMap_eq_nil_iff]
  exact fun a _ => hword a

/-- The script expands the variable and the arguments. -/
theorem expansions_passwordScript (env : Bytes) (henv : envVarName env = true) :
    (lex (passwordScript env)).map expansions = some [env, "@"] := by
  have hbare : ∀ s : Bytes, wordExpansions (Sql.bareWord s) = [] := by
    intro s
    unfold wordExpansions Sql.bareWord
    rw [List.filterMap_map, List.filterMap_eq_nil_iff]
    exact fun _ _ => rfl
  have hset : wordExpansions (Sql.bareWord "MYSQL_PWD=" ++ [.param true env]) = [env] := by
    have happend : ∀ w w' : Word,
        wordExpansions (w ++ w') = wordExpansions w ++ wordExpansions w' :=
      fun w w' => List.filterMap_append
    rw [happend, hbare]
    rfl
  rw [Sql.lex_passwordScript env henv, Option.map_some]
  simp only [expansions, List.flatMap_cons, List.flatMap_nil, hset, hbare]
  rfl

/-- The words in front of a client can be arguments. -/
theorem nulFree_execPrefix (cfg : Config) (interactive : Bool) (hcontainer : NulFree cfg.container)
    (hpassword : NulFree cfg.password) : ∀ a ∈ execPrefix cfg interactive, NulFree a := by
  have hwords : ∀ s ∈ (["env", "MYSQL_PWD=", "docker", "exec", "-i", "-e", "sh", "-c",
      "MYSQL_PWD=\"$", "\" exec \"$@\""] : List Bytes), NulFree s := by
    simp only [NulFree]
    decide
  simp only [List.forall_mem_cons] at hwords
  have hset : NulFree ("MYSQL_PWD=" ++ cfg.password) := (nulFree_append _ _).mpr
    ⟨by simp only [NulFree]; decide, hpassword⟩
  have hscript : NulFree (passwordScript cfg.passwordContainerEnv) := by
    -- A plain name has no zero byte.
    have hname : NulFree cfg.passwordContainerEnv := by
      rcases cfg.envNamed with hempty | ⟨_, hname⟩
      · rw [hempty]
        exact List.not_mem_nil
      · intro hzero
        cases henv : cfg.passwordContainerEnv with
        | nil =>
            rw [henv] at hzero
            exact List.not_mem_nil hzero
        | cons b rest =>
            rw [henv] at hzero hname
            rw [envVarName, Bool.and_eq_true, List.all_eq_true] at hname
            rcases List.mem_cons.mp hzero with h | h
            · rw [← h] at hname
              exact absurd hname.1 (by decide)
            · exact absurd (hname.2 0 h) (by decide)
    unfold passwordScript
    simp only [nulFree_append]
    exact ⟨⟨by simp only [NulFree]; decide, hname⟩, by simp only [NulFree]; decide⟩
  unfold execPrefix
  by_cases hdirect : cfg.container = []
  · simp only [hdirect, if_true, List.forall_mem_cons]
    exact ⟨hwords.1, hset, fun _ h => absurd h List.not_mem_nil⟩
  · by_cases hvar : cfg.passwordContainerEnv = [] <;> cases interactive <;>
      simp [hdirect, hvar, hwords, hset, hscript, hcontainer]

/-- A line of the plugin executes its client with exactly these arguments, and
    the remote shell reads nothing but quoted words. -/
theorem launch_client (containerEnv : Bytes → Bytes → Bytes) (cfg : Config)
    (hcontainer : NulFree cfg.container) (hdash : cfg.container.head? ≠ some 45)
    (hpassword : NulFree cfg.password) (interactive : Bool) (client : Bytes) (args : List Bytes)
    (hclient : client = "mariadb-dump" ∨ client = "mariadb")
    (hargs : ∀ a ∈ args, NulFree a) :
    launch containerEnv (build (execPrefix cfg interactive ++ client :: args)) =
        some ⟨cfg.place, [("MYSQL_PWD", cfg.delivered containerEnv)], client :: args⟩ ∧
      lex (build (execPrefix cfg interactive ++ client :: args)) =
        some ((execPrefix cfg interactive ++ client :: args).map
          (fun a => .word (quotedWord a))) := by
  have hplain : (61 : UInt8) ∉ client ∧ client ≠ "sh" ∧ client ≠ "env" ∧ NulFree client := by
    unfold NulFree
    rcases hclient with rfl | rfl <;> decide
  have hne : execPrefix cfg interactive ++ client :: args ≠ [] := by simp
  have hnul : ∀ a ∈ execPrefix cfg interactive ++ client :: args, NulFree a := by
    rw [List.forall_mem_append, List.forall_mem_cons]
    exact ⟨nulFree_execPrefix cfg interactive hcontainer hpassword, hplain.2.2.2, hargs⟩
  rw [launch_build containerEnv _ hne hnul, start_client containerEnv cfg hdash interactive client
    args hplain.1 hplain.2.1 hplain.2.2.1]
  exact ⟨rfl, lex_build _ hne hnul⟩

/-- The commands execute the intended arguments, in each of the three ways. The
    remote shell reads only quoted words. The inner shell's script expands the
    one variable and the arguments, and then no password was configured. -/
theorem executes_argv (getenv : Bytes → Bytes) (hgetenv : ∀ name, NulFree (getenv name))
    (raw : Option PluginConfig) (cfg : Config) (hcfg : parseConfig getenv raw = .ok cfg)
    (huser : NulFree cfg.username) (hcontainer : NulFree cfg.container)
    (hdash : cfg.container.head? ≠ some 45) (database : Bytes) (hdatabase : NulFree database)
    (containerEnv : Bytes → Bytes → Bytes) :
    launch containerEnv (dumpCommand cfg database) = some ⟨cfg.place,
      [("MYSQL_PWD", cfg.delivered containerEnv)], dumpArgv cfg database⟩ ∧
    launch containerEnv (restoreCommand cfg database) = some ⟨cfg.place,
      [("MYSQL_PWD", cfg.delivered containerEnv)], restoreArgv cfg database⟩ ∧
    lex (dumpCommand cfg database) =
      some ((execPrefix cfg false ++ dumpArgv cfg database).map (fun a => .word (quotedWord a))) ∧
    lex (restoreCommand cfg database) =
      some ((execPrefix cfg true ++ restoreArgv cfg database).map (fun a => .word (quotedWord a))) ∧
    (∀ line, line = dumpCommand cfg database ∨ line = restoreCommand cfg database →
      (lex line).map expansions = some []) ∧
    (cfg.passwordContainerEnv ≠ [] → cfg.password = [] ∧
      (lex (passwordScript cfg.passwordContainerEnv)).map expansions =
        some [cfg.passwordContainerEnv, "@"]) := by
  have hsource := password_of_parseConfig getenv raw cfg hcfg
  have hpassword : NulFree cfg.password := by
    rcases hsource with ⟨_, name, hname⟩ | ⟨_, hempty⟩
    · rw [hname]
      exact hgetenv name
    · rw [hempty]
      exact List.not_mem_nil
  -- No argument holds the byte that no argument can.
  have hwords : ∀ s ∈ (["-u", "--single-transaction", "--routines", "--triggers", "--events",
      "--hex-blob"] : List Bytes), NulFree s := by
    simp only [NulFree]
    decide
  simp only [List.forall_mem_cons] at hwords
  rcases launch_client containerEnv cfg hcontainer hdash hpassword false "mariadb-dump"
      (dumpArgv cfg database).tail (Or.inl rfl)
      (by simp [dumpArgv, huser, hdatabase, hwords]) with ⟨hdump, hdumpLex⟩
  rcases launch_client containerEnv cfg hcontainer hdash hpassword true "mariadb"
      (restoreArgv cfg database).tail (Or.inr rfl)
      (by simp [restoreArgv, huser, hdatabase, hwords]) with ⟨hrestore, hrestoreLex⟩
  refine ⟨hdump, hrestore, hdumpLex, hrestoreLex, ?_, ?_⟩
  · rintro line (rfl | rfl)
    · rw [show lex (dumpCommand cfg database) = _ from hdumpLex, Option.map_some,
        expansions_quoted]
    · rw [show lex (restoreCommand cfg database) = _ from hrestoreLex, Option.map_some,
        expansions_quoted]
  · intro hvar
    rcases hsource with ⟨hnone, _⟩ | ⟨_, hempty⟩
    · exact absurd hnone hvar
    · exact ⟨hempty, expansions_passwordScript _ (cfg.envNamed.resolve_left hvar).2⟩

/-! ### One database -/

/-- A server in a container, whose password is a variable of the container. -/
def shopSettings (container : Bytes) : List (Bytes × Dyn) :=
  [("username", .str "it's me"), ("container", .str container),
    ("password_container_env", .str "MARIADB_ROOT_PASSWORD"), ("databases", Dyn.ofStrings ["shop"])]

/-- The same with a password of the controller. -/
def plainSettings (container : Bytes) : List (Bytes × Dyn) :=
  [("username", .str "root"), ("container", .str container), ("password_env", .str "DB_PASSWORD"),
    ("databases", Dyn.ofStrings ["shop"])]

/-- The dump of a database in such a container. -/
theorem executes_argv_shop :
    ∃ cfg, parseConfig (fun _ => "secret") (some ⟨some (shopSettings "db")⟩) = .ok cfg ∧
      launch (fun _ _ => "pw") (dumpCommand cfg "$(id)") = some ⟨some "db",
        [("MYSQL_PWD", "pw")], dumpArgv cfg "$(id)"⟩ := by
  refine ⟨⟨"it's me", ["shop"], "db", [], "MARIADB_ROOT_PASSWORD", Or.inr (by decide)⟩, rfl, ?_⟩
  exact (executes_argv (fun _ => "secret") (fun _ => by simp only [NulFree]; decide)
    (some ⟨some (shopSettings "db")⟩) _ rfl (by simp only [NulFree]; decide)
    (by simp only [NulFree]; decide) (by decide) "$(id)" (by simp only [NulFree]; decide)
    (fun _ _ => "pw")).1

/-- A container named like an option is taken for one, and the client for the
    container. -/
theorem not_executes_argv :
    ∃ cfg, parseConfig (fun _ => "secret") (some ⟨some (plainSettings "-i")⟩) = .ok cfg ∧
      launch (fun _ _ => []) (dumpCommand cfg "shop") = some ⟨some "mariadb-dump",
        [("MYSQL_PWD", "secret")], (dumpArgv cfg "shop").tail⟩ ∧
      (dumpArgv cfg "shop").tail ≠ dumpArgv cfg "shop" := by
  refine ⟨⟨"root", ["shop"], "-i", "secret", [], Or.inl rfl⟩, rfl, ?_, ?_⟩
  · decide +kernel
  · decide

end Mariadb

end Bop
