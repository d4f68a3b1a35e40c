import Bop.Plugin.Settings
import Bop.Plugin.Shellcmd
import Bop.Plugin.Sql.Plugin

/-!
# The MariaDB Plugin

What the mariadb plugin is configured with and the command lines it builds.
The password reaches the clients as `MYSQL_PWD`. Inside a container it can be
the value of a variable of that container, and then a shell in the container
expands it: the name of the variable goes into the text of a script, so it has
to be a plain name, and the configuration carries the proof that it is.

## Main definitions

* `Config`, `parseConfig`: The parsed configuration.
* `dumpCommand`, `restoreCommand`, `createDatabaseCommand`,
  `dropDatabaseCommand`: The commands.
* `plugin`, `restore`, `backup`: The plugin.
-/

namespace Bop

namespace Mariadb

open Shellcmd

/-- `envVarName.MatchString`: `[A-Za-z_][A-Za-z0-9_]*`. -/
def envVarName : Bytes → Bool
  | [] => false
  | b :: rest => Shell.isNameStart b && rest.all Shell.isNameByte

/-- The plugin's configuration. -/
structure Config where
  username : Bytes
  databases : List Bytes
  container : Bytes
  password : Bytes
  passwordContainerEnv : Bytes
  /-- A variable is named only in a container, and by a plain name. -/
  envNamed : passwordContainerEnv = [] ∨
    (container ≠ [] ∧ envVarName passwordContainerEnv = true)

/-- The part of `ParseConfig` after the password is settled. -/
def parseDatabases (raw : List (Bytes × Dyn)) (username container password env : Bytes)
    (h : env = [] ∨ (container ≠ [] ∧ envVarName env = true)) : Except Bytes Config :=
  match toStringSlice (setting raw "databases") with
  | .error err => .error ("mariadb: config.databases: " ++ err)
  | .ok databases =>
      if databases.getD [] = [] then
        .error "mariadb: config.databases must list at least one database"
      else .ok ⟨username, databases.getD [], container, password, env, h⟩

/-- `ParseConfig`. -/
def parseConfig (getenv : Bytes → Bytes) (cfg : Option PluginConfig) : Except Bytes Config :=
  match cfg.bind (·.config) with
  | none => .error "mariadb: no config provided"
  | some raw =>
      let username := settingString raw "username"
      let container := settingString raw "container"
      let passwordEnv := settingString raw "password_env"
      let passwordContainerEnv := settingString raw "password_container_env"
      if username = [] then .error "mariadb: config.username is required"
      else if passwordEnv ≠ [] ∧ passwordContainerEnv ≠ [] then
        .error "mariadb: set only one of config.password_env and config.password_container_env"
      else if passwordEnv ≠ [] then
        let password := getenv passwordEnv
        if password = [] then .error ("mariadb: environment variable " ++
          quoteGo passwordEnv ++ " (password_env) is not set")
        else parseDatabases raw username container password [] (Or.inl rfl)
      -- The controller never sees this password. The container's shell looks it up.
      else if passwordContainerEnv ≠ [] then
        if hcontainer : container = [] then
          .error "mariadb: config.password_container_env requires config.container"
        else if henv : envVarName passwordContainerEnv = true then
          parseDatabases raw username container [] passwordContainerEnv
            (Or.inr ⟨hcontainer, henv⟩)
        else .error ("mariadb: config.password_container_env " ++
          quoteGo passwordContainerEnv ++ " is not a valid environment variable name")
      else .error ("mariadb: one of config.password_env or config.password_container_env " ++
        "is required")

/-- The script that puts the password of a container's variable in place. -/
def passwordScript (env : Bytes) : Bytes := "MYSQL_PWD=\"$" ++ env ++ "\" exec \"$@\""

/-- `execPrefix`. -/
def execPrefix (cfg : Config) (interactive : Bool) : List Bytes :=
  if cfg.container = [] then (["env", "MYSQL_PWD=" ++ cfg.password] : List Bytes)
  else
    let args : List Bytes := if interactive then ["docker", "exec", "-i"] else ["docker", "exec"]
    if cfg.passwordContainerEnv ≠ [] then
      args ++
        ([cfg.container, "sh", "-c", passwordScript cfg.passwordContainerEnv, "sh"] : List Bytes)
    else args ++ (["-e", "MYSQL_PWD=" ++ cfg.password, cfg.container] : List Bytes)

/-- `dumpCommand`. -/
def dumpCommand (cfg : Config) (database : Bytes) : Bytes :=
  build (execPrefix cfg false ++ (["mariadb-dump", "-u", cfg.username, "--single-transaction",
    "--routines", "--triggers", "--events", "--hex-blob", database] : List Bytes))

/-- `restoreCommand`. -/
def restoreCommand (cfg : Config) (database : Bytes) : Bytes :=
  build (execPrefix cfg true ++ (["mariadb", "-u", cfg.username, database] : List Bytes))

/-- `quoteIdentifier`. -/
def quoteIdentifier (s : Bytes) : Bytes := [96] ++ replaceByte 96 [96, 96] s ++ [96]

/-- `createDatabaseSQL`. -/
def createDatabaseSQL (database : Bytes) : Bytes :=
  "CREATE DATABASE " ++ quoteIdentifier database

/-- `dropDatabaseSQL`. -/
def dropDatabaseSQL (database : Bytes) : Bytes := "DROP DATABASE " ++ quoteIdentifier database

/-- `createDatabaseCommand`. -/
def createDatabaseCommand (cfg : Config) (database : Bytes) : Bytes :=
  build (execPrefix cfg false ++
    (["mariadb", "-u", cfg.username, "-e", createDatabaseSQL database] : List Bytes))

/-- `dropDatabaseCommand`. -/
def dropDatabaseCommand (cfg : Config) (database : Bytes) : Bytes :=
  build (execPrefix cfg false ++
    (["mariadb", "-u", cfg.username, "-e", dropDatabaseSQL database] : List Bytes))

/-- The plugin for one configuration. -/
def plugin (cfg : Config) : Sql.SqlPlugin where
  name := "mariadb"
  fileLabel := "mariadb"
  dumpClient := "mariadb-dump"
  existsMarker := "database exists"
  dumpCommand := dumpCommand cfg
  restoreCommand := restoreCommand cfg
  createDatabaseCommand := createDatabaseCommand cfg
  dropDatabaseCommand := dropDatabaseCommand cfg

/-- `Plugin.Restore`. -/
def restore (cfg : Config) (a : Artifact) : Remote.Proc (Except Bytes Unit) :=
  Sql.restore (plugin cfg) a

/-- `Plugin.Backup`. -/
def backup (cfg : Config) (tempDir : Bytes) (res : Resource) :
    Remote.Proc (Except Bytes Artifact) :=
  Sql.backup (plugin cfg) tempDir res

end Mariadb

end Bop
