import Bop.Plugin.Settings
import Bop.Plugin.Shellcmd
import Bop.Plugin.Sql.Plugin

/-!
# The Postgres Plugin

What the postgres plugin is configured with and the command lines it builds.
Its clients run on the host, or inside a container of the host when one is
configured. `psql` is told to stop at an error when it creates or drops a
database, and is not told so when it reads a dump back.

## Main definitions

* `Config`, `parseConfig`: The parsed configuration.
* `dumpCommand`, `restoreCommand`, `createDatabaseCommand`,
  `dropDatabaseCommand`: The commands.
* `plugin`, `restore`, `backup`: The plugin.
-/

namespace Bop

namespace Postgres

open Shellcmd

/-- The plugin's configuration. -/
structure Config where
  username : Bytes
  password : Bytes
  databases : List Bytes
  container : Bytes
deriving DecidableEq

/-- `ParseConfig`. -/
def parseConfig (getenv : Bytes → Bytes) (cfg : Option PluginConfig) : Except Bytes Config :=
  match cfg.bind (·.config) with
  | none => .error "postgres: no config provided"
  | some raw =>
      let username := settingString raw "username"
      let passwordEnv := settingString raw "password_env"
      let password := getenv passwordEnv
      if username = [] then .error "postgres: config.username is required"
      else if passwordEnv = [] then .error "postgres: config.password_env is required"
      else if password = [] then .error ("postgres: environment variable " ++
        quoteGo passwordEnv ++ " (password_env) is not set")
      else match toStringSlice (setting raw "databases") with
      | .error err => .error ("postgres: config.databases: " ++ err)
      | .ok databases =>
          if databases.getD [] = [] then
            .error "postgres: config.databases must list at least one database"
          else .ok ⟨username, password, databases.getD [], settingString raw "container"⟩

/-- `execPrefix`. -/
def execPrefix (cfg : Config) (interactive : Bool) : List Bytes :=
  if cfg.container = [] then (["env", "PGPASSWORD=" ++ cfg.password] : List Bytes)
  else
    let args : List Bytes := if interactive then ["docker", "exec", "-i"] else ["docker", "exec"]
    args ++ (["-e", "PGPASSWORD=" ++ cfg.password, cfg.container] : List Bytes)

/-- `dumpCommand`. -/
def dumpCommand (cfg : Config) (database : Bytes) : Bytes :=
  build (execPrefix cfg false ++ (["pg_dump", "-U", cfg.username, database] : List Bytes))

/-- `restoreCommand`. -/
def restoreCommand (cfg : Config) (database : Bytes) : Bytes :=
  build (execPrefix cfg true ++ (["psql", "-U", cfg.username, database] : List Bytes))

/-- `escapeIdentifier`. -/
def escapeIdentifier (s : Bytes) : Bytes := replaceByte 34 "\"\"" s

/-- `createDatabaseSQL`. -/
def createDatabaseSQL (database : Bytes) : Bytes :=
  "CREATE DATABASE \"" ++ escapeIdentifier database ++ "\""

/-- `dropDatabaseSQL`. -/
def dropDatabaseSQL (database : Bytes) : Bytes :=
  "DROP DATABASE \"" ++ escapeIdentifier database ++ "\""

/-- `createDatabaseCommand`. -/
def createDatabaseCommand (cfg : Config) (database : Bytes) : Bytes :=
  build (execPrefix cfg false ++ (["psql", "-U", cfg.username, "-d", "postgres", "-v",
    "ON_ERROR_STOP=1", "-c", createDatabaseSQL database] : List Bytes))

/-- `dropDatabaseCommand`. -/
def dropDatabaseCommand (cfg : Config) (database : Bytes) : Bytes :=
  build (execPrefix cfg false ++ (["psql", "-U", cfg.username, "-d", "postgres", "-v",
    "ON_ERROR_STOP=1", "-c", dropDatabaseSQL database] : List Bytes))

/-- The plugin for one configuration. -/
def plugin (cfg : Config) : Sql.SqlPlugin where
  name := "postgres"
  fileLabel := "pg"
  dumpClient := "pg_dump"
  existsMarker := "already exists"
  dumpCommand := dumpCommand cfg
  restoreCommand := restoreCommand cfg
  createDatabaseCommand := createDatabaseCommand cfg
  dropDatabaseCommand := dropDatabaseCommand cfg

/-- `Plugin.Restore`. -/
def restore (cfg : Config) (a : Artifact) : Remote.Proc (Except Bytes Unit) :=
  Sql.restore (plugin cfg) a

/-- `Plugin.Backup`. -/
def backup (cfg : Config) (tempDir : Bytes) (res : Resource) :
    Remote.Proc (Except Bytes Artifact) :=
  Sql.backup (plugin cfg) tempDir res

end Postgres

end Bop
