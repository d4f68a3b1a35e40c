import Bop.Json.Float
import Bop.Plugin.Informix.Config
import Bop.Plugin.Settings

/-!
# Informix Settings

How the informix plugin reads its settings. The same function reads the
inventory, where a number is an integer, and what was stored as JSON, where it
is a float. Everything is required, and a table's name is checked here, since
it is put into statements unquoted.

## Main definitions

* `ParsedConfig`: The whole parsed configuration.
* `toInt`: A port.
* `parseConfig`: Reading the settings.
* `Accepted`: What the settings must be.

## Theorems

* `parseConfig_ok_iff`: A configuration is read from settings that are accepted.
-/

namespace Bop

namespace Informix

/-- `Config`, with the fields that are not used to reach the server. -/
structure ParsedConfig extends Config where
  passwordEnv : Bytes
  tables : List Bytes

/-- `toInt`. -/
def toInt : Dyn → Except Bytes Int
  | .nil => .ok 0
  | .int n => .ok n
  | .float n => .ok n.toInt64
  | .str s => match atoi s with
    | some n => .ok n
    | none => .error ("expected a number, got " ++ quoteGo s)
  | v => .error ("expected a number, got " ++ v.typeName)

/-- `ParseConfig`. -/
def parseConfig (getenv : Bytes → Bytes) (cfg : Option PluginConfig) :
    Except Bytes ParsedConfig :=
  match cfg.bind (·.config) with
  | none => .error "informix: no config provided"
  | some raw =>
      let host := settingString raw "host"
      let username := settingString raw "username"
      let passwordEnv := settingString raw "password_env"
      let password := getenv passwordEnv
      let serverName := settingString raw "server_name"
      let database := settingString raw "database"
      let agentPath := settingString raw "agent_path"
      if host = [] then .error "informix: config.host is required"
      else match toInt (setting raw "port") with
      | .error err => .error ("informix: config.port: " ++ err)
      | .ok port =>
          if port = 0 then .error "informix: config.port is required"
          else if username = [] then .error "informix: config.username is required"
          else if passwordEnv = [] then .error "informix: config.password_env is required"
          -- A variable that is set to nothing counts as not set.
          else if password = [] then .error ("informix: environment variable " ++
            quoteGo passwordEnv ++ " (password_env) is not set")
          else if serverName = [] then .error "informix: config.server_name is required"
          else if database = [] then .error "informix: config.database is required"
          else match toStringSlice (setting raw "tables") with
          | .error err => .error ("informix: config.tables: " ++ err)
          | .ok tables =>
              if tables.getD [] = [] then
                .error "informix: config.tables must list at least one table"
              else match (tables.getD []).find? (fun t => !validTableName t) with
              | some t => .error ("informix: config.tables: " ++ quoteGo t ++
                  " is not a plain [owner.]table identifier")
              | none =>
                  if agentPath = [] then .error "informix: config.agent_path is required"
                  else .ok ⟨⟨host, port, username, password, serverName, database, agentPath⟩,
                    passwordEnv, tables.getD []⟩

/-- What the settings of a server must be, with the port and the tables that are
    read from them. -/
structure Accepted (getenv : Bytes → Bytes) (raw : List (Bytes × Dyn)) (port : Int)
    (tables : Option (List Bytes)) : Prop where
  host : settingString raw "host" ≠ []
  portRead : toInt (setting raw "port") = .ok port
  portNonzero : port ≠ 0
  username : settingString raw "username" ≠ []
  passwordEnv : settingString raw "password_env" ≠ []
  password : getenv (settingString raw "password_env") ≠ []
  serverName : settingString raw "server_name" ≠ []
  database : settingString raw "database" ≠ []
  tablesRead : toStringSlice (setting raw "tables") = .ok tables
  tablesListed : tables.getD [] ≠ []
  tablesValid : (tables.getD []).find? (fun t => !validTableName t) = none
  agentPath : settingString raw "agent_path" ≠ []

/-- The configuration in settings that are accepted. -/
def ParsedConfig.ofSettings (getenv : Bytes → Bytes) (raw : List (Bytes × Dyn)) (port : Int)
    (tables : Option (List Bytes)) : ParsedConfig :=
  ⟨⟨settingString raw "host", port, settingString raw "username",
    getenv (settingString raw "password_env"), settingString raw "server_name",
    settingString raw "database", settingString raw "agent_path"⟩,
    settingString raw "password_env", tables.getD []⟩

/-- A configuration is read from settings that are accepted, and from no others. -/
theorem parseConfig_ok_iff (getenv : Bytes → Bytes) (raw : List (Bytes × Dyn))
    (parsed : ParsedConfig) :
    parseConfig getenv (some ⟨some raw⟩) = .ok parsed ↔
      ∃ port tables, Accepted getenv raw port tables ∧
        parsed = ParsedConfig.ofSettings getenv raw port tables := by
  constructor
  · intro h
    rcases of_guard_ok h with ⟨hhost, h⟩
    split at h
    · cases h
    · next port hport =>
      rcases of_guard_ok h with ⟨hne, h⟩
      rcases of_guard_ok h with ⟨husername, h⟩
      rcases of_guard_ok h with ⟨hpasswordEnv, h⟩
      rcases of_guard_ok h with ⟨hpassword, h⟩
      rcases of_guard_ok h with ⟨hserverName, h⟩
      rcases of_guard_ok h with ⟨hdatabase, h⟩
      split at h
      · cases h
      · next tables htables =>
        rcases of_guard_ok h with ⟨hlisted, h⟩
        split at h
        · cases h
        · next hvalid =>
          rcases of_guard_ok h with ⟨hagentPath, h⟩
          cases h
          exact ⟨port, tables, ⟨hhost, hport, hne, husername, hpasswordEnv, hpassword, hserverName,
            hdatabase, htables, hlisted, hvalid, hagentPath⟩, rfl⟩
  · rintro ⟨port, tables, h, rfl⟩
    simp only [parseConfig, Option.bind_some, h.host, h.portRead, h.portNonzero, h.username,
      h.passwordEnv, h.password, h.serverName, h.database, h.tablesRead, h.tablesListed,
      h.tablesValid, h.agentPath, if_false]
    rfl

end Informix

end Bop
