import Bop.Api.Handlers
import Bop.Json.Float
import Bop.Plugin.Filesystem.Config
import Bop.Plugin.Informix.Settings
import Bop.Plugin.Postgres

/-!
# Plugin Configuration on the Wire

Three plugins can be configured over the API. On the wire a configuration is a
struct with names of its own, and what is stored is the map that the plugin's
`ParseConfig` reads, with the names of the inventory. Each plugin translates
both ways, and validates by parsing its own translation.

## Main definitions

* `InformixConfigDTO`, `PostgresConfigDTO`, `FilesystemConfigDTO`: The wire
  formats, with their translations.
* `PluginConfigDTO`, `pluginConfigDTOs`: All of them.
* `ParsedPluginConfig`, `parsePluginConfig`: What the plugins parse.
-/

namespace Bop

namespace Api

open Json (isField decodeString decodeSlice decodeInt GoSlice)

/-- The settings of a plugin, as far as they are there. -/
def rawSetting (raw : Option (List (Bytes × Dyn))) (key : Bytes) : Dyn := setting (raw.getD []) key

/-- `stringSliceFromRaw`. -/
def stringSliceFromRaw : Dyn → Option (GoSlice Bytes)
  | .list raw => some ⟨raw.map Dyn.asString, []⟩
  | _ => none

/-- The copy of a slice that a map of settings holds. It is never nil. -/
def rawStrings (xs : Option (GoSlice Bytes)) : Dyn := Dyn.ofStrings (GoSlice.toList xs)

/-- A `[]string`. -/
def decodeStrings : Json → Option (GoSlice Bytes) → Option (Option (GoSlice Bytes)) :=
  decodeSlice decodeString []

/-! ### Informix -/

/-- `informixConfigDTO`. -/
structure InformixConfigDTO where
  host : Bytes
  port : Int
  username : Bytes
  passwordEnv : Bytes
  serverName : Bytes
  database : Bytes
  tables : Option (GoSlice Bytes)
  agentPath : Bytes

namespace InformixConfigDTO

/-- The zero value. -/
def zero : InformixConfigDTO := ⟨[], 0, [], [], [], [], none, []⟩

/-- The names of the fields on the wire. -/
def fields : List Bytes :=
  ["host", "port", "username", "passwordEnv", "serverName", "database", "tables", "agentPath"]

/-- Decoding one member. -/
def member (key : Bytes) (v : Json) (dto : InformixConfigDTO) : Option InformixConfigDTO :=
  if isField "host" key then (decodeString v dto.host).map ({ dto with host := · })
  else if isField "port" key then
    (decodeInt (-(2 ^ 63)) (2 ^ 63 - 1) v dto.port).map ({ dto with port := · })
  else if isField "username" key then
    (decodeString v dto.username).map ({ dto with username := · })
  else if isField "passwordEnv" key then
    (decodeString v dto.passwordEnv).map ({ dto with passwordEnv := · })
  else if isField "serverName" key then
    (decodeString v dto.serverName).map ({ dto with serverName := · })
  else if isField "database" key then
    (decodeString v dto.database).map ({ dto with database := · })
  else if isField "tables" key then (decodeStrings v dto.tables).map ({ dto with tables := · })
  else if isField "agentPath" key then
    (decodeString v dto.agentPath).map ({ dto with agentPath := · })
  else some dto

/-- `toRawConfig`. -/
def toRawConfig (dto : InformixConfigDTO) : List (Bytes × Dyn) :=
  [("host", .str dto.host), ("port", .int dto.port), ("username", .str dto.username),
    ("password_env", .str dto.passwordEnv), ("server_name", .str dto.serverName),
    ("database", .str dto.database), ("tables", rawStrings dto.tables),
    ("agent_path", .str dto.agentPath)]

/-- `fromRawConfig`. -/
def fromRawConfig (raw : Option (List (Bytes × Dyn))) : InformixConfigDTO where
  host := (rawSetting raw "host").asString
  port := match rawSetting raw "port" with
    | .float n => n.toInt64
    | _ => 0
  username := (rawSetting raw "username").asString
  passwordEnv := (rawSetting raw "password_env").asString
  serverName := (rawSetting raw "server_name").asString
  database := (rawSetting raw "database").asString
  tables := stringSliceFromRaw (rawSetting raw "tables")
  agentPath := (rawSetting raw "agent_path").asString

end InformixConfigDTO

/-! ### Postgres -/

/-- `postgresConfigDTO`. -/
structure PostgresConfigDTO where
  username : Bytes
  passwordEnv : Bytes
  databases : Option (GoSlice Bytes)
  container : Bytes

namespace PostgresConfigDTO

/-- The zero value. -/
def zero : PostgresConfigDTO := ⟨[], [], none, []⟩

/-- The names of the fields on the wire. -/
def fields : List Bytes := ["username", "passwordEnv", "databases", "container"]

/-- Decoding one member. -/
def member (key : Bytes) (v : Json) (dto : PostgresConfigDTO) : Option PostgresConfigDTO :=
  if isField "username" key then (decodeString v dto.username).map ({ dto with username := · })
  else if isField "passwordEnv" key then
    (decodeString v dto.passwordEnv).map ({ dto with passwordEnv := · })
  else if isField "databases" key then
    (decodeStrings v dto.databases).map ({ dto with databases := · })
  else if isField "container" key then
    (decodeString v dto.container).map ({ dto with container := · })
  else some dto

/-- `toRawConfig`. -/
def toRawConfig (dto : PostgresConfigDTO) : List (Bytes × Dyn) :=
  [("username", .str dto.username), ("password_env", .str dto.passwordEnv),
    ("databases", rawStrings dto.databases), ("container", .str dto.container)]

/-- `fromRawConfig`. -/
def fromRawConfig (raw : Option (List (Bytes × Dyn))) : PostgresConfigDTO where
  username := (rawSetting raw "username").asString
  passwordEnv := (rawSetting raw "password_env").asString
  databases := stringSliceFromRaw (rawSetting raw "databases")
  container := (rawSetting raw "container").asString

end PostgresConfigDTO

/-! ### Filesystem -/

/-- `filesystemConfigDTO`. -/
structure FilesystemConfigDTO where
  paths : Option (GoSlice Bytes)
  excludes : Option (GoSlice Bytes)

namespace FilesystemConfigDTO

/-- The zero value. -/
def zero : FilesystemConfigDTO := ⟨none, none⟩

/-- The names of the fields on the wire. -/
def fields : List Bytes := ["paths", "excludes"]

/-- Decoding one member. -/
def member (key : Bytes) (v : Json) (dto : FilesystemConfigDTO) : Option FilesystemConfigDTO :=
  if isField "paths" key then (decodeStrings v dto.paths).map ({ dto with paths := · })
  else if isField "excludes" key then
    (decodeStrings v dto.excludes).map ({ dto with excludes := · })
  else some dto

/-- `toRawConfig`. -/
def toRawConfig (dto : FilesystemConfigDTO) : List (Bytes × Dyn) :=
  [("paths", rawStrings dto.paths), ("excludes", rawStrings dto.excludes)]

/-- `fromRawConfig`. -/
def fromRawConfig (raw : Option (List (Bytes × Dyn))) : FilesystemConfigDTO where
  paths := stringSliceFromRaw (rawSetting raw "paths")
  excludes := stringSliceFromRaw (rawSetting raw "excludes")

end FilesystemConfigDTO

/-! ### All of them -/

/-- `json.Unmarshal` into a struct. -/
def unmarshalStruct {T : Type} (member : Bytes → Json → T → Option T) (zero : T) (body : Bytes) :
    Option T := do
  let v ← Json.parse body
  Json.decodeObject member v zero

/-- `pluginConfigDTO`: the configuration of one of the plugins. -/
inductive PluginConfigDTO
  | informix (dto : InformixConfigDTO)
  | postgres (dto : PostgresConfigDTO)
  | filesystem (dto : FilesystemConfigDTO)

/-- What one of the plugins parses. -/
inductive ParsedPluginConfig
  | informix (cfg : Informix.ParsedConfig)
  | postgres (cfg : Postgres.Config)
  | filesystem (cfg : Filesystem.Config)

/-- The map a plugin's `ParseConfig` reads. -/
def PluginConfigDTO.toRawConfig : PluginConfigDTO → List (Bytes × Dyn)
  | .informix dto => dto.toRawConfig
  | .postgres dto => dto.toRawConfig
  | .filesystem dto => dto.toRawConfig

/-- `ParseConfig` of the plugin. -/
def PluginConfigDTO.parseConfig (getenv : Bytes → Bytes) (dto : PluginConfigDTO)
    (cfg : Option PluginConfig) : Except Bytes ParsedPluginConfig :=
  match dto with
  | .informix _ => (Informix.parseConfig getenv cfg).map .informix
  | .postgres _ => (Postgres.parseConfig getenv cfg).map .postgres
  | .filesystem _ => (Filesystem.parseConfig cfg).map .filesystem

/-- `validate`. -/
def PluginConfigDTO.validate (getenv : Bytes → Bytes) (dto : PluginConfigDTO) :
    Except Bytes Unit :=
  (dto.parseConfig getenv (some ⟨some dto.toRawConfig⟩)).map fun _ => ()

/-- `pluginConfigDTOs`. -/
def pluginConfigDTOs (getenv : Bytes → Bytes) (plugin : Bytes) :
    Option (ConfigDTO PluginConfigDTO) :=
  if plugin = "informix" then some
    { decode := fun body =>
        (unmarshalStruct InformixConfigDTO.member .zero body).map .informix
      toRawConfig := PluginConfigDTO.toRawConfig
      fromRawConfig := fun raw => .informix (.fromRawConfig raw)
      validate := PluginConfigDTO.validate getenv }
  else if plugin = "postgres" then some
    { decode := fun body =>
        (unmarshalStruct PostgresConfigDTO.member .zero body).map .postgres
      toRawConfig := PluginConfigDTO.toRawConfig
      fromRawConfig := fun raw => .postgres (.fromRawConfig raw)
      validate := PluginConfigDTO.validate getenv }
  else if plugin = "filesystem" then some
    { decode := fun body =>
        (unmarshalStruct FilesystemConfigDTO.member .zero body).map .filesystem
      toRawConfig := PluginConfigDTO.toRawConfig
      fromRawConfig := fun raw => .filesystem (.fromRawConfig raw)
      validate := PluginConfigDTO.validate getenv }
  else none

/-- `ParseConfig` of the plugin with this name. -/
def parsePluginConfig (getenv : Bytes → Bytes) (plugin : Bytes) (cfg : Option PluginConfig) :
    Option (Except Bytes ParsedPluginConfig) :=
  if plugin = "informix" then some ((Informix.parseConfig getenv cfg).map .informix)
  else if plugin = "postgres" then some ((Postgres.parseConfig getenv cfg).map .postgres)
  else if plugin = "filesystem" then some ((Filesystem.parseConfig cfg).map .filesystem)
  else none

end Api

end Bop
