import Bop.Api.PluginConfig
import Bop.Api.RawConfig
import Bop.Daemon

/-!
# A Stored Configuration

A configuration that is set over the API is parsed twice: once when the request
validates it, and again when the next job resolves it from the store. The two
agree. What the decoder makes of a body has no stray byte and no number beyond
a machine's, so the stored map comes back with every value reread, and no
plugin's `ParseConfig` can tell, but for the port: it went through a float.

## Main definitions

* `InformixConfigDTO.Decoded`, `PostgresConfigDTO.Decoded`,
  `FilesystemConfigDTO.Decoded`: What the decoder makes of a body.
* `Known`: The members a plugin's struct reads.
* `ParsedPluginConfig.withoutPort`: What must agree.

## Theorems

* `decodeObject_keeps`: A struct is decoded member by member.
* `unmarshalStruct_known`: The other members do not matter.
* `parseConfig_reread`: No plugin can tell a reread map, but for the port.
* `setPluginConfig_runs`: A request is refused or makes one statement.
* `stored_config`: What is stored means what was validated.
-/

namespace Bop

open Prog

/-! ### Parsing a map that was reread -/

theorem asString_reread (v : Dyn) : v.reread.asString = v.asString := by
  cases v <;> rfl

theorem toStringSlice_reread (v : Dyn) (xs : Option (List Bytes)) (h : toStringSlice v = .ok xs) :
    toStringSlice v.reread = .ok xs := by
  cases v with
  | int i => cases h
  | _ => exact h

/-- A port that is not zero is still there when it was a float. -/
theorem Informix.toInt_reread (v : Dyn) (n : Int) (h : toInt v = .ok n) (hn : n ≠ 0) :
    ∃ n', toInt v.reread = .ok n' ∧ n' ≠ 0 := by
  cases v with
  | int i =>
      cases h
      exact ⟨_, rfl, Json.toInt64_ofInt_ne_zero n hn⟩
  | _ => exact ⟨n, h, hn⟩

section Reread

variable (raw raw' : List (Bytes × Dyn)) (h : ∀ key, setting raw' key = (setting raw key).reread)
include h

theorem settingString_reread (key : Bytes) : settingString raw' key = settingString raw key := by
  rw [settingString, h, asString_reread]
  rfl

/-- The informix plugin parses the same, but for the port. -/
theorem Informix.parseConfig_reread (getenv : Bytes → Bytes) (cfg : ParsedConfig)
    (hcfg : parseConfig getenv (some ⟨some raw⟩) = .ok cfg) :
    ∃ port, parseConfig getenv (some ⟨some raw'⟩) = .ok { cfg with port := port } := by
  rcases (parseConfig_ok_iff getenv raw cfg).mp hcfg with ⟨port, tables, haccepted, rfl⟩
  -- The port may come back as another number, but never as none.
  rcases toInt_reread _ port haccepted.portRead haccepted.portNonzero with ⟨port', hport', hne⟩
  have hstring := settingString_reread raw raw' h
  have htables : toStringSlice (setting raw' "tables") = .ok tables := by
    rw [h]
    exact toStringSlice_reread _ tables haccepted.tablesRead
  have haccepted' : Accepted getenv raw' port' tables :=
    { haccepted with
      host := by rw [hstring]; exact haccepted.host
      portRead := by rw [h]; exact hport'
      portNonzero := hne
      username := by rw [hstring]; exact haccepted.username
      passwordEnv := by rw [hstring]; exact haccepted.passwordEnv
      password := by rw [hstring]; exact haccepted.password
      serverName := by rw [hstring]; exact haccepted.serverName
      database := by rw [hstring]; exact haccepted.database
      tablesRead := htables
      agentPath := by rw [hstring]; exact haccepted.agentPath }
  refine ⟨port', (parseConfig_ok_iff getenv raw' _).mpr ⟨port', tables, haccepted', ?_⟩⟩
  simp only [ParsedConfig.ofSettings, hstring]

/-- The postgres plugin parses the same. -/
theorem Postgres.parseConfig_reread (getenv : Bytes → Bytes) (cfg : Config)
    (hcfg : parseConfig getenv (some ⟨some raw⟩) = .ok cfg) :
    parseConfig getenv (some ⟨some raw'⟩) = .ok cfg := by
  have hstring := settingString_reread raw raw' h
  rcases of_guard_ok hcfg with ⟨huser, hcfg⟩
  rcases of_guard_ok hcfg with ⟨hpwenv, hcfg⟩
  rcases of_guard_ok hcfg with ⟨hpw, hcfg⟩
  split at hcfg
  · cases hcfg
  · next databases hdbs =>
    simp only [parseConfig, Option.bind_some, hstring, huser, hpwenv, hpw, if_false, h "databases",
      toStringSlice_reread _ databases hdbs]
    exact hcfg

/-- The filesystem plugin parses the same. -/
theorem Filesystem.parseConfig_reread (cfg : Config)
    (hcfg : parseConfig (some ⟨some raw⟩) = .ok cfg) :
    parseConfig (some ⟨some raw'⟩) = .ok cfg := by
  unfold parseConfig at hcfg ⊢
  simp only [Option.bind_some] at hcfg ⊢
  split at hcfg
  · cases hcfg
  · next paths hpaths =>
    split at hcfg
    · cases hcfg
    · next hne =>
      split at hcfg
      · cases hcfg
      · next habs =>
        split at hcfg
        · cases hcfg
        · next excludes hexcludes =>
          cases hcfg
          -- Both lists come back as they were, so every test goes the same way.
          rw [h "paths", h "excludes", toStringSlice_reread _ paths hpaths,
            toStringSlice_reread _ excludes hexcludes]
          simp only [hne, dif_neg, not_false_eq_true]
          split
          · next p hp =>
              rw [habs] at hp
              cases hp
          · rfl

end Reread

namespace Api

open Json (decodeString decodeInt decodeSlice decodeElements GoSlice isField)

/-! ### What the decoder makes of a body -/

/-- A string that JSON keeps. -/
abbrev Clean (s : Bytes) : Prop := Utf8.sanitize s = s

/-- A struct is decoded member by member, so it has what every member keeps. -/
theorem decodeObject_keeps {T : Type} (P : T → Prop) (member : Bytes → Json → T → Option T)
    (hmember : ∀ key v t t', Json.Sane v → P t → member key v t = some t' → P t')
    (v : Json) (hv : Json.Sane v) (t t' : T) (ht : P t)
    (h : Json.decodeObject member v t = some t') : P t' := by
  cases v with
  | null =>
      cases h
      exact ht
  | obj ms =>
      rw [Json.sane_obj, Json.sane_members] at hv
      rw [Json.decodeObject] at h
      -- Along the members, from whatever was decoded before them.
      induction ms generalizing t with
      | nil =>
          cases h
          exact ht
      | cons m ms ih =>
          rcases List.forall_mem_cons.mp hv with ⟨hm, hms⟩
          rw [List.foldlM_cons, Option.bind_eq_bind, Option.bind_eq_some_iff] at h
          rcases h with ⟨u, hu, hrest⟩
          exact ih u (hmember m.1 m.2 t u hm.2 ht hu) hms hrest
  | bool b => cases h
  | num n => cases h
  | str s => cases h
  | arr xs => cases h

/-- A body holds only what the scanner keeps. -/
theorem unmarshalStruct_keeps {T : Type} (P : T → Prop) (member : Bytes → Json → T → Option T)
    (hmember : ∀ key v t t', Json.Sane v → P t → member key v t = some t' → P t')
    (zero : T) (hzero : P zero) (body : Bytes) (t : T)
    (h : unmarshalStruct member zero body = some t) : P t := by
  rw [unmarshalStruct, Option.bind_eq_bind, Option.bind_eq_some_iff] at h
  rcases h with ⟨v, hv, ht⟩
  exact decodeObject_keeps P member hmember v (Json.sane_parse body v hv) zero t hzero ht

theorem decodeString_clean (v : Json) (hv : Json.Sane v) (old s : Bytes) (hold : Clean old)
    (h : decodeString v old = some s) : Clean s := by
  cases v with
  | null =>
      cases h
      exact hold
  | str s' =>
      cases h
      exact (Json.sane_str s).mp hv
  | _ => cases h

/-- A number fits a machine. -/
theorem decodeInt_bound (v : Json) (old i : Int) (hold : old.natAbs ≤ 2 ^ 63)
    (h : decodeInt (-(2 ^ 63)) (2 ^ 63 - 1) v old = some i) : i.natAbs ≤ 2 ^ 63 := by
  cases v with
  | null =>
      cases h
      exact hold
  | num n =>
      simp only [decodeInt] at h
      split at h
      · split_ifs at h with hrange
        cases h
        omega
      · cases h
  | _ => cases h

/-- The elements of an array are new, and what is left of the memory is old. -/
theorem decodeElements_keeps {α : Type} (P : α → Prop) (dec : Json → α → Option α) (zero : α)
    (hzero : P zero) (hdec : ∀ v old a, Json.Sane v → P old → dec v old = some a → P a)
    (xs : List Json) (hxs : ∀ x ∈ xs, Json.Sane x) (memory : List α) (hmem : ∀ a ∈ memory, P a)
    (as stale : List α) (h : decodeElements dec zero xs memory = some (as, stale)) :
    ∀ a ∈ as ++ stale, P a := by
  induction xs generalizing memory as with
  | nil =>
      cases h
      exact hmem
  | cons x xs ih =>
      rcases List.forall_mem_cons.mp hxs with ⟨hx, hxs⟩
      simp only [decodeElements, Option.bind_eq_bind, Option.bind_eq_some_iff] at h
      rcases h with ⟨a, ha, ⟨bs, stale'⟩, hrest, heq⟩
      cases heq
      have hhead : P (memory.headD zero) := by
        cases memory with
        | nil => exact hzero
        | cons b memory => exact hmem b List.mem_cons_self
      have htail : ∀ b ∈ memory.tail, P b := fun b hb => hmem b (List.mem_of_mem_tail hb)
      rw [List.cons_append, List.forall_mem_cons]
      exact ⟨hdec x _ a hx hhead ha, ih hxs memory.tail htail bs hrest⟩

/-- No string of a slice has a stray byte, wherever in its memory it is. -/
def CleanSlice (xs : Option (GoSlice Bytes)) : Prop := ∀ s ∈ GoSlice.memory xs, Clean s

theorem decodeStrings_clean (v : Json) (hv : Json.Sane v) (old new : Option (GoSlice Bytes))
    (hold : CleanSlice old) (h : decodeStrings v old = some new) : CleanSlice new := by
  unfold decodeStrings at h
  cases v with
  | null =>
      cases h
      exact fun s hs => absurd hs List.not_mem_nil
  | arr xs =>
      cases xs with
      | nil =>
          cases h
          exact fun s hs => absurd hs List.not_mem_nil
      | cons x xs =>
          simp only [decodeSlice, Option.bind_eq_bind, Option.bind_eq_some_iff] at h
          rcases h with ⟨⟨elems, stale⟩, helems, heq⟩
          cases heq
          rw [Json.sane_arr, Json.sane_elements] at hv
          exact decodeElements_keeps Clean decodeString [] rfl
            (fun v old a hv hold ha => decodeString_clean v hv old a hold ha)
            (x :: xs) hv _ hold elems stale helems
  | _ => cases h

/-- The copy of a slice is a setting. -/
theorem storable_rawStrings (xs : Option (GoSlice Bytes)) (h : CleanSlice xs) :
    (rawStrings xs).Storable := by
  refine Dyn.Storable.strings _ (fun s hs => h s ?_)
  cases xs with
  | none => exact absurd hs List.not_mem_nil
  | some xs => exact List.mem_append_left _ hs

/-- What the decoder makes of an informix body. -/
structure InformixConfigDTO.Decoded (dto : InformixConfigDTO) : Prop where
  host : Clean dto.host
  port : dto.port.natAbs ≤ 2 ^ 63
  username : Clean dto.username
  passwordEnv : Clean dto.passwordEnv
  serverName : Clean dto.serverName
  database : Clean dto.database
  tables : CleanSlice dto.tables
  agentPath : Clean dto.agentPath

/-- What the decoder makes of a postgres body. -/
structure PostgresConfigDTO.Decoded (dto : PostgresConfigDTO) : Prop where
  username : Clean dto.username
  passwordEnv : Clean dto.passwordEnv
  databases : CleanSlice dto.databases
  container : Clean dto.container

/-- What the decoder makes of a filesystem body. -/
structure FilesystemConfigDTO.Decoded (dto : FilesystemConfigDTO) : Prop where
  paths : CleanSlice dto.paths
  excludes : CleanSlice dto.excludes

/-- A chain of members: one that is named is decoded into its field, and the rest
    is tried otherwise. -/
theorem of_member {α β : Type} (P : β → Prop) (c : Prop) [Decidable c] (x : Option α)
    (field : α → β) (rest : Option β) (b : β) (h : (if c then x.map field else rest) = some b)
    (hfield : ∀ a, x = some a → P (field a)) (hrest : rest = some b → P b) : P b := by
  split at h
  · rcases Option.map_eq_some_iff.mp h with ⟨a, ha, rfl⟩
    exact hfield a ha
  · exact hrest h

section Members

variable (key : Bytes) (v : Json) (hv : Json.Sane v)
include hv

theorem InformixConfigDTO.decoded_member (dto dto' : InformixConfigDTO) (hd : dto.Decoded)
    (h : member key v dto = some dto') : dto'.Decoded := by
  refine of_member _ _ _ _ _ _ h
    (fun s hs => { hd with host := decodeString_clean v hv _ s hd.host hs }) fun h => ?_
  refine of_member _ _ _ _ _ _ h
    (fun i hi => { hd with port := decodeInt_bound v _ i hd.port hi }) fun h => ?_
  refine of_member _ _ _ _ _ _ h
    (fun s hs => { hd with username := decodeString_clean v hv _ s hd.username hs }) fun h => ?_
  refine of_member _ _ _ _ _ _ h
    (fun s hs => { hd with passwordEnv := decodeString_clean v hv _ s hd.passwordEnv hs })
    fun h => ?_
  refine of_member _ _ _ _ _ _ h
    (fun s hs => { hd with serverName := decodeString_clean v hv _ s hd.serverName hs })
    fun h => ?_
  refine of_member _ _ _ _ _ _ h
    (fun s hs => { hd with database := decodeString_clean v hv _ s hd.database hs }) fun h => ?_
  refine of_member _ _ _ _ _ _ h
    (fun xs hxs => { hd with tables := decodeStrings_clean v hv _ xs hd.tables hxs }) fun h => ?_
  refine of_member _ _ _ _ _ _ h
    (fun s hs => { hd with agentPath := decodeString_clean v hv _ s hd.agentPath hs }) fun h => ?_
  cases h
  exact hd

theorem PostgresConfigDTO.decoded_member (dto dto' : PostgresConfigDTO) (hd : dto.Decoded)
    (h : member key v dto = some dto') : dto'.Decoded := by
  refine of_member _ _ _ _ _ _ h
    (fun s hs => { hd with username := decodeString_clean v hv _ s hd.username hs }) fun h => ?_
  refine of_member _ _ _ _ _ _ h
    (fun s hs => { hd with passwordEnv := decodeString_clean v hv _ s hd.passwordEnv hs })
    fun h => ?_
  refine of_member _ _ _ _ _ _ h
    (fun xs hxs => { hd with databases := decodeStrings_clean v hv _ xs hd.databases hxs })
    fun h => ?_
  refine of_member _ _ _ _ _ _ h
    (fun s hs => { hd with container := decodeString_clean v hv _ s hd.container hs }) fun h => ?_
  cases h
  exact hd

theorem FilesystemConfigDTO.decoded_member (dto dto' : FilesystemConfigDTO) (hd : dto.Decoded)
    (h : member key v dto = some dto') : dto'.Decoded := by
  refine of_member _ _ _ _ _ _ h
    (fun xs hxs => { hd with paths := decodeStrings_clean v hv _ xs hd.paths hxs }) fun h => ?_
  refine of_member _ _ _ _ _ _ h
    (fun xs hxs => { hd with excludes := decodeStrings_clean v hv _ xs hd.excludes hxs })
    fun h => ?_
  cases h
  exact hd

end Members

/-! ### The members a struct does not have -/

/-- The names of the fields of a plugin's struct. -/
def configFields (plugin : Bytes) : List Bytes :=
  if plugin = "informix" then InformixConfigDTO.fields
  else if plugin = "postgres" then PostgresConfigDTO.fields
  else if plugin = "filesystem" then FilesystemConfigDTO.fields
  else []

/-- A member that is one of them. -/
def Known (fields : List Bytes) (m : Bytes × Json) : Bool :=
  fields.any (fun name => isField name m.1)

theorem InformixConfigDTO.member_unknown (m : Bytes × Json) (h : Known fields m = false)
    (dto : InformixConfigDTO) : member m.1 m.2 dto = some dto := by
  simp only [Known, fields, List.any_cons, List.any_nil, Bool.or_false, Bool.or_eq_false_iff] at h
  simp only [member, h, Bool.false_eq_true, if_false]

theorem PostgresConfigDTO.member_unknown (m : Bytes × Json) (h : Known fields m = false)
    (dto : PostgresConfigDTO) : member m.1 m.2 dto = some dto := by
  simp only [Known, fields, List.any_cons, List.any_nil, Bool.or_false, Bool.or_eq_false_iff] at h
  simp only [member, h, Bool.false_eq_true, if_false]

theorem FilesystemConfigDTO.member_unknown (m : Bytes × Json) (h : Known fields m = false)
    (dto : FilesystemConfigDTO) : member m.1 m.2 dto = some dto := by
  simp only [Known, fields, List.any_cons, List.any_nil, Bool.or_false, Bool.or_eq_false_iff] at h
  simp only [member, h, Bool.false_eq_true, if_false]

/-- The members a struct does not have can be left out. -/
theorem decodeObject_known {T : Type} (member : Bytes → Json → T → Option T)
    (known : Bytes × Json → Bool)
    (hunknown : ∀ m t, known m = false → member m.1 m.2 t = some t) (ms : List (Bytes × Json))
    (t : T) :
    Json.decodeObject member (.obj (ms.filter known)) t = Json.decodeObject member (.obj ms) t := by
  simp only [Json.decodeObject]
  induction ms generalizing t with
  | nil => rfl
  | cons m ms ih =>
      by_cases hm : known m = true
      · rw [List.filter_cons_of_pos hm, List.foldlM_cons, List.foldlM_cons]
        exact congrArg (Option.bind (member m.1 m.2 t)) (funext ih)
      · rw [List.filter_cons_of_neg hm, List.foldlM_cons,
          hunknown m t (Bool.not_eq_true _ ▸ hm)]
        exact ih t

/-- Two bodies with the same known members are decoded alike. -/
theorem unmarshalStruct_known {T : Type} (member : Bytes → Json → T → Option T) (zero : T)
    (known : Bytes × Json → Bool)
    (hunknown : ∀ m t, known m = false → member m.1 m.2 t = some t) (body body' : Bytes)
    (ms ms' : List (Bytes × Json)) (hparse : Json.parse body = some (.obj ms))
    (hparse' : Json.parse body' = some (.obj ms')) (h : ms.filter known = ms'.filter known) :
    unmarshalStruct member zero body = unmarshalStruct member zero body' := by
  simp only [unmarshalStruct, hparse, hparse', Option.bind_eq_bind, Option.bind_some]
  rw [← decodeObject_known member known hunknown ms, h,
    decodeObject_known member known hunknown ms']

/-! ### Every plugin -/

/-- What was parsed, but for informix's port. -/
def ParsedPluginConfig.withoutPort : ParsedPluginConfig → ParsedPluginConfig
  | .informix cfg => .informix { cfg with port := 0 }
  | .postgres cfg => .postgres cfg
  | .filesystem cfg => .filesystem cfg

/-- No plugin can tell a reread map, but for the port. -/
theorem parseConfig_reread (getenv : Bytes → Bytes) (dto : PluginConfigDTO)
    (raw raw' : List (Bytes × Dyn)) (h : ∀ key, setting raw' key = (setting raw key).reread)
    (cfg : ParsedPluginConfig) (hcfg : dto.parseConfig getenv (some ⟨some raw⟩) = .ok cfg) :
    ∃ cfg', dto.parseConfig getenv (some ⟨some raw'⟩) = .ok cfg' ∧
      cfg'.withoutPort = cfg.withoutPort := by
  have hmap : ∀ {T : Type} (r : Except Bytes T) (f : T → ParsedPluginConfig),
      r.map f = .ok cfg → ∃ t, r = .ok t ∧ cfg = f t := by
    intro T r f hr
    cases r with
    | error err => cases hr
    | ok t =>
        cases hr
        exact ⟨t, rfl, rfl⟩
  cases dto with
  | informix dto =>
      rcases hmap _ _ hcfg with ⟨t, ht, rfl⟩
      rcases Informix.parseConfig_reread raw raw' h getenv t ht with ⟨port, hport⟩
      refine ⟨.informix { t with port := port }, ?_, rfl⟩
      simp only [PluginConfigDTO.parseConfig, hport]
      rfl
  | postgres dto =>
      rcases hmap _ _ hcfg with ⟨t, ht, rfl⟩
      have ht' := Postgres.parseConfig_reread raw raw' h getenv t ht
      exact ⟨.postgres t, by simp only [PluginConfigDTO.parseConfig, ht']; rfl, rfl⟩
  | filesystem dto =>
      rcases hmap _ _ hcfg with ⟨t, ht, rfl⟩
      have ht' := Filesystem.parseConfig_reread raw raw' h t ht
      exact ⟨.filesystem t, by simp only [PluginConfigDTO.parseConfig, ht']; rfl, rfl⟩

theorem InformixConfigDTO.survives (dto : InformixConfigDTO) (h : dto.Decoded) :
    Survives dto.toRawConfig where
  nodup := by
    change (["host", "port", "username", "password_env", "server_name", "database", "tables",
      "agent_path"] : List Bytes).Nodup
    decide +kernel
  keys := by
    change ∀ key ∈ (["host", "port", "username", "password_env", "server_name", "database",
      "tables", "agent_path"] : List Bytes), Clean key
    decide +kernel
  values := by
    simp only [toRawConfig, List.forall_mem_cons]
    exact ⟨.str _ h.host, .int _ h.port, .str _ h.username, .str _ h.passwordEnv,
      .str _ h.serverName, .str _ h.database, storable_rawStrings _ h.tables, .str _ h.agentPath,
      fun _ hm => absurd hm List.not_mem_nil⟩

theorem PostgresConfigDTO.survives (dto : PostgresConfigDTO) (h : dto.Decoded) :
    Survives dto.toRawConfig where
  nodup := by
    change (["username", "password_env", "databases", "container"] : List Bytes).Nodup
    decide +kernel
  keys := by
    change ∀ key ∈ (["username", "password_env", "databases", "container"] : List Bytes), Clean key
    decide +kernel
  values := by
    simp only [toRawConfig, List.forall_mem_cons]
    exact ⟨.str _ h.username, .str _ h.passwordEnv, storable_rawStrings _ h.databases,
      .str _ h.container, fun _ hm => absurd hm List.not_mem_nil⟩

theorem FilesystemConfigDTO.survives (dto : FilesystemConfigDTO) (h : dto.Decoded) :
    Survives dto.toRawConfig where
  nodup := by
    change (["paths", "excludes"] : List Bytes).Nodup
    decide +kernel
  keys := by
    change ∀ key ∈ (["paths", "excludes"] : List Bytes), Clean key
    decide +kernel
  values := by
    simp only [toRawConfig, List.forall_mem_cons]
    exact ⟨storable_rawStrings _ h.paths, storable_rawStrings _ h.excludes,
      fun _ hm => absurd hm List.not_mem_nil⟩

section Plugins

variable (getenv : Bytes → Bytes) (plugin : Bytes) (ops : ConfigDTO PluginConfigDTO)
  (hops : pluginConfigDTOs getenv plugin = some ops)
include hops

/-- What every plugin decodes survives being stored. -/
theorem survives_of_decode (body : Bytes) (dto : PluginConfigDTO)
    (h : ops.decode body = some dto) : Survives dto.toRawConfig := by
  unfold pluginConfigDTOs at hops
  split_ifs at hops <;> cases hops <;> rcases Option.map_eq_some_iff.mp h with ⟨d, hd, rfl⟩
  · exact d.survives (unmarshalStruct_keeps InformixConfigDTO.Decoded _
      (fun key v t t' hv => InformixConfigDTO.decoded_member key v hv t t') _
      ⟨rfl, by decide, rfl, rfl, rfl, rfl, fun s hs => absurd hs List.not_mem_nil, rfl⟩ body d hd)
  · exact d.survives (unmarshalStruct_keeps PostgresConfigDTO.Decoded _
      (fun key v t t' hv => PostgresConfigDTO.decoded_member key v hv t t') _
      ⟨rfl, rfl, fun s hs => absurd hs List.not_mem_nil, rfl⟩ body d hd)
  · exact d.survives (unmarshalStruct_keeps FilesystemConfigDTO.Decoded _
      (fun key v t t' hv => FilesystemConfigDTO.decoded_member key v hv t t') _
      ⟨fun s hs => absurd hs List.not_mem_nil, fun s hs => absurd hs List.not_mem_nil⟩ body d hd)

/-- Bodies with the same known members are decoded alike. -/
theorem decode_known (body body' : Bytes) (ms ms' : List (Bytes × Json))
    (hparse : Json.parse body = some (.obj ms)) (hparse' : Json.parse body' = some (.obj ms'))
    (h : ms.filter (Known (configFields plugin)) = ms'.filter (Known (configFields plugin))) :
    ops.decode body = ops.decode body' := by
  unfold configFields at h
  unfold pluginConfigDTOs at hops
  split_ifs at hops with h1 h2 h3 <;> cases hops
  · rw [if_pos h1] at h
    exact congrArg (Option.map PluginConfigDTO.informix) (unmarshalStruct_known _ _ _
      (fun m t hm => InformixConfigDTO.member_unknown m hm t) body body' ms ms' hparse hparse' h)
  · rw [if_neg h1, if_pos h2] at h
    exact congrArg (Option.map PluginConfigDTO.postgres) (unmarshalStruct_known _ _ _
      (fun m t hm => PostgresConfigDTO.member_unknown m hm t) body body' ms ms' hparse hparse' h)
  · rw [if_neg h1, if_neg h2, if_pos h3] at h
    exact congrArg (Option.map PluginConfigDTO.filesystem) (unmarshalStruct_known _ _ _
      (fun m t hm => FilesystemConfigDTO.member_unknown m hm t) body body' ms ms' hparse hparse' h)

/-- The plugin that parses is the one the DTO is of. -/
theorem parsePluginConfig_eq (body : Bytes) (dto : PluginConfigDTO)
    (h : ops.decode body = some dto) (cfg : Option PluginConfig) :
    parsePluginConfig getenv plugin cfg = some (dto.parseConfig getenv cfg) := by
  unfold parsePluginConfig
  unfold pluginConfigDTOs at hops
  split_ifs at hops ⊢ <;> cases hops <;> rcases Option.map_eq_some_iff.mp h with ⟨d, _, rfl⟩ <;> rfl

theorem validate_eq : ops.validate = PluginConfigDTO.validate getenv ∧
    ops.toRawConfig = PluginConfigDTO.toRawConfig := by
  unfold pluginConfigDTOs at hops
  split_ifs at hops <;> cases hops <;> exact ⟨rfl, rfl⟩

end Plugins

/-! ### What a request leaves behind -/

variable {S D : Type}

/-- A request is refused before anything is written, or its translation is
    written and that answers it. -/
theorem setPluginConfig_runs (dtos : Bytes → Option (ConfigDTO D)) (host plugin : Bytes)
    (req : Request) (tr : Trace (Op S) Ans) (res : Response D)
    (hr : Runs (setPluginConfig dtos host plugin req) tr res) :
    (tr = [] ∧ res.status ≠ 200) ∨
      ∃ ops dto x, dtos plugin = some ops ∧ ops.decode req.body.data = some dto ∧
        ops.validate dto = .ok () ∧
        tr = [⟨.store .caller (.setPluginSettings host plugin
          (Json.render (toJson (.map (ops.toRawConfig dto))))), x⟩] ∧
        (res.status = 200 ↔ x = .ok ()) ∧ (x = .ok () → res = ⟨200, .config dto⟩) := by
  have hrefused : ∀ status msg, status ≠ 200 →
      Runs (.ret (writeError status msg : Response D) : Proc S (Response D)) tr res →
      tr = [] ∧ res.status ≠ 200 := by
    intro status msg hstatus h
    rcases (runs_ret_iff _ _ _).mp h with ⟨rfl, rfl⟩
    exact ⟨rfl, hstatus⟩
  unfold setPluginConfig at hr
  split at hr
  · exact Or.inl (hrefused 400 _ (by decide) hr)
  · next ops hops =>
    split at hr
    · exact Or.inl (hrefused 400 _ (by decide) hr)
    · split at hr
      · exact Or.inl (hrefused 400 _ (by decide) hr)
      · next dto hdto =>
        split at hr
        · exact Or.inl (hrefused 400 _ (by decide) hr)
        · next hvalid =>
          -- Everything was in order, so the settings are written, and the answer decides.
          rcases (runs_call_iff _ _ _ _).mp hr with ⟨x, tr', rfl, hrest⟩
          refine Or.inr ⟨ops, dto, x, hops, hdto, hvalid, ?_⟩
          cases x with
          | error err =>
              rcases (runs_ret_iff _ _ _).mp hrest with ⟨rfl, rfl⟩
              refine ⟨rfl, ⟨fun h => absurd (show 500 = 200 from h) (by decide), fun h => ?_⟩,
                fun h => ?_⟩ <;> cases h
          | ok u =>
              rcases (runs_ret_iff _ _ _).mp hrest with ⟨rfl, rfl⟩
              exact ⟨rfl, ⟨fun _ => rfl, fun _ => rfl⟩, fun _ => rfl⟩

/-- What is read back of the row that was set. -/
theorem resolvePluginConfig_set (host plugin json : Bytes) (raw : List (Bytes × Dyn))
    (hjson : Json.unmarshalMap json = .ok (some raw)) (s : Store) (w w' : Shared)
    (hw : w.store = s.setPluginSettings host plugin json) (ctx : Ctx) (srv : Bop.Server)
    (tr : Trace (Op S) Ans) (r : Except Bytes (Option PluginConfig))
    (hr : Runs (Controller.resolvePluginConfig ctx host plugin srv) tr r)
    (hs : Steps SharedSem w tr w') :
    r = .ok (some ⟨some raw⟩) ∨
      ∃ err, tr = [⟨.store ctx (.getPluginSettings host plugin), .error err⟩] := by
  rcases (runs_check_iff _ _ _ _ _).mp hr with ⟨tr₁, tr₂, found, rfl, h₁, h₂⟩ | ⟨err, h, _⟩
  · rcases (runs_call_iff _ _ _ _).mp h₁ with ⟨x, tr', rfl, hret⟩
    rcases (runs_ret_iff _ _ _).mp hret with ⟨rfl, rfl⟩
    rcases (runs_ret_iff _ _ _).mp h₂ with ⟨rfl, rfl⟩
    cases hs with
    | cons _ w₁ _ _ _ _ hstep _ =>
        have hfound := hstep.1.2
        rw [hw, find?_setPluginSettings, if_pos rfl] at hfound
        rw [hfound]
        refine Or.inl ?_
        simp only [Option.map_some, Controller.configFrom, hjson]
  · rcases (runs_call_iff _ _ _ _).mp h with ⟨x, tr', rfl, hret⟩
    rcases (runs_ret_iff _ _ _).mp hret with ⟨rfl, hx⟩
    exact Or.inr ⟨err, by rw [hx]⟩

/-- A stored configuration means what was validated. A request that is answered
    200 stores a map that every later job resolves, unless its own read fails,
    and on which `ParseConfig` gives what it gave when the request was
    validated, but for informix's port. A request that is answered otherwise
    leaves every row alone, unless the write itself took effect and reported an
    error. The members of the body that are not the plugin's have no part in
    any of this. -/
theorem stored_config (getenv : Bytes → Bytes) (host plugin : Bytes) (req : Request)
    (w w' : Shared) (tr : Trace (Op S) Ans) (res : Response PluginConfigDTO)
    (hr : Runs (setPluginConfig (pluginConfigDTOs getenv) host plugin req) tr res)
    (hs : Steps SharedSem w tr w') :
    (res.status = 200 → ∃ ops dto cfg raw cfg', pluginConfigDTOs getenv plugin = some ops ∧
      ops.decode req.body.data = some dto ∧
      dto.parseConfig getenv (some ⟨some dto.toRawConfig⟩) = .ok cfg ∧
      (∀ ctx srv (tr' : Trace (Op S) Ans) r w'',
        Runs (Controller.resolvePluginConfig ctx host plugin srv) tr' r →
        Steps SharedSem w' tr' w'' → r = .ok (some ⟨some raw⟩) ∨
          ∃ err, tr' = [⟨.store ctx (.getPluginSettings host plugin), .error err⟩]) ∧
      parsePluginConfig getenv plugin (some ⟨some raw⟩) = some (.ok cfg') ∧
      cfg'.withoutPort = cfg.withoutPort) ∧
    (res.status ≠ 200 → (∀ k, w'.store.pluginSettings.find? k = w.store.pluginSettings.find? k) ∨
      ∃ json err, tr = [⟨.store .caller (.setPluginSettings host plugin json), .error err⟩] ∧
        w'.store = w.store.setPluginSettings host plugin json) ∧
    ∀ req' ms ms', req'.body.readErr = req.body.readErr →
      Json.parse req.body.data = some (.obj ms) → Json.parse req'.body.data = some (.obj ms') →
      ms.filter (Known (configFields plugin)) = ms'.filter (Known (configFields plugin)) →
      (setPluginConfig (pluginConfigDTOs getenv) host plugin req' : Proc S _) =
        setPluginConfig (pluginConfigDTOs getenv) host plugin req := by
  refine ⟨fun hstatus => ?_, fun hstatus => ?_, ?_⟩
  · rcases setPluginConfig_runs _ _ _ _ _ _ hr with ⟨_, hne⟩ |
      ⟨ops, dto, x, hops, hdto, hvalid, rfl, hx, -⟩
    · exact absurd hstatus hne
    · rw [hx.mp hstatus] at hs
      rcases validate_eq getenv plugin ops hops with ⟨hvalidate, hraw⟩
      rw [hvalidate] at hvalid
      rw [hraw] at hs
      have hcfg : ∃ cfg, dto.parseConfig getenv (some ⟨some dto.toRawConfig⟩) = .ok cfg := by
        unfold PluginConfigDTO.validate at hvalid
        cases hparse : dto.parseConfig getenv (some ⟨some dto.toRawConfig⟩) with
        | ok cfg => exact ⟨cfg, rfl⟩
        | error err =>
            rw [hparse] at hvalid
            cases hvalid
      rcases hcfg with ⟨cfg, hcfg⟩
      -- The stored map comes back reread, and the plugin cannot tell.
      rcases unmarshalMap_toJson dto.toRawConfig
        (survives_of_decode getenv plugin ops hops _ dto hdto) with ⟨raw, hjson, hreread⟩
      rcases parseConfig_reread getenv dto _ raw hreread cfg hcfg with ⟨cfg', hcfg', hport⟩
      refine ⟨ops, dto, cfg, raw, cfg', hops, hdto, hcfg, ?_, ?_, hport⟩
      · intro ctx srv tr' r w'' hr' hs'
        cases hs with
        | cons _ w₁ _ _ _ _ hstep hrest =>
            cases hrest
            exact resolvePluginConfig_set host plugin _ raw hjson w.store w' w'' hstep.1 ctx srv tr'
              r hr' hs'
      · rw [parsePluginConfig_eq getenv plugin ops hops _ dto hdto, hcfg']
  · rcases setPluginConfig_runs _ _ _ _ _ _ hr with ⟨rfl, _⟩ |
      ⟨ops, dto, x, hops, hdto, hvalid, rfl, hx, -⟩
    · cases hs
      exact Or.inl (fun k => rfl)
    · cases x with
      | ok u => exact absurd (hx.mpr rfl) hstatus
      | error err =>
          cases hs with
          | cons _ w₁ _ _ _ _ hstep hrest =>
              cases hrest
              rcases hstep.1 with heq | heq
              · exact Or.inl (fun k => by rw [heq])
              · exact Or.inr ⟨_, err, rfl, heq⟩
  · intro req' ms ms' herr hparse hparse' h
    unfold setPluginConfig
    rw [herr]
    split
    · rfl
    · next ops hops =>
      rw [decode_known getenv plugin ops hops _ _ ms ms' hparse hparse' h]

/-! ### One directory -/

/-- A request that sets the directories of a host. The member that is not a
    field is dropped. -/
def siteRequest : Request where
  method := "PUT"
  path := ["v1", "hosts", "web", "plugins", "filesystem", "config"]
  query := []
  header := []
  body := ⟨"\x7b\"paths\":[\"/srv\"],\"password\":\"x\"\x7d", none⟩

/-- No environment. -/
def noEnv : Bytes → Bytes := fun _ => []

/-- What the request is decoded to. -/
def siteDTO : PluginConfigDTO := .filesystem ⟨some ⟨["/srv"], []⟩, none⟩

/-- A fresh store. -/
def freshShared : Shared := ⟨Store.empty, Memory.new queueCapacity⟩

/-- The store of the request's configuration. -/
def siteShared : Shared :=
  ⟨Store.empty.setPluginSettings "web" "filesystem"
    (Json.render (toJson (.map siteDTO.toRawConfig))), Memory.new queueCapacity⟩

/-- The one statement the request makes, and its answer. -/
def siteTrace (x : Except Bytes Unit) : Trace (Op Unit) Ans :=
  [⟨.store .caller (.setPluginSettings "web" "filesystem"
    (Json.render (toJson (.map siteDTO.toRawConfig)))), x⟩]

/-- What the request is answered, given what its statement is. -/
def siteResponse : Except Bytes Unit → Response PluginConfigDTO
  | .error err => writeError 500 err
  | .ok _ => ⟨200, .config siteDTO⟩

theorem siteRequest_runs (x : Except Bytes Unit) :
    Runs (setPluginConfig (pluginConfigDTOs noEnv) "web" "filesystem" siteRequest) (siteTrace x)
      (siteResponse x) := by
  have hdecode : (unmarshalStruct FilesystemConfigDTO.member .zero siteRequest.body.data).map
      PluginConfigDTO.filesystem = some siteDTO := by rfl
  have hvalid : siteDTO.validate noEnv = .ok () := by rfl
  have hops : pluginConfigDTOs noEnv "filesystem" = some
      { decode := fun body =>
          (unmarshalStruct FilesystemConfigDTO.member .zero body).map .filesystem
        toRawConfig := PluginConfigDTO.toRawConfig
        fromRawConfig := fun raw => .filesystem (.fromRawConfig raw)
        validate := PluginConfigDTO.validate noEnv } := by rfl
  have herr : siteRequest.body.readErr.isSome = false := by rfl
  simp only [setPluginConfig, hops, herr, hdecode, hvalid, Bool.false_eq_true, if_false]
  refine (runs_call_iff _ _ _ _).mpr ⟨x, [], rfl, ?_⟩
  cases x <;> exact Runs.ret _

/-- When it is answered 200, every later job parses what was validated. -/
theorem stored_config_site :
    ∃ ops dto cfg raw cfg', pluginConfigDTOs noEnv "filesystem" = some ops ∧
      ops.decode siteRequest.body.data = some dto ∧
      dto.parseConfig noEnv (some ⟨some dto.toRawConfig⟩) = .ok cfg ∧
      (∀ ctx srv (tr' : Trace (Op Unit) Ans) r w'',
        Runs (Controller.resolvePluginConfig ctx "web" "filesystem" srv) tr' r →
        Steps SharedSem siteShared tr' w'' → r = .ok (some ⟨some raw⟩) ∨
          ∃ err, tr' = [⟨.store ctx (.getPluginSettings "web" "filesystem"), .error err⟩]) ∧
      parsePluginConfig noEnv "filesystem" (some ⟨some raw⟩) = some (.ok cfg') ∧
      cfg'.withoutPort = cfg.withoutPort :=
  (stored_config noEnv "web" "filesystem" siteRequest freshShared siteShared (siteTrace (.ok ()))
    (siteResponse (.ok ())) (siteRequest_runs (.ok ()))
    (Steps.cons _ siteShared _ _ _ _ ⟨rfl, rfl⟩ (Steps.nil _))).1 rfl

/-- A write that reports an error may have taken effect, and then a request that
    is answered 500 has changed a row. -/
theorem not_stored_unchanged :
    ∃ tr res w', Runs (setPluginConfig (S := Unit) (pluginConfigDTOs noEnv) "web" "filesystem"
        siteRequest) tr res ∧ Steps SharedSem freshShared tr w' ∧ res.status ≠ 200 ∧
      w'.store.pluginSettings.find? ("web", "filesystem") ≠
        freshShared.store.pluginSettings.find? ("web", "filesystem") := by
  refine ⟨siteTrace (.error []), siteResponse (.error []), siteShared, siteRequest_runs _, ?_, ?_,
    ?_⟩
  · exact Steps.cons _ siteShared _ _ _ _ ⟨Or.inr rfl, rfl⟩ (Steps.nil _)
  · change 500 ≠ 200
    decide
  · rw [show siteShared.store = freshShared.store.setPluginSettings "web" "filesystem" _ from rfl,
      find?_setPluginSettings, if_pos rfl]
    exact fun h => Option.some_ne_none _ h

end Api

end Bop
