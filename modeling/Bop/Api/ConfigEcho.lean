import Bop.Api.StoredConfig
import Bop.Json.FloatValue

/-!
# What Is Read Back of a Configuration

A request that sets a configuration is answered with what was decoded of it,
and a later request that reads it is answered with what is rebuilt from the
stored map. The two are the same JSON but for two things. The map holds a list
where the request left one out, so a list that was `null` comes back empty. And
a port was stored as a number and is read as a float, so a port of more than 53
bits comes back as another one.

Every list that a plugin requires is there in a request that is answered 200.
That leaves the patterns of the filesystem plugin.

## Main definitions

* `PluginConfigDTO.toJson`: A configuration on the wire.
* `PluginConfigDTO.reread`: A configuration as it comes back from a map.
* `PluginConfigDTO.Echoes`: What has to hold of a configuration to be read back.
* `Echoed`: Every later read is answered as the request was.

## Theorems

* `rebuilt_reread`: What is rebuilt from a map that was stored.
* `toJson_reread_iff`: When it is the same JSON.
* `getPluginConfig_runs`: A read asks for one row and answers with it.
* `echoed_set`: Reads behind the write of a configuration.
* `echoed_iff`: When a later read is answered as the request was.
-/

namespace Bop

open Prog

namespace Api

open Json (GoSlice)

/-- A `[]string` on the wire. A nil slice is `null`. -/
def wireStrings : Option (GoSlice Bytes) → Json
  | none => .null
  | some xs => .arr (xs.elems.map .str)

/-- `json.Marshal` of a configuration. -/
def PluginConfigDTO.toJson : PluginConfigDTO → Json
  | .informix dto => .obj
      [("host", .str dto.host), ("port", Json.int dto.port), ("username", .str dto.username),
        ("passwordEnv", .str dto.passwordEnv), ("serverName", .str dto.serverName),
        ("database", .str dto.database), ("tables", wireStrings dto.tables),
        ("agentPath", .str dto.agentPath)]
  | .postgres dto => .obj
      [("username", .str dto.username), ("passwordEnv", .str dto.passwordEnv),
        ("databases", wireStrings dto.databases), ("container", .str dto.container)]
  | .filesystem dto => .obj
      [("paths", wireStrings dto.paths), ("excludes", wireStrings dto.excludes)]

/-- What has to hold of a configuration to be read back: its port has no more
    bits than a float, and its patterns are a list. -/
def PluginConfigDTO.Echoes : PluginConfigDTO → Prop
  | .informix dto => Json.FitsFloat dto.port
  | .postgres _ => True
  | .filesystem dto => dto.excludes ≠ none

/-- The configuration that is rebuilt from the map of another. -/
def PluginConfigDTO.rebuilt (raw : Option (List (Bytes × Dyn))) :
    PluginConfigDTO → PluginConfigDTO
  | .informix _ => .informix (.fromRawConfig raw)
  | .postgres _ => .postgres (.fromRawConfig raw)
  | .filesystem _ => .filesystem (.fromRawConfig raw)

/-- Integers that are written alike are the same. -/
theorem int_inj (i j : Int) : Json.int i = Json.int j ↔ i = j := by
  constructor
  · intro h
    have hnum : Json.Number.ofInt i = Json.Number.ofInt j := Json.num.inj h
    have hparts := congrArg Json.Number.parts hnum
    rw [Json.parts_ofInt, Json.parts_ofInt] at hparts
    have habs : i.natAbs = j.natAbs := (Prod.mk.inj hparts).1
    have htext : itoa i = itoa j := congrArg Json.Number.text hnum
    -- The digits give the magnitude, and the first byte the sign.
    have hsign : i < 0 ↔ j < 0 := by rw [← Json.head?_itoa_iff, htext, Json.head?_itoa_iff]
    omega
  · exact congrArg Json.int

/-- A list comes back as itself, and a nil slice as an empty one. -/
theorem stringSliceFromRaw_reread (xs : Option (GoSlice Bytes)) :
    stringSliceFromRaw (rawStrings xs).reread = some ⟨GoSlice.toList xs, []⟩ := by
  change some (GoSlice.mk (((GoSlice.toList xs).map Dyn.str).map Dyn.asString) []) = _
  rw [List.map_map]
  exact congrArg (fun l => some (GoSlice.mk l [])) (List.map_id _)

/-- A slice as it comes back from a map: never nil. -/
def rereadStrings (xs : Option (GoSlice Bytes)) : Option (GoSlice Bytes) :=
  some ⟨GoSlice.toList xs, []⟩

/-- A configuration as it comes back from a map: its lists are there, and its
    port went through a float. -/
def PluginConfigDTO.reread : PluginConfigDTO → PluginConfigDTO
  | .informix dto => .informix
      { dto with
        port := (Json.Number.ofInt dto.port).toInt64
        tables := rereadStrings dto.tables }
  | .postgres dto => .postgres { dto with databases := rereadStrings dto.databases }
  | .filesystem dto => .filesystem
      { paths := rereadStrings dto.paths, excludes := rereadStrings dto.excludes }

/-- What is rebuilt from a map that was stored. -/
theorem rebuilt_reread (raw' : List (Bytes × Dyn)) (dto : PluginConfigDTO)
    (h : ∀ key, setting raw' key = (setting dto.toRawConfig key).reread) :
    dto.rebuilt (some raw') = dto.reread := by
  have hstr : ∀ key s, setting dto.toRawConfig key = .str s →
      (rawSetting (some raw') key).asString = s := fun key s hs => by
    rw [show rawSetting (some raw') key = _ from h key, hs]
    rfl
  have hlist : ∀ key xs, setting dto.toRawConfig key = rawStrings xs →
      stringSliceFromRaw (rawSetting (some raw') key) = rereadStrings xs := fun key xs hxs => by
    rw [show rawSetting (some raw') key = _ from h key, hxs, stringSliceFromRaw_reread]
    rfl
  -- The port is the one setting that is neither a text nor a list.
  cases dto with
  | informix d =>
      have hnum : rawSetting (some raw') "port" = .float (Json.Number.ofInt d.port) := h "port"
      simp only [PluginConfigDTO.rebuilt, PluginConfigDTO.reread, InformixConfigDTO.fromRawConfig,
        hstr "host" _ rfl, hstr "username" _ rfl, hstr "password_env" _ rfl,
        hstr "server_name" _ rfl, hstr "database" _ rfl, hstr "agent_path" _ rfl, hnum,
        hlist "tables" _ rfl]
  | postgres d =>
      simp only [PluginConfigDTO.rebuilt, PluginConfigDTO.reread, PostgresConfigDTO.fromRawConfig,
        hstr "username" _ rfl, hstr "password_env" _ rfl, hstr "container" _ rfl,
        hlist "databases" _ rfl]
  | filesystem d =>
      simp only [PluginConfigDTO.rebuilt, PluginConfigDTO.reread,
        FilesystemConfigDTO.fromRawConfig, hlist "paths" _ rfl, hlist "excludes" _ rfl]

/-- A list is written as it was exactly when it was not nil. -/
theorem wireStrings_reread_iff (xs : Option (GoSlice Bytes)) :
    wireStrings (rereadStrings xs) = wireStrings xs ↔ xs ≠ none := by
  cases xs with
  | none =>
      refine iff_of_false (fun h => ?_) (not_not.mpr rfl)
      -- An empty list is not `null`.
      cases h
  | some xs => exact iff_of_true rfl (Option.some_ne_none xs)

/-- The lists that a plugin's `ParseConfig` insists on are there. -/
def PluginConfigDTO.Listed : PluginConfigDTO → Prop
  | .informix dto => dto.tables ≠ none
  | .postgres dto => dto.databases ≠ none
  | .filesystem dto => dto.paths ≠ none

/-- A configuration of a server that is accepted has been parsed. -/
theorem parsed_of_validate (getenv : Bytes → Bytes) (d : InformixConfigDTO)
    (h : (PluginConfigDTO.informix d).validate getenv = .ok ()) :
    ∃ parsed, Informix.parseConfig getenv (some ⟨some d.toRawConfig⟩) = .ok parsed := by
  cases hparsed : Informix.parseConfig getenv (some ⟨some d.toRawConfig⟩) with
  | error err =>
      simp only [PluginConfigDTO.validate, PluginConfigDTO.parseConfig, PluginConfigDTO.toRawConfig,
        hparsed] at h
      cases h
  | ok parsed => exact ⟨parsed, rfl⟩

/-- A configuration that is accepted lists what it has to. -/
theorem listed_of_validate (getenv : Bytes → Bytes) (dto : PluginConfigDTO)
    (h : dto.validate getenv = .ok ()) : dto.Listed := by
  have hempty : toStringSlice (rawStrings none) = .ok (some []) := toStringSlice_ofStrings []
  -- Without the list every way through the checks ends in an error.
  cases dto with
  | informix d =>
      intro hnil
      have htables : setting d.toRawConfig "tables" = rawStrings none := hnil ▸ rfl
      rcases parsed_of_validate getenv d h with ⟨parsed, hparsed⟩
      rcases (Informix.parseConfig_ok_iff getenv _ parsed).mp hparsed with
        ⟨port, tables, haccepted, -⟩
      have hread := haccepted.tablesRead
      rw [htables, hempty] at hread
      cases hread
      exact haccepted.tablesListed rfl
  | postgres d =>
      intro hnil
      have hdatabases : setting (PluginConfigDTO.postgres d).toRawConfig "databases" =
          rawStrings none := hnil ▸ rfl
      unfold PluginConfigDTO.validate PluginConfigDTO.parseConfig at h
      simp only [Postgres.parseConfig, Option.bind_some, hdatabases, hempty, Option.getD_some,
        if_true] at h
      repeat' split at h
      all_goals cases h
  | filesystem d =>
      intro hnil
      have hpaths : setting (PluginConfigDTO.filesystem d).toRawConfig "paths" =
          rawStrings none := hnil ▸ rfl
      unfold PluginConfigDTO.validate PluginConfigDTO.parseConfig at h
      simp only [Filesystem.parseConfig, Option.bind_some, hpaths, hempty, Option.getD_some,
        dif_pos] at h
      cases h

/-- What comes back from a map is the same JSON exactly when the configuration
    echoes. -/
theorem toJson_reread_iff (dto : PluginConfigDTO) (hlisted : dto.Listed)
    (hport : ∀ d, dto = .informix d → -(2 ^ 63) ≤ d.port ∧ d.port < 2 ^ 63) :
    dto.reread.toJson = dto.toJson ↔ dto.Echoes := by
  cases dto with
  | informix d =>
      have hlist := (wireStrings_reread_iff d.tables).mpr hlisted
      -- The port is a number on both ways, and the same one if a float holds it.
      have hexact := Json.toInt64_ofInt_iff d.port (hport d rfl).1 (hport d rfl).2
      simp only [PluginConfigDTO.reread, PluginConfigDTO.toJson, PluginConfigDTO.Echoes, hlist,
        Json.obj.injEq, List.cons.injEq, Prod.mk.injEq, true_and, and_true, int_inj, hexact]
  | postgres d =>
      have hlist := (wireStrings_reread_iff d.databases).mpr hlisted
      simp only [PluginConfigDTO.reread, PluginConfigDTO.toJson, PluginConfigDTO.Echoes, hlist]
  | filesystem d =>
      have hlist := (wireStrings_reread_iff d.paths).mpr hlisted
      simp only [PluginConfigDTO.reread, PluginConfigDTO.toJson, PluginConfigDTO.Echoes, hlist,
        Json.obj.injEq, List.cons.injEq, Prod.mk.injEq, true_and, and_true,
        wireStrings_reread_iff]

/-- The decoder keeps a port in the range of an `int`. -/
def InformixConfigDTO.PortFits (dto : InformixConfigDTO) : Prop :=
  -(2 ^ 63) ≤ dto.port ∧ dto.port < 2 ^ 63

theorem InformixConfigDTO.portFits_member (key : Bytes) (v : Json)
    (dto dto' : InformixConfigDTO) (hd : dto.PortFits) (h : member key v dto = some dto') :
    dto'.PortFits := by
  unfold member at h
  split_ifs at h
  · rcases Option.map_eq_some_iff.mp h with ⟨s, _, rfl⟩
    exact hd
  · rcases Option.map_eq_some_iff.mp h with ⟨i, hi, rfl⟩
    -- A number that was decoded is in range, and `null` leaves the old one.
    cases v with
    | null =>
        cases hi
        exact hd
    | num n =>
        simp only [Json.decodeInt] at hi
        split at hi
        · split_ifs at hi with hrange
          cases hi
          exact ⟨hrange.1, Int.lt_of_le_sub_one hrange.2⟩
        · cases hi
    | _ => cases hi
  all_goals first
    | (rcases Option.map_eq_some_iff.mp h with ⟨s, _, rfl⟩; exact hd)
    | (cases h; exact hd)

section Plugins

variable (getenv : Bytes → Bytes) (plugin : Bytes) (ops : ConfigDTO PluginConfigDTO)
  (hops : pluginConfigDTOs getenv plugin = some ops)
include hops

theorem portFits_of_decode (body : Bytes) (dto : PluginConfigDTO)
    (h : ops.decode body = some dto) (d : InformixConfigDTO) (hd : dto = .informix d) :
    d.PortFits := by
  subst hd
  unfold pluginConfigDTOs at hops
  split_ifs at hops <;> cases hops <;> rcases Option.map_eq_some_iff.mp h with ⟨e, he, heq⟩ <;>
    cases heq
  -- A decoder begins with a port of 0 and changes it member by member.
  exact unmarshalStruct_keeps InformixConfigDTO.PortFits _
    (fun key v t t' _ => InformixConfigDTO.portFits_member key v t t') _
    ⟨by decide, by decide⟩ body d he

/-- The plugin that rebuilds a configuration is the one that decoded it. -/
theorem fromRawConfig_eq (body : Bytes) (dto : PluginConfigDTO) (h : ops.decode body = some dto)
    (raw : Option (List (Bytes × Dyn))) : ops.fromRawConfig raw = dto.rebuilt raw := by
  unfold pluginConfigDTOs at hops
  split_ifs at hops <;> cases hops <;> rcases Option.map_eq_some_iff.mp h with ⟨d, _, rfl⟩ <;> rfl

end Plugins

/-! ### A read after a write -/

variable {S D : Type}

/-- The answer to a read, by what its query answers. -/
def readAnswer (ops : ConfigDTO D) : Except Bytes (Option Bytes) → Response D
  | .error err => writeError 500 err
  | .ok none => writeError 404 "no stored config for this host/plugin"
  | .ok (some configJSON) => match Json.unmarshalMap configJSON with
    | .error err => writeError 500 ("stored config is not valid JSON: " ++ err)
    | .ok raw => ⟨200, .config (ops.fromRawConfig raw)⟩

/-- A read asks for one row and answers with it. -/
theorem getPluginConfig_eq (dtos : Bytes → Option (ConfigDTO D)) (host plugin : Bytes)
    (ops : ConfigDTO D) (hops : dtos plugin = some ops) :
    (getPluginConfig dtos host plugin : Proc S (Response D)) =
      .call (.store .caller (.getPluginSettings host plugin))
        (fun x => .ret (readAnswer ops x)) := by
  unfold getPluginConfig
  rw [hops]
  refine congrArg (Prog.call _) (funext fun x => ?_)
  -- Whatever the query answers, one response is written.
  cases x with
  | error err => rfl
  | ok found => cases found with
    | none => rfl
    | some configJSON =>
        change (match Json.unmarshalMap configJSON with
          | .error err => (Prog.ret _ : Proc S (Response D))
          | .ok raw => Prog.ret _) = Prog.ret (match Json.unmarshalMap configJSON with
          | .error err => _
          | .ok raw => _)
        split <;> rfl

/-- So do its runs. -/
theorem getPluginConfig_runs (dtos : Bytes → Option (ConfigDTO D)) (host plugin : Bytes)
    (ops : ConfigDTO D) (hops : dtos plugin = some ops) (tr : Trace (Op S) Ans)
    (res : Response D) :
    Runs (getPluginConfig dtos host plugin) tr res ↔
      ∃ x, tr = [⟨.store .caller (.getPluginSettings host plugin), x⟩] ∧
        res = readAnswer ops x := by
  rw [getPluginConfig_eq dtos host plugin ops hops, runs_call_iff]
  constructor
  · rintro ⟨x, tr', rfl, h⟩
    rcases (runs_ret_iff _ _ _).mp h with ⟨rfl, hres⟩
    exact ⟨x, rfl, hres⟩
  · rintro ⟨x, rfl, hres⟩
    exact ⟨x, [], rfl, (runs_ret_iff _ _ _).mpr ⟨rfl, hres⟩⟩

/-- As long as the row stays as it is, every read is answered with the JSON of
    the configuration, unless its own query fails. -/
def Echoed (S : Type) (getenv : Bytes → Bytes) (host plugin : Bytes) (w : Shared)
    (dto : PluginConfigDTO) : Prop :=
  ∀ (u u' : Shared) (tr : Trace (Op S) Ans) (res : Response PluginConfigDTO),
    u.store.pluginSettings.find? (host, plugin) = w.store.pluginSettings.find? (host, plugin) →
    Runs (getPluginConfig (pluginConfigDTOs getenv) host plugin) tr res →
    Steps SharedSem u tr u' →
    (∃ err, tr = [⟨.store .caller (.getPluginSettings host plugin), .error err⟩]) ∨
      ∃ dto', res = ⟨200, .config dto'⟩ ∧ dto'.toJson = dto.toJson

/-- Behind the write of a configuration, every read is answered with its JSON
    exactly when it echoes. -/
theorem echoed_set (getenv : Bytes → Bytes) (host plugin : Bytes) (ops : ConfigDTO PluginConfigDTO)
    (hops : pluginConfigDTOs getenv plugin = some ops) (body : Bytes) (dto : PluginConfigDTO)
    (hdto : ops.decode body = some dto) (hvalid : dto.validate getenv = .ok ()) (w' : Shared)
    (hrow : w'.store.pluginSettings.find? (host, plugin) =
      some ⟨host, plugin, Json.render (toJson (.map dto.toRawConfig))⟩) :
    Echoed S getenv host plugin w' dto ↔ dto.Echoes := by
  rcases unmarshalMap_toJson dto.toRawConfig
    (survives_of_decode getenv plugin ops hops _ dto hdto) with ⟨raw, hjson, hreread⟩
  -- The two JSON texts differ in what the map does not keep.
  have hsame := toJson_reread_iff dto (listed_of_validate getenv dto hvalid)
    (portFits_of_decode getenv plugin ops hops _ dto hdto)
  have hread : readAnswer ops (.ok (some (Json.render (toJson (.map dto.toRawConfig))))) =
      ⟨200, .config dto.reread⟩ := by
    rw [← rebuilt_reread raw dto hreread, ← fromRawConfig_eq getenv plugin ops hops _ dto hdto]
    simp only [readAnswer, hjson]
  rw [← hsame]
  constructor
  · intro hecho
    -- The read that follows at once.
    have hrun := (getPluginConfig_runs (S := S) (pluginConfigDTOs getenv) host plugin ops hops
      _ _).mpr ⟨.ok (some _), rfl, hread.symm⟩
    rcases hecho w' w' _ _ rfl hrun (Steps.cons _ w' _ _ _ _ ⟨⟨rfl, by rw [hrow]; rfl⟩, rfl⟩
      (Steps.nil _)) with ⟨err, htr⟩ | ⟨dto', hres', heq⟩
    · cases htr
    · cases hres'
      exact heq
  · intro heq u u' tr' res' hrow' hr' hs'
    rcases (getPluginConfig_runs _ _ _ ops hops _ _).mp hr' with ⟨y, rfl, rfl⟩
    -- A query that succeeds finds the row that was written.
    cases y with
    | error err => exact Or.inl ⟨err, rfl⟩
    | ok found =>
        right
        cases hs' with
        | cons _ u₁ _ _ _ _ hstep _ =>
            have hfound := hstep.1.2
            rw [hrow', hrow] at hfound
            rw [hfound, Option.map_some, hread]
            exact ⟨_, rfl, heq⟩

/-- After a request that is answered 200, every read is answered with the same
    JSON exactly when the configuration has no port of more bits than a float
    and, for the filesystem plugin, a list of patterns. -/
theorem echoed_iff (getenv : Bytes → Bytes) (host plugin : Bytes) (req : Request) (w w' : Shared)
    (tr : Trace (Op S) Ans) (res : Response PluginConfigDTO)
    (hr : Runs (setPluginConfig (pluginConfigDTOs getenv) host plugin req) tr res)
    (hs : Steps SharedSem w tr w') (hstatus : res.status = 200) :
    ∃ ops dto, pluginConfigDTOs getenv plugin = some ops ∧
      ops.decode req.body.data = some dto ∧ res = ⟨200, .config dto⟩ ∧
      (Echoed S getenv host plugin w' dto ↔ dto.Echoes) := by
  rcases setPluginConfig_runs _ _ _ _ _ _ hr with ⟨_, hne⟩ |
    ⟨ops, dto, x, hops, hdto, hvalid, rfl, hx, hres⟩
  · exact absurd hstatus hne
  refine ⟨ops, dto, hops, hdto, hres (hx.mp hstatus), ?_⟩
  -- A request that is answered 200 has written its row.
  rw [hx.mp hstatus] at hs
  rcases validate_eq getenv plugin ops hops with ⟨hvalidate, hraw⟩
  rw [hvalidate] at hvalid
  rw [hraw] at hs
  refine echoed_set getenv host plugin ops hops _ dto hdto hvalid w' ?_
  -- The row that was written.
  cases hs with
  | cons _ w₁ _ _ _ _ hstep hrest =>
      cases hrest
      rw [hstep.1, find?_setPluginSettings, if_pos rfl]

/-! ### A request without patterns -/

/-- When the request without patterns is answered, reads echo it if it has
    patterns. -/
theorem echoed_site :
    ∃ ops dto, pluginConfigDTOs noEnv "filesystem" = some ops ∧
      ops.decode siteRequest.body.data = some dto ∧
      siteResponse (.ok ()) = ⟨200, .config dto⟩ ∧
      (Echoed Unit noEnv "web" "filesystem" siteShared dto ↔ dto.Echoes) :=
  echoed_iff noEnv "web" "filesystem" siteRequest freshShared siteShared (siteTrace (.ok ()))
    (siteResponse (.ok ())) (siteRequest_runs (.ok ()))
    (Steps.cons _ siteShared _ _ _ _ ⟨rfl, rfl⟩ (Steps.nil _)) rfl

/-- It has none: the request is answered with `null`, and a read is not. -/
theorem not_echoed_site :
    Runs (setPluginConfig (pluginConfigDTOs noEnv) "web" "filesystem" siteRequest)
        (siteTrace (.ok ())) ⟨200, .config siteDTO⟩ ∧
      Steps SharedSem freshShared (siteTrace (.ok ())) siteShared ∧
      ¬ Echoed Unit noEnv "web" "filesystem" siteShared siteDTO := by
  refine ⟨siteRequest_runs (.ok ()), Steps.cons _ siteShared _ _ _ _ ⟨rfl, rfl⟩ (Steps.nil _), ?_⟩
  have hops : ∃ ops, pluginConfigDTOs noEnv "filesystem" = some ops ∧
      ops.decode siteRequest.body.data = some siteDTO := ⟨_, rfl, rfl⟩
  rcases hops with ⟨ops, hops, hdecode⟩
  rw [echoed_set noEnv "web" "filesystem" ops hops _ siteDTO hdecode rfl siteShared (by
    rw [siteShared, find?_setPluginSettings, if_pos rfl])]
  exact fun h => h rfl

end Api

end Bop
