import Bop.Api.ConfigEcho
import Bop.Json.Shortest
import Bop.Text.Trim

/-!
# The Configuration Forms of the Console

A form loads a plugin's configuration, shows each list as one line of text with
commas, and on submitting takes the line apart again. What is sent is what was
loaded, except for the lists, and those come back only if no entry holds a
comma, begins or ends with white space, or is empty. A table of informix is an
identifier, which is none of these. A database, a path and a pattern can be.

A number is a double in a browser, so a port is one too, and what is sent is the
shortest literal of the double.

## Main definitions

* `splitList`, `joinList`: A list and the line it is shown as.
* `Plain`: An entry that survives both.
* `PluginConfig`: What the forms hold, and `ofResponse` what they load.
* `literal`, `submitted`: What a form sends that was not edited.
* `storedConfig`: The configuration that is stored, as the console sees it.
* `Keeps`: The configurations that a form does not change.

## Theorems

* `splitList_joinList_iff`: The lists that survive.
* `plain_of_validTableName`: The name of a table does.
* `submitted_iff`: When saving a form changes nothing.
-/

namespace Bop

namespace Web

open Api (PluginConfigDTO InformixConfigDTO)
open Json (GoSlice)

/-- The byte between the entries of a line. -/
def comma : UInt8 := 44

/-- `splitList`. -/
def splitList (text : Bytes) : List Bytes :=
  ((text.splitOn comma).map (trim jsSpaces)).filter (fun t => t ≠ [])

/-- `xs.join(', ')`. -/
def joinList (xs : List Bytes) : Bytes := join ", " xs

/-- An entry that is shown in a line and read back from it. -/
structure Plain (x : Bytes) : Prop where
  comma : comma ∉ x
  trimmed : trim jsSpaces x = x
  nonempty : x ≠ []

theorem jsSpaces_nonempty : [] ∉ jsSpaces := by decide

theorem jsSpaces_prefix_free : ∀ a ∈ jsSpaces, ∀ b ∈ jsSpaces, a <+: b → a = b := by decide

/-- No piece of a split holds what it was split at. -/
theorem notMem_of_mem_splitOn (sep : UInt8) (text piece : Bytes) (h : piece ∈ text.splitOn sep) :
    sep ∉ piece := by
  induction text generalizing piece with
  | nil =>
      rw [List.splitOn_nil, List.mem_singleton] at h
      rw [h]
      exact List.not_mem_nil
  | cons b text ih =>
      rw [List.splitOn_cons_eq_if_modifyHead] at h
      split_ifs at h with hb
      · rcases List.mem_cons.mp h with rfl | h
        · exact List.not_mem_nil
        · exact ih piece h
      · rcases List.exists_cons_of_ne_nil (List.splitOn_ne_nil sep text) with ⟨first, rest, hsplit⟩
        rw [hsplit, List.modifyHead_cons] at h
        rw [hsplit] at ih
        rcases List.mem_cons.mp h with rfl | h
        · -- The byte in front is not the separator, and neither is any behind it.
          intro hmem
          rcases List.mem_cons.mp hmem with rfl | hmem
          · exact hb (beq_self_eq_true _)
          · exact ih first List.mem_cons_self hmem
        · exact ih piece (List.mem_cons_of_mem first h)

theorem trim_subset (spaces : List Bytes) (s : Bytes) : trim spaces s ⊆ s := by
  intro b hb
  exact (trimStart_suffix spaces s).subset ((trimEnd_isPrefix spaces _).subset hb)

/-- Whatever a line is taken apart into is plain. -/
theorem plain_of_mem_splitList (text x : Bytes) (h : x ∈ splitList text) : Plain x := by
  rw [splitList, List.mem_filter, decide_eq_true_eq] at h
  rcases h with ⟨hmem, hne⟩
  rcases List.mem_map.mp hmem with ⟨piece, hpiece, rfl⟩
  exact ⟨fun hcomma => notMem_of_mem_splitOn comma text piece hpiece
    (trim_subset jsSpaces piece hcomma), trim_trim jsSpaces jsSpaces_nonempty piece, hne⟩

/-- A line is its entries with a comma between them, and a blank in front of
    all but the first. -/
theorem joinList_cons (x : Bytes) (xs : List Bytes) :
    joinList (x :: xs) = [comma].intercalate (x :: xs.map (32 :: ·)) := by
  induction xs generalizing x with
  | nil => exact (List.append_nil x).symm
  | cons y ys ih =>
      change x ++ ", " ++ joinList (y :: ys) = _
      -- The blank behind a comma belongs to the entry behind it.
      have hrest : (32 : UInt8) :: joinList (y :: ys) =
          [comma].intercalate ((32 :: y) :: ys.map (32 :: ·)) := by
        rw [ih]
        cases ys <;> rfl
      rw [List.map_cons, List.intercalate_cons_cons, ← hrest, List.append_assoc, List.append_assoc]
      rfl

/-- A list survives being shown and read back exactly when its entries do. -/
theorem splitList_joinList_iff (xs : List Bytes) :
    splitList (joinList xs) = xs ↔ ∀ x ∈ xs, Plain x := by
  constructor
  · intro h x hx
    rw [← h] at hx
    exact plain_of_mem_splitList _ x hx
  · intro hplain
    cases xs with
    | nil => rfl
    | cons x xs =>
        rcases List.forall_mem_cons.mp hplain with ⟨hx, hxs⟩
        have hcomma : ∀ l ∈ x :: xs.map (32 :: ·), comma ∉ l := by
          rw [List.forall_mem_cons]
          refine ⟨hx.comma, fun l hl => ?_⟩
          rcases List.mem_map.mp hl with ⟨y, hy, rfl⟩
          intro hmem
          rcases List.mem_cons.mp hmem with h | h
          · exact absurd h (by decide)
          · exact (hxs y hy).comma h
        rw [joinList_cons, splitList, List.splitOn_intercalate comma hcomma (List.cons_ne_nil _ _),
          List.map_cons, List.map_map]
        -- The blank in front of an entry is trimmed off with the rest.
        have htrim : xs.map (trim jsSpaces ∘ (32 :: ·)) = xs :=
          (List.map_congr_left fun y hy => (trim_append_space jsSpaces jsSpaces_nonempty
            jsSpaces_prefix_free [32] y (by decide)).trans (hxs y hy).trimmed).trans
            (List.map_id xs)
        rw [htrim, hx.trimmed, List.filter_eq_self]
        exact fun y hy => decide_eq_true (hplain y hy).nonempty

/-- The name of a table is plain: no byte of it is a comma or white space. -/
theorem plain_of_validTableName (t : Bytes) (h : Informix.validTableName t = true) : Plain t := by
  rcases Informix.identPart_of_validTableName t h with ⟨hne, hbytes⟩
  have hspace : ∀ sp ∈ jsSpaces, ∀ b ∈ sp, ¬ (Informix.identPart b = true ∨ b = 46) := by
    decide +kernel
  -- White space at an end would put its first byte among those of the name.
  have hnot : ∀ sp ∈ jsSpaces, ¬ sp ⊆ t := by
    intro sp hsp hsub
    cases sp with
    | nil => exact jsSpaces_nonempty hsp
    | cons b rest => exact hspace _ hsp b List.mem_cons_self (hbytes b (hsub List.mem_cons_self))
  refine ⟨fun hcomma => ?_, ?_, hne⟩
  · rcases hbytes comma hcomma with h | h
    · exact absurd h (by decide)
    · exact absurd h (by decide)
  · rw [trim, trimStart_of_not_isPrefix jsSpaces t fun sp hsp hp => hnot sp hsp hp.subset,
      trimEnd_of_not_suffix jsSpaces t fun sp hsp hp => hnot sp hsp hp.subset]

/-! ### The forms -/

/-- `interface InformixConfig`. A list may be `null`, whatever its type says. -/
structure InformixConfig where
  host : Bytes
  port : ℚ
  username : Bytes
  passwordEnv : Bytes
  serverName : Bytes
  database : Bytes
  tables : Option (List Bytes)
  agentPath : Bytes

/-- `interface PostgresConfig`. -/
structure PostgresConfig where
  username : Bytes
  passwordEnv : Bytes
  databases : Option (List Bytes)
  container : Bytes

/-- `interface FilesystemConfig`. -/
structure FilesystemConfig where
  paths : Option (List Bytes)
  excludes : Option (List Bytes)

/-- `type PluginConfig`. -/
inductive PluginConfig
  | informix (cfg : InformixConfig)
  | postgres (cfg : PostgresConfig)
  | filesystem (cfg : FilesystemConfig)

/-- What a form loads from a response. -/
def ofResponse : PluginConfigDTO → PluginConfig
  | .informix dto => .informix
      { host := dto.host, port := (Json.Number.ofInt dto.port).value, username := dto.username,
        passwordEnv := dto.passwordEnv, serverName := dto.serverName, database := dto.database,
        tables := dto.tables.map GoSlice.elems, agentPath := dto.agentPath }
  | .postgres dto => .postgres
      { username := dto.username, passwordEnv := dto.passwordEnv,
        databases := dto.databases.map GoSlice.elems, container := dto.container }
  | .filesystem dto => .filesystem
      { paths := dto.paths.map GoSlice.elems, excludes := dto.excludes.map GoSlice.elems }

/-- What `JSON.stringify` writes for a number, which is a whole one in a form that
    was not edited. -/
def literal (x : ℚ) : ℚ := if x.den = 1 then Json.shortest x.num else x

/-- What a form sends that was not edited. A list that is `null` cannot be
    joined, and the form is not shown. -/
def submitted : PluginConfig → Option PluginConfig
  | .informix cfg => do
      let tables ← cfg.tables
      return .informix
        { cfg with port := literal cfg.port, tables := some (splitList (joinList tables)) }
  | .postgres cfg => do
      let databases ← cfg.databases
      return .postgres { cfg with databases := some (splitList (joinList databases)) }
  | .filesystem cfg => do
      let paths ← cfg.paths
      let excludes ← cfg.excludes
      return .filesystem
        { paths := some (splitList (joinList paths))
          excludes := some (splitList (joinList excludes)) }

/-- The configuration that is stored, as the console would write it: the stored
    map holds a list in every place, and the port as it is. -/
def storedConfig : PluginConfigDTO → PluginConfig
  | .informix dto => .informix
      { host := dto.host, port := dto.port, username := dto.username,
        passwordEnv := dto.passwordEnv, serverName := dto.serverName, database := dto.database,
        tables := some (GoSlice.toList dto.tables), agentPath := dto.agentPath }
  | .postgres dto => .postgres
      { username := dto.username, passwordEnv := dto.passwordEnv,
        databases := some (GoSlice.toList dto.databases), container := dto.container }
  | .filesystem dto => .filesystem
      { paths := some (GoSlice.toList dto.paths), excludes := some (GoSlice.toList dto.excludes) }

/-- The configurations that a form does not change. -/
def Keeps : PluginConfigDTO → Prop
  | .informix dto => Json.IsShortest dto.port
  | .postgres dto => ∀ x ∈ GoSlice.toList dto.databases, Plain x
  | .filesystem dto =>
      (∀ x ∈ GoSlice.toList dto.paths, Plain x) ∧ ∀ x ∈ GoSlice.toList dto.excludes, Plain x

/-- The tables of a configuration that is accepted are identifiers. -/
theorem plain_tables (getenv : Bytes → Bytes) (d : InformixConfigDTO)
    (h : (PluginConfigDTO.informix d).validate getenv = .ok ()) :
    ∀ x ∈ GoSlice.toList d.tables, Plain x := by
  have htables : toStringSlice (setting d.toRawConfig "tables") =
      .ok (some (GoSlice.toList d.tables)) := toStringSlice_ofStrings _
  rcases Api.parsed_of_validate getenv d h with ⟨parsed, hparsed⟩
  rcases (Informix.parseConfig_ok_iff getenv _ parsed).mp hparsed with ⟨port, tables, haccepted, -⟩
  cases htables.symm.trans haccepted.tablesRead
  intro x hx
  refine plain_of_validTableName x ?_
  have hname := List.find?_eq_none.mp haccepted.tablesValid x hx
  rwa [Bool.not_eq_true, Bool.not_eq_false'] at hname

/-- The port a form sends is the stored one exactly when that is the literal of its
    nearest float. -/
theorem port_iff (p : Int) (hlow : -(2 ^ 63) ≤ p) (hhigh : p < 2 ^ 63) :
    literal (Json.Number.ofInt (Json.Number.ofInt p).toInt64).value = (p : ℚ) ↔
      Json.IsShortest p := by
  rw [← Json.shortest_reread_iff p hlow hhigh, Json.value_ofInt, literal, Rat.den_intCast,
    if_pos rfl, Rat.num_intCast, Int.cast_inj]

/-- Opening and saving a form changes nothing exactly when the port is the literal of
    its nearest float, and the databases, the paths and the patterns are plain;
    and a list survives being shown and read back exactly when it is plain. -/
theorem submitted_iff (getenv : Bytes → Bytes) (plugin : Bytes)
    (ops : Api.ConfigDTO PluginConfigDTO) (hops : Api.pluginConfigDTOs getenv plugin = some ops)
    (body : Bytes) (dto : PluginConfigDTO) (hdto : ops.decode body = some dto)
    (hvalid : dto.validate getenv = .ok ()) (raw : Option (List (Bytes × Dyn)))
    (hraw : Json.unmarshalMap (Json.render (Api.toJson (.map dto.toRawConfig))) = .ok raw) :
    (submitted (ofResponse (ops.fromRawConfig raw)) = some (storedConfig dto) ↔ Keeps dto) ∧
      ∀ xs, splitList (joinList xs) = xs ↔ ∀ x ∈ xs, Plain x := by
  refine ⟨?_, splitList_joinList_iff⟩
  rcases Api.unmarshalMap_toJson dto.toRawConfig
    (Api.survives_of_decode getenv plugin ops hops _ dto hdto) with ⟨raw', hjson, h⟩
  cases hraw.symm.trans hjson
  rw [Api.fromRawConfig_eq getenv plugin ops hops _ dto hdto, Api.rebuilt_reread raw' dto h]
  have hport := Api.portFits_of_decode getenv plugin ops hops _ dto hdto
  -- What is left is a comparison field by field, with one list or port in each.
  cases dto with
  | informix d =>
      have hlist := (splitList_joinList_iff _).mpr (plain_tables getenv d hvalid)
      have hp := port_iff d.port (hport d rfl).1 (hport d rfl).2
      simp only [PluginConfigDTO.reread, Api.rereadStrings, ofResponse, submitted, storedConfig,
        Keeps, Option.map_some, hlist, Option.bind_eq_bind, Option.bind_some, Option.pure_def,
        Option.some.injEq, PluginConfig.informix.injEq, InformixConfig.mk.injEq, true_and,
        and_true, hp]
  | postgres d =>
      simp only [PluginConfigDTO.reread, Api.rereadStrings, ofResponse, submitted, storedConfig,
        Keeps, Option.map_some, Option.bind_eq_bind, Option.bind_some, Option.pure_def,
        Option.some.injEq, PluginConfig.postgres.injEq, PostgresConfig.mk.injEq, true_and,
        and_true, splitList_joinList_iff]
  | filesystem d =>
      simp only [PluginConfigDTO.reread, Api.rereadStrings, ofResponse, submitted, storedConfig,
        Keeps, Option.map_some, Option.bind_eq_bind, Option.bind_some, Option.pure_def,
        Option.some.injEq, PluginConfig.filesystem.injEq, FilesystemConfig.mk.injEq,
        splitList_joinList_iff]

/-! ### Two backups of a directory -/

/-- The body of a request that leaves out the backups of an editor. -/
def editorBody : Bytes := "\x7b\"paths\":[\"/srv\"],\"excludes\":[\"*~\"]\x7d"

def editorDTO : PluginConfigDTO := .filesystem ⟨some ⟨["/srv"], []⟩, some ⟨["*~"], []⟩⟩

/-- The body of a request that leaves out two kinds of files with one pattern. -/
def objectsBody : Bytes := "\x7b\"paths\":[\"/srv\"],\"excludes\":[\"*.\x7bo,a\x7d\"]\x7d"

def objectsDTO : PluginConfigDTO :=
  .filesystem ⟨some ⟨["/srv"], []⟩, some ⟨["*.\x7bo,a\x7d"], []⟩⟩

/-- The pattern of the first body is plain, so its form changes nothing. -/
theorem submitted_editor :
    ∃ ops raw, Api.pluginConfigDTOs Api.noEnv "filesystem" = some ops ∧
      submitted (ofResponse (ops.fromRawConfig raw)) = some (storedConfig editorDTO) := by
  rcases Api.unmarshalMap_toJson editorDTO.toRawConfig (Api.survives_of_decode Api.noEnv
    "filesystem" _ rfl editorBody editorDTO rfl) with ⟨raw, hraw, _⟩
  refine ⟨_, raw, rfl, (submitted_iff Api.noEnv "filesystem" _ rfl editorBody editorDTO rfl rfl
    raw hraw).1.mpr ⟨?_, ?_⟩⟩
  · exact List.forall_mem_singleton.mpr ⟨by decide, rfl, List.cons_ne_nil _ _⟩
  · exact List.forall_mem_singleton.mpr ⟨by decide, rfl, List.cons_ne_nil _ _⟩

/-- The pattern of the second is not, and its form makes two of it. -/
theorem not_submitted_objects :
    ∃ ops raw, Api.pluginConfigDTOs Api.noEnv "filesystem" = some ops ∧
      ops.decode objectsBody = some objectsDTO ∧ objectsDTO.validate Api.noEnv = .ok () ∧
      Json.unmarshalMap (Json.render (Api.toJson (.map objectsDTO.toRawConfig))) = .ok raw ∧
      submitted (ofResponse (ops.fromRawConfig raw)) =
        some (.filesystem ⟨some ["/srv"], some ["*.\x7bo", "a\x7d"]⟩) ∧
      submitted (ofResponse (ops.fromRawConfig raw)) ≠ some (storedConfig objectsDTO) := by
  rcases Api.unmarshalMap_toJson objectsDTO.toRawConfig (Api.survives_of_decode Api.noEnv
    "filesystem" _ rfl objectsBody objectsDTO rfl) with ⟨raw, hraw, hreread⟩
  refine ⟨_, raw, rfl, rfl, rfl, hraw, ?_⟩
  rw [Api.fromRawConfig_eq Api.noEnv "filesystem" _ rfl objectsBody objectsDTO rfl,
    Api.rebuilt_reread raw objectsDTO hreread]
  -- The comma in the braces ends an entry.
  have hsent : submitted (ofResponse objectsDTO.reread) =
      some (.filesystem ⟨some ["/srv"], some ["*.\x7bo", "a\x7d"]⟩) := by rfl
  refine ⟨hsent, ?_⟩
  rw [hsent]
  intro h
  cases h

end Web

end Bop
