import Bop.Plugin.Settings

/-!
# Filesystem Configuration

What the filesystem plugin is configured with: the directories to archive and
the patterns to leave out. A directory is given by an absolute path, which is
checked by its first byte and nothing else.

## Main definitions

* `Config`: The parsed configuration.
* `parseConfig`: Reading it.

## Theorems

* `parseConfig_settings`: Every configuration is one that was accepted.
-/

namespace Bop

namespace Filesystem

/-- The plugin's configuration. The patterns may be a nil slice. -/
structure Config where
  paths : List Bytes
  excludes : Option (List Bytes)
  nonempty : paths ≠ []
  absolute : ∀ p ∈ paths, p.head? = some 47
  deriving DecidableEq

/-- The first path that does not begin with a slash. -/
def firstRelative (paths : List Bytes) : Option Bytes := paths.find? (fun p => p.head? ≠ some 47)

theorem absolute_of_firstRelative (paths : List Bytes) (h : firstRelative paths = none) :
    ∀ p ∈ paths, p.head? = some 47 := by
  intro p hp
  have hrel := List.find?_eq_none.mp h p hp
  rwa [decide_eq_true_eq, not_not] at hrel

/-- `ParseConfig`. -/
def parseConfig (cfg : Option PluginConfig) : Except Bytes Config :=
  match cfg.bind (·.config) with
  | none => .error "filesystem: no config provided"
  | some raw => match toStringSlice (setting raw "paths") with
    | .error err => .error ("filesystem: config.paths: " ++ err)
    | .ok paths =>
        if hne : paths.getD [] = [] then
          .error "filesystem: config.paths must list at least one path"
        else match habs : firstRelative (paths.getD []) with
        | some p =>
            .error ("filesystem: config.paths: " ++ quoteGo p ++ " must be an absolute path")
        | none => match toStringSlice (setting raw "excludes") with
          | .error err => .error ("filesystem: config.excludes: " ++ err)
          | .ok excludes => .ok ⟨paths.getD [], excludes, hne, absolute_of_firstRelative _ habs⟩

/-- The settings that hold a configuration. -/
def Config.settings (cfg : Config) : List (Bytes × Dyn) :=
  [("paths", Dyn.ofStrings cfg.paths),
    ("excludes", (cfg.excludes.map Dyn.ofStrings).getD .nil)]

/-- Every configuration is one that was accepted. -/
theorem parseConfig_settings (cfg : Config) :
    parseConfig (some ⟨some cfg.settings⟩) = .ok cfg := by
  have hpaths : setting cfg.settings "paths" = Dyn.ofStrings cfg.paths := rfl
  have hexcludes : toStringSlice (setting cfg.settings "excludes") = .ok cfg.excludes := by
    change toStringSlice ((cfg.excludes.map Dyn.ofStrings).getD .nil) = _
    cases cfg.excludes with
    | none => rfl
    | some xs => exact toStringSlice_ofStrings xs
  have habs : firstRelative cfg.paths = none := by
    refine List.find?_eq_none.mpr (fun p hp => ?_)
    rw [decide_eq_true_eq, not_not]
    exact cfg.absolute p hp
  unfold parseConfig
  simp only [Option.bind_some, hpaths, toStringSlice_ofStrings, Option.getD_some, hexcludes]
  rw [dif_neg cfg.nonempty]
  split
  · next p hp =>
      rw [habs] at hp
      cases hp
  · rfl

end Filesystem

end Bop
