import Bop.Plugin.Logs
import Bop.Plugin.Settings
import Bop.Text.Glob
import Bop.Text.Rfc3339

/-!
# Discovering Logs

Which logs a host has is asked of the host: every line that `docker ps` prints
names a container, if what is left of it without white space is a name that a
container may have. Of these the patterns of the configuration choose. A
resource's identifier holds the name behind a prefix, and a backup takes the
name out of it again and checks it once more.

A name that passes has only letters, digits and three marks. It is the second
positional parameter of a fixed script, and a part of a file name.

## Main definitions

* `parseConfig`: Reading the configuration. A malformed pattern is refused.
* `discover`: `Plugin.Discover`.
* `Kept`: The names that the patterns choose.
* `BacksUp`: What a backup does with a resource.

## Theorems

* `parseConfig_wellFormed`: No pattern that was accepted is an error later.
* `discoverLines_eq`: The resources of the lines.
* `discover_backsUp`: What is discovered is backed up.
-/

namespace Bop

namespace Logs

open Prog Remote

/-! ### The configuration -/

/-- The items of a list of patterns, the first with the index `i`. -/
def patternItems (i : Nat) : List Dyn → Except Bytes (List Bytes)
  | [] => .ok []
  | item :: rest =>
      let s := item.asString
      if s = [] then .error ("expected a non-empty string at index " ++ itoaNat i)
      -- A pattern is tried on the empty text, since only whether it is one matters.
      else match pathMatch s [] with
        | .error err => .error ("invalid pattern " ++ quoteGo s ++ ": " ++ err)
        | .ok _ => (patternItems (i + 1) rest).map (s :: ·)

/-- `patterns`. -/
def patterns : Dyn → Except Bytes (List Bytes)
  | .nil => .ok []
  | .list raw => patternItems 0 raw
  | v => .error ("expected a list, got " ++ v.typeName)

/-- `defaultWindow`: three days. -/
def defaultWindow : Int := 72 * 3600 * perSecond

/-- The setting of the journal. -/
def parseJournal (raw : List (Bytes × Dyn)) : Except Bytes Bool :=
  match raw.lookup ("journal" : Bytes) with
  -- A journal that is not mentioned is not backed up.
  | none => .ok false
  | some (.bool b) => .ok b
  | some v => .error ("logs: config.journal: expected true or false, got " ++ v.typeName)

/-- The setting of the window, given `time.ParseDuration`, of which nothing is
    used. -/
def parseWindow (parseDuration : Bytes → Except Bytes Int) (raw : List (Bytes × Dyn)) :
    Except Bytes Int :=
  match raw.lookup ("window" : Bytes) with
  | none => .ok defaultWindow
  | some (.str s) =>
      let bad := "logs: config.window: " ++ quoteGo s ++ " is not a positive duration like \"72h\""
      match parseDuration s with
      | .error _ => .error bad
      | .ok d => if d ≤ 0 then .error bad else .ok d
  | some v =>
      .error ("logs: config.window: expected a duration string like \"72h\", got " ++ v.typeName)

/-- `ParseConfig`. -/
def parseConfig (parseDuration : Bytes → Except Bytes Int) (cfg : Option PluginConfig) :
    Except Bytes Config :=
  match cfg.bind (·.config) with
  | none => .error "logs: no config provided"
  | some raw => match parseJournal raw with
    | .error err => .error err
    | .ok journal => match patterns (setting raw "containers") with
      | .error err => .error ("logs: config.containers: " ++ err)
      | .ok containers => match patterns (setting raw "exclude_containers") with
        | .error err => .error ("logs: config.exclude_containers: " ++ err)
        | .ok excludeContainers =>
            -- Patterns that only exclude leave nothing to back up.
            if journal = false ∧ containers = [] then
              .error ("logs: nothing to back up - set config.journal: true and/or " ++
                "config.containers")
            else (parseWindow parseDuration raw).map fun window =>
              ⟨journal, containers, excludeContainers, window⟩

/-! ### Discovery -/

/-- `listContainersCommand`. -/
def listContainersCommand : Bytes :=
  Shellcmd.build ["docker", "ps", "-a", "--format", "\x7b\x7b.Names\x7d\x7d"]

/-- `matchesAny`. A pattern that is an error does not match. -/
def matchesAny (patterns : List Bytes) (name : Bytes) : Bool :=
  patterns.any fun pat => match pathMatch pat name with
    | .ok matched => matched
    | .error _ => false

/-- The resource of the journal. -/
def journal : Resource := ⟨journalResource, "systemd journal"⟩

/-- The resource of a container. -/
def container (name : Bytes) : Resource := ⟨containerResourcePrefix ++ name, name⟩

/-- The resources of the lines that `docker ps` prints. -/
def discoverLines (cfg : Config) : List Bytes → List Resource
  | [] => []
  | line :: rest =>
      let name := Utf8.trimSpace line
      if name = [] ∨ containerName name = false then discoverLines cfg rest
      else if matchesAny cfg.containers name && !matchesAny cfg.excludeContainers name then
        container name :: discoverLines cfg rest
      else discoverLines cfg rest

/-- `Plugin.Discover`, given what the host answers to a command. -/
def discover (cfg : Config) (exec : Bytes → Except Bytes Bytes) : Except Bytes (List Resource) :=
  let resources := if cfg.journal then [journal] else []
  -- Without a pattern the host is not asked.
  if cfg.containers = [] then .ok resources
  else match exec listContainersCommand with
    | .error err => .error ("logs: list containers: " ++ err)
    | .ok out =>
        let scan := scanLines maxScanTokenSize out none
        match scan.err with
        -- The lines in front of one that is too long are given up with it.
        | some err => .error err
        | none => .ok (resources ++ discoverLines cfg scan.lines)

/-- The names that the patterns choose. -/
def Kept (cfg : Config) (name : Bytes) : Prop :=
  containerName name = true ∧ (∃ pat ∈ cfg.containers, pathMatch pat name = .ok true) ∧
    ¬ ∃ pat ∈ cfg.excludeContainers, pathMatch pat name = .ok true

theorem matchesAny_iff (patterns : List Bytes) (name : Bytes) :
    matchesAny patterns name = true ↔ ∃ pat ∈ patterns, pathMatch pat name = .ok true := by
  unfold matchesAny
  rw [List.any_eq_true]
  refine exists_congr fun pat => and_congr_right fun _ => ?_
  cases pathMatch pat name with
  | ok matched => exact (Except.ok.injEq _ _).symm.to_iff
  | error err => exact ⟨fun h => Bool.noConfusion h, fun h => nomatch h⟩

instance (cfg : Config) (name : Bytes) : Decidable (Kept cfg name) :=
  decidable_of_iff (containerName name = true ∧ matchesAny cfg.containers name = true ∧
    ¬ matchesAny cfg.excludeContainers name = true)
    (and_congr_right fun _ => and_congr (matchesAny_iff _ _) (not_congr (matchesAny_iff _ _)))

/-- The names of the containers that are chosen, in the order of their lines. -/
def keptNames (cfg : Config) (lines : List Bytes) : List Bytes :=
  (lines.map Utf8.trimSpace).filter (fun name => Kept cfg name)

/-- The pattern of the file that a backup makes. -/
def filePattern (res : Resource) : Bytes := "logs-" ++ res.id ++ "-*"

/-- A backup makes a file and runs a command into it, given the command that
    shows what was logged since a time. -/
def BacksUp (cfg : Config) (res : Resource) (command : Time → Bytes) : Prop :=
  ∀ tempDir, backup cfg tempDir res = do
    let started ← op RemoteOp.now
    backupInto "logs" tempDir (filePattern res) (command (started - cfg.window))
      (fun err => "logs: dump " ++ res.id ++ ": " ++ err) res

/-- The script that shows the log of a container. -/
def logScript : Bytes := "exec docker logs --timestamps --since \"$1\" \"$2\" 2>&1"

/-! ### The patterns that are accepted -/

theorem patternItems_wellFormed (i : Nat) (raw : List Dyn) (pats : List Bytes)
    (h : patternItems i raw = .ok pats) :
    ∀ pat ∈ pats, ∀ name, ∃ matched, pathMatch pat name = .ok matched := by
  induction raw generalizing i pats with
  | nil =>
      cases h
      exact fun pat hpat => absurd hpat List.not_mem_nil
  | cons item rest ih =>
      rw [patternItems] at h
      split at h
      · cases h
      · -- Every pattern has been tried on the empty text.
        cases hmatch : pathMatch item.asString [] with
        | error err =>
            rw [hmatch] at h
            cases h
        | ok matched =>
            rw [hmatch] at h
            cases hrest : patternItems (i + 1) rest with
            | error err =>
                rw [hrest] at h
                cases h
            | ok more =>
                rw [hrest] at h
                cases h
                exact List.forall_mem_cons.mpr
                  ⟨pathMatch_ok item.asString [] matched hmatch, ih (i + 1) more hrest⟩

theorem patterns_wellFormed (v : Dyn) (pats : List Bytes) (h : patterns v = .ok pats) :
    ∀ pat ∈ pats, ∀ name, ∃ matched, pathMatch pat name = .ok matched := by
  cases v with
  | nil =>
      cases h
      exact fun pat hpat => absurd hpat List.not_mem_nil
  | list raw => exact patternItems_wellFormed 0 raw pats h
  | _ => cases h

/-- No pattern that was accepted is an error later. -/
theorem parseConfig_wellFormed (parseDuration : Bytes → Except Bytes Int)
    (raw : Option PluginConfig) (cfg : Config) (h : parseConfig parseDuration raw = .ok cfg) :
    ∀ pat ∈ cfg.containers ++ cfg.excludeContainers, ∀ name,
      ∃ matched, pathMatch pat name = .ok matched := by
  unfold parseConfig at h
  split at h
  · cases h
  · split at h
    · cases h
    · split at h
      · cases h
      · next containers hcontainers =>
        split at h
        · cases h
        · next excludeContainers hexclude =>
          split at h
          · cases h
          · -- Both lists of patterns are there, and nothing after them touches either.
            rcases hwindow : parseWindow parseDuration _ with err | window
            · rw [hwindow] at h
              cases h
            · rw [hwindow] at h
              cases h
              intro pat hpat
              rcases List.mem_append.mp hpat with hpat | hpat
              · exact patterns_wellFormed _ _ hcontainers pat hpat
              · exact patterns_wellFormed _ _ hexclude pat hpat

/-! ### What is discovered -/

/-- The names that get through both tests of the loop are those that are kept. -/
theorem kept_iff (cfg : Config) (name : Bytes) :
    Kept cfg name ↔ ¬ (name = [] ∨ containerName name = false) ∧
      (matchesAny cfg.containers name && !matchesAny cfg.excludeContainers name) = true := by
  have hvalid : containerName name = true ↔ ¬ (name = [] ∨ containerName name = false) := by
    rw [not_or, Bool.not_eq_false]
    refine ⟨fun h => ⟨?_, h⟩, And.right⟩
    rintro rfl
    cases h
  rw [Kept, hvalid, ← matchesAny_iff, ← matchesAny_iff, Bool.and_eq_true, Bool.not_eq_true',
    Bool.not_eq_true]

/-- The resources of the lines. -/
theorem discoverLines_eq (cfg : Config) (lines : List Bytes) :
    discoverLines cfg lines = (keptNames cfg lines).map container := by
  induction lines with
  | nil => rfl
  | cons line rest ih =>
      have hkept := kept_iff cfg (Utf8.trimSpace line)
      rw [discoverLines, keptNames, List.map_cons, List.filter_cons, ih, keptNames]
      by_cases hname : Utf8.trimSpace line = [] ∨ containerName (Utf8.trimSpace line) = false
      · -- A line that is no name is skipped before it is matched.
        have hnot : ¬ Kept cfg (Utf8.trimSpace line) := fun h => (hkept.mp h).1 hname
        rw [if_pos hname, if_neg (by rwa [decide_eq_true_eq])]
      · rw [if_neg hname]
        rw [and_iff_right hname] at hkept
        by_cases hmatch : Kept cfg (Utf8.trimSpace line)
        · rw [if_pos (hkept.mp hmatch), if_pos (decide_eq_true hmatch), List.map_cons]
        · rw [if_neg (fun h => hmatch (hkept.mpr h)), if_neg (by rwa [decide_eq_true_eq])]

/-- What a host has logs of, if its answer fits the scanner. -/
theorem discover_eq (cfg : Config) (exec : Bytes → Except Bytes Bytes) (out : Bytes)
    (hexec : exec listContainersCommand = .ok out)
    (hfits : ∀ line ∈ splitLines out, line.length < maxScanTokenSize) :
    discover cfg exec = .ok ((if cfg.journal then [journal] else []) ++
      (keptNames cfg ((splitLines out).map dropCR)).map container) := by
  unfold discover
  dsimp only
  by_cases hnone : cfg.containers = []
  · -- No pattern chooses anything.
    have hkept : keptNames cfg ((splitLines out).map dropCR) = [] := by
      rw [keptNames, List.filter_eq_nil_iff]
      intro name _ hname
      rcases (of_decide_eq_true hname).2.1 with ⟨pat, hpat, _⟩
      rw [hnone] at hpat
      exact List.not_mem_nil hpat
    rw [if_pos hnone, hkept, List.map_nil, List.append_nil]
  · rw [if_neg hnone, hexec]
    dsimp only
    -- No line is too long, so the scanner delivers all of them.
    rw [scanLines, deliver_of_fits _ _ _ hfits, discoverLines_eq]

/-! ### What is backed up -/

theorem backsUp_of_command (cfg : Config) (res : Resource) (command : Time → Bytes)
    (h : ∀ since, logsCommand since res.id = some (command since)) : BacksUp cfg res command := by
  intro tempDir
  unfold backup filePattern
  simp only [h]

theorem logsCommand_journal (since : Time) :
    logsCommand since journal.id = some (journalCommand since) := by
  unfold logsCommand
  exact if_pos rfl

/-- The name of a container is taken out of its resource again. -/
theorem logsCommand_container (since : Time) (name : Bytes) (hname : containerName name = true) :
    logsCommand since (container name).id = some (containerLogsCommand name since) := by
  have hne : (container name).id ≠ journalResource := fun h => by
    cases (List.cons.inj h).1
  -- The prefix is taken off once, whatever the name begins with.
  have hdrop : (container name).id.drop containerResourcePrefix.length = name := List.drop_left
  unfold logsCommand
  dsimp only
  rw [if_neg hne, hdrop, if_pos ⟨List.isPrefixOf_iff_prefix.mpr (List.prefix_append _ _), hname⟩]

/-- The bytes of a name that passes. -/
theorem namePart_of_containerName (name : Bytes) (h : containerName name = true) :
    ∀ b ∈ name, namePart b = true := by
  cases name with
  | nil => exact fun b hb => absurd hb List.not_mem_nil
  | cons c rest =>
      rw [containerName, Bool.and_eq_true, List.all_eq_true] at h
      refine List.forall_mem_cons.mpr ⟨?_, h.2⟩
      unfold namePart
      rw [decide_eq_true_eq]
      exact Or.inl h.1

theorem notMem_of_containerName (name : Bytes) (h : containerName name = true) (c : UInt8)
    (hc : namePart c = false) : c ∉ name := fun hmem =>
  Bool.noConfusion (hc.symm.trans (namePart_of_containerName name h c hmem))

/-- The time a log begins at, as `docker logs` takes it. -/
def sinceText (since : Time) : Bytes := utcDate since ++ "T" ++ utcClock since ++ "Z"

theorem nulFree_sinceText (since : Time) : NulFree (sinceText since) := by
  have hdigits : ∀ width n, NulFree (padDigits width n) := fun width n hmem =>
    absurd (isDigit_padDigits width n 0 hmem) (by decide)
  -- Beside digits there is only punctuation.
  have hmark : ∀ b : UInt8, b ≠ 0 → NulFree [b] := fun b hb hmem =>
    hb (List.mem_singleton.mp hmem).symm
  unfold sinceText utcDate utcClock dateText clockText
  simp only [nulFree_append]
  exact ⟨⟨⟨⟨⟨⟨⟨hdigits _ _, hmark 45 (by decide)⟩, hdigits _ _⟩, hmark 45 (by decide)⟩,
    hdigits _ _⟩, hmark 84 (by decide)⟩, ⟨⟨⟨hdigits _ _, hmark 58 (by decide)⟩, hdigits _ _⟩,
    hmark 58 (by decide)⟩, hdigits _ _⟩, hmark 90 (by decide)⟩

/-- A host reads the command for a container as a shell with a fixed script and
    the name as its second positional parameter. -/
theorem parse_containerLogsCommand (since : Time) (name : Bytes)
    (hname : containerName name = true) :
    Shell.parse (containerLogsCommand name since) = some
      { first := Shell.quotedCommand ["sh", "-c", logScript, "sh", sinceText since, name]
        rest := [] } := by
  refine Shellcmd.parse_build _ (List.cons_ne_nil _ _) ?_
  -- No argument ends early: the script is fixed, and neither a time nor a name holds a zero byte.
  simp only [List.forall_mem_cons]
  refine ⟨?_, ?_, ?_, ?_, nulFree_sinceText since, ?_, fun a ha => absurd ha List.not_mem_nil⟩
  · unfold NulFree
    decide
  · unfold NulFree
    decide
  · unfold NulFree
    decide
  · unfold NulFree
    decide
  · exact notMem_of_containerName name hname 0 (by decide)

/-- What is discovered is the journal, if it is configured, and behind it the
    containers that the patterns choose, in the order of the lines that name
    them, and no pattern is an error. All of it is backed up: the journal with
    its command, and each container with that for its name, which a host reads
    as the second positional parameter of a fixed script. The pattern of the file
    holds no slash. -/
theorem discover_backsUp (parseDuration : Bytes → Except Bytes Int) (raw : Option PluginConfig)
    (cfg : Config) (hcfg : parseConfig parseDuration raw = .ok cfg)
    (exec : Bytes → Except Bytes Bytes) (out : Bytes)
    (hexec : exec listContainersCommand = .ok out)
    (hfits : ∀ line ∈ splitLines out, line.length < maxScanTokenSize) :
    discover cfg exec = .ok ((if cfg.journal then [journal] else []) ++
        (keptNames cfg ((splitLines out).map dropCR)).map container) ∧
      (∀ pat ∈ cfg.containers ++ cfg.excludeContainers, ∀ name,
        ∃ matched, pathMatch pat name = .ok matched) ∧
      BacksUp cfg journal journalCommand ∧ (47 : UInt8) ∉ filePattern journal ∧
      ∀ name ∈ keptNames cfg ((splitLines out).map dropCR),
        (container name).id ≠ journal.id ∧
        BacksUp cfg (container name) (containerLogsCommand name) ∧
        (∀ since, Shell.parse (containerLogsCommand name since) = some
          { first := Shell.quotedCommand ["sh", "-c", logScript, "sh", sinceText since, name]
            rest := [] }) ∧
        (47 : UInt8) ∉ filePattern (container name) := by
  refine ⟨discover_eq cfg exec out hexec hfits, parseConfig_wellFormed parseDuration raw cfg hcfg,
    backsUp_of_command cfg journal journalCommand logsCommand_journal, by decide,
    fun name hkept => ?_⟩
  -- What is kept has passed as a name.
  have hname : containerName name = true := (of_decide_eq_true (List.mem_filter.mp hkept).2).1
  refine ⟨fun h => ?_,
    backsUp_of_command cfg _ _ fun since => logsCommand_container since name hname,
    fun since => parse_containerLogsCommand since name hname, ?_⟩
  · -- The two prefixes differ in their first byte.
    cases (List.cons.inj h).1
  · simp only [filePattern, container, List.mem_append, not_or]
    exact ⟨⟨by decide, by decide, notMem_of_containerName name hname 47 (by decide)⟩, by decide⟩

/-! ### Every container but some -/

/-- The configuration of a host whose containers are all kept, but for some. -/
def siteConfig : PluginConfig :=
  ⟨some [("journal", .bool true), ("containers", Dyn.ofStrings ["*"]),
    ("exclude_containers", Dyn.ofStrings ["informix-*"])]⟩

/-- It keeps two of the names, of which one begins like a resource. -/
theorem discover_backsUp_site :
    discover ⟨true, ["*"], ["informix-*"], defaultWindow⟩
        (fun _ => .ok "web\ninformix-ac\n$(evil)\ncontainer-web\r\n") =
      .ok [journal, container "web", container "container-web"] := by
  -- The window is the default, so nothing is parsed as a duration.
  have hcfg : parseConfig (fun _ => .error []) (some siteConfig) =
      .ok ⟨true, ["*"], ["informix-*"], defaultWindow⟩ := by rfl
  refine (discover_backsUp (fun _ => .error []) (some siteConfig) _ hcfg
    (fun _ => .ok "web\ninformix-ac\n$(evil)\ncontainer-web\r\n") _ rfl ?_).1.trans ?_
  · decide +kernel
  · decide +kernel

end Logs

end Bop
