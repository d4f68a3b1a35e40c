import Bop.Storage.Restic
import Bop.Text.Flags

/-!
# How Restic Reads Its Arguments

What a command does is decided by the arguments restic is run with, and the
provider writes only the first of them: the operator's extra arguments follow
and may say anything, also what the provider has said already. Restic is known
by what it documents. It has the options the provider uses, the last value of
an option counts where only one can, and a list with an option it does not know
is refused. Which other options there are, and what they do, is left open.

The provider's own arguments are complete in themselves, so a command says what
the provider asks for and after it what the extra arguments say
(`read_fullArgs`).

## Main definitions

* `StoredSnapshot`: A snapshot as restic keeps it.
* `Restic`: What is known of the binary.
* `ResticCommand`, `Restic.read`: A command as restic reads it.
* `ResticCommand.forgets`: A retention.
* `ResticCommand.repository`, `ResticCommand.considers`: Its repository and its
  hosts.
* `storeGiven`, `forgetGiven`: What the provider asks for.
* `Restic.Direct`: A command without other options that matter.
* `Restic.Within`: The options the extra arguments keep to.

## Theorems

* `read_fullArgs`: A command of the provider.
* `read_storeArgs`, `read_forgetArgs`: A backup and a retention.
-/

namespace Bop

/-- A snapshot as restic keeps it. -/
structure StoredSnapshot where
  id : SnapshotID
  hostname : Bytes
  tags : List Bytes
  time : Time
  deriving DecidableEq

abbrev repoFlag : Bytes := "--repo"

abbrev jsonFlag : Bytes := "--json"

abbrev groupFlag : Bytes := "--group-by"

abbrev hostFlag : Bytes := "--host"

abbrev tagFlag : Bytes := "--tag"

abbrev pruneFlag : Bytes := "--prune"

abbrev helpFlag : Bytes := "--help"

/-- The options that say which snapshots a retention keeps. -/
def keepFlags : List Bytes := ["--keep-daily", "--keep-weekly", "--keep-monthly", "--keep-yearly"]

/-- The options the provider uses. -/
def ownFlags : List Bytes :=
  [repoFlag, jsonFlag, groupFlag, hostFlag, tagFlag, pruneFlag] ++ keepFlags

/-- How snapshots are grouped. -/
abbrev hostTags : Bytes := "host,tags"

/-- What a keep option with its values keeps of a group. -/
abbrev KeepRule := Bytes → List Bytes → List StoredSnapshot → List StoredSnapshot

/-- What is known of restic. -/
structure Restic where
  /-- The options of each command. -/
  table : Bytes → FlagTable
  /-- The options that bear on how a command works and not on what it does. -/
  inert : Bytes → Bool
  /-- The tags that the values of `--tag` give a snapshot. -/
  tags : List Bytes → List Bytes
  /-- The snapshots that an option with its values leaves out of a retention. -/
  leavesOut : Bytes → List Bytes → StoredSnapshot → Bool
  /-- The snapshots that `--group-by` puts into one group. -/
  groups : Bytes → StoredSnapshot → StoredSnapshot → Bool
  keeps : KeepRule
  /-- The snapshots an operand names. -/
  names : Bytes → StoredSnapshot → Bool
  takes_repo : ∀ command repository, (table command).Takes repoFlag repository
  takes_json : ∀ command ∈ (["backup", "snapshots"] : List Bytes),
    (table command).StandsFor jsonFlag "true"
  takes_group : ∀ command ∈ (["backup", "forget"] : List Bytes),
    (table command).Takes groupFlag hostTags
  takes_host : ∀ command ∈ (["backup", "forget"] : List Bytes), ∀ host,
    (table command).Takes hostFlag host
  takes_tag : ∀ tag, (table "backup").Takes tagFlag tag
  takes_prune : (table "forget").StandsFor pruneFlag "true"
  takes_keep : ∀ name ∈ keepFlags, ∀ n : Int, 0 < n → (table "forget").Takes name (itoa n)
  inert_other : ∀ name, inert name = true → name ∉ ownFlags
  inert_leavesOut : ∀ name values t, inert name = true → leavesOut name values t = false
  own_leavesOut : ∀ name ∈ keepFlags ++ [repoFlag, groupFlag, hostFlag, pruneFlag],
    ∀ values t, leavesOut name values t = false
  groups_hostTags : ∀ t u, groups hostTags t u = (u.hostname = t.hostname ∧ u.tags = t.tags : Bool)

/-- A command as restic reads it. -/
structure ResticCommand where
  name : Bytes
  given : Given

namespace ResticCommand

/-- The command applies a retention, and is no request for its help text. -/
def forgets (c : ResticCommand) : Prop :=
  c.name = "forget" ∧ c.given.last helpFlag ≠ some "true"

/-- The repository a command works on. -/
def repository (c : ResticCommand) : Bytes := (c.given.last repoFlag).getD []

/-- A command that is about snapshots is about those of this host: it names the
    host, or none. -/
def considers (c : ResticCommand) (hostname : Bytes) : Bool :=
  c.given.values hostFlag = [] || [] ∈ c.given.values hostFlag ||
    hostname ∈ c.given.values hostFlag

end ResticCommand

namespace Restic

variable (r : Restic)

/-- The command stands behind the repository. -/
def read : List Bytes → Option ResticCommand
  | flag :: repository :: name :: args =>
      ((r.table name).parse (flag :: repository :: args)).map (ResticCommand.mk name)
  | _ => none

/-- The command has no options but those the provider uses and those that bear
    on how it works. -/
def Direct (cmd : ResticCommand) : Prop :=
  ∀ kv ∈ cmd.given.flags, kv.1 ∈ ownFlags ∨ r.inert kv.1 = true

/-- The extra arguments give no operand and only such options, for this command. -/
def Within (S : Bytes → Prop) (p : ResticProvider) (command : Bytes) : Prop :=
  ∀ extra, (r.table command).parse p.extraArgs = some extra →
    extra.operands = [] ∧ ∀ kv ∈ extra.flags, S kv.1

end Restic

variable (r : Restic) (p : ResticProvider)

/-- Options that only bear on how a command works say nothing of what the
    provider asks for. -/
theorem values_of_inert (extra : Given) (h : ∀ kv ∈ extra.flags, r.inert kv.1 = true)
    (name : Bytes) (hname : name ∈ ownFlags) : extra.values name = [] := by
  refine Given.values_eq_nil _ _ fun kv hkv heq => ?_
  have hother := r.inert_other kv.1 (h kv hkv)
  rw [heq] at hother
  exact hother hname

theorem last_of_inert (extra : Given) (h : ∀ kv ∈ extra.flags, r.inert kv.1 = true)
    (name : Bytes) (hname : name ∈ ownFlags) : extra.last name = none := by
  rw [Given.last, values_of_inert r extra h name hname, List.getLast?_nil]

/-- The provider's own arguments are complete, and the extra ones follow. -/
theorem read_fullArgs (name : Bytes) (args : List Bytes) (g : Given)
    (h : (r.table name).scan (ArgScan.onward .empty) (repoFlag :: p.repository :: args) =
      some (ArgScan.onward g)) :
    r.read (p.fullArgs (name :: args)) =
      ((r.table name).parse p.extraArgs).map fun extra => ⟨name, g.append extra⟩ := by
  change ((r.table name).parse (repoFlag :: p.repository :: (args ++ p.extraArgs))).map
    (ResticCommand.mk name) = _
  rw [← List.cons_append, ← List.cons_append, FlagTable.parse_append _ _ g h, Option.map_map]
  rfl

/-- A command keeps its name, whatever follows. -/
theorem read_name (name : Bytes) (args : List Bytes) (cmd : ResticCommand)
    (h : r.read (p.fullArgs (name :: args)) = some cmd) : cmd.name = name := by
  rcases Option.map_eq_some_iff.mp h with ⟨given, _, rfl⟩
  rfl

/-- The repository, which every command is given first. -/
theorem scan_repo (name : Bytes) (args : List Bytes) :
    (r.table name).scan (ArgScan.onward .empty) (repoFlag :: p.repository :: args) =
      (r.table name).scan (ArgScan.onward ⟨[(repoFlag, p.repository)], []⟩) args :=
  FlagTable.scan_valued _ _ _ _ (by decide) (r.takes_repo name p.repository)

/-- An option that is given under a condition. -/
theorem optional_option (cond : Prop) [Decidable cond] (name value : Bytes) :
    (if cond then [(name, value)] else []).flatMap (fun kv => option kv.1 kv.2) =
      if cond then option name value else [] := by
  split <;> rfl

/-- A list of options with their values. -/
theorem scan_options (t : FlagTable) (g : Given) (kvs : List (Bytes × Bytes))
    (h : ∀ kv ∈ kvs, Arg.of kv.1 = .long kv.1 none ∧ t.Takes kv.1 kv.2) :
    t.scan (ArgScan.onward g) (kvs.flatMap fun kv => option kv.1 kv.2) =
      some (ArgScan.onward (g.append ⟨kvs, []⟩)) := by
  induction kvs generalizing g with
  | nil => exact congrArg (fun g => some (ArgScan.onward g)) g.append_empty.symm
  | cons kv kvs ih =>
      rcases h kv List.mem_cons_self with ⟨hname, htakes⟩
      rw [List.flatMap_cons, option, List.cons_append, List.cons_append, List.nil_append,
        FlagTable.scan_valued _ _ _ _ hname htakes,
        ih _ fun kv' hkv' => h kv' (List.mem_cons_of_mem _ hkv'), Given.append_assoc]
      rfl

/-- The option that names a host, if there is one. -/
def hostOption (host : Bytes) : List (Bytes × Bytes) :=
  if host ≠ [] then [(hostFlag, host)] else []

theorem mem_hostOption (host : Bytes) (kv : Bytes × Bytes) (h : kv ∈ hostOption host) :
    kv = (hostFlag, host) := by
  unfold hostOption at h
  split at h
  · exact List.mem_singleton.mp h
  · cases h

/-! ### Backups -/

/-- The options that name a plugin and a resource, where there is one. -/
def tagOptions (a : Artifact) : List (Bytes × Bytes) :=
  (if a.plugin ≠ [] then [(tagFlag, "plugin:" ++ a.plugin)] else []) ++
    (if a.resourceID ≠ [] then [(tagFlag, "resource:" ++ a.resourceID)] else [])

theorem mem_tagOptions (a : Artifact) (kv : Bytes × Bytes) (h : kv ∈ tagOptions a) :
    kv.1 = tagFlag := by
  rcases List.mem_append.mp h with h | h
  · split at h
    · rw [List.mem_singleton.mp h]
    · cases h
  · split at h
    · rw [List.mem_singleton.mp h]
    · cases h

/-- What a backup asks for. -/
def storeGiven (a : Artifact) : Given where
  flags := [(repoFlag, p.repository), (jsonFlag, "true"), (groupFlag, hostTags)] ++
    (hostOption a.host ++ tagOptions a)
  operands := [a.path]

theorem storeArgs_eq (a : Artifact) : ResticProvider.storeArgs a =
    ("backup" : Bytes) :: a.path :: jsonFlag :: groupFlag :: hostTags ::
      (hostOption a.host ++ tagOptions a).flatMap fun kv => option kv.1 kv.2 := by
  simp only [List.flatMap_append, hostOption, tagOptions, optional_option,
    ResticProvider.storeArgs, List.append_assoc, List.cons_append, List.nil_append]

/-- A backup of an artifact whose path is no option. -/
theorem read_storeArgs (a : Artifact) (hpath : a.path.head? ≠ some 45) :
    r.read (p.fullArgs (ResticProvider.storeArgs a)) =
      ((r.table "backup").parse p.extraArgs).map fun extra =>
        ⟨"backup", (storeGiven p a).append extra⟩ := by
  rw [storeArgs_eq]
  refine read_fullArgs r p _ _ _ ?_
  rw [scan_repo, FlagTable.scan_operand _ _ _ hpath,
    FlagTable.scan_alone _ _ _ _ (by decide) (r.takes_json _ List.mem_cons_self),
    FlagTable.scan_valued _ _ _ _ (by decide) (r.takes_group _ List.mem_cons_self),
    scan_options _ _ _ fun kv hkv => ?_]
  · rfl
  · rcases List.mem_append.mp hkv with hkv | hkv
    · rw [mem_hostOption _ _ hkv]
      exact ⟨(by decide : Arg.of hostFlag = .long hostFlag none),
        r.takes_host _ List.mem_cons_self _⟩
    · rw [mem_tagOptions _ _ hkv]
      exact ⟨by decide, r.takes_tag _⟩

/-! ### Retentions -/

/-- The values of a policy that are passed on. -/
def keptOptions (policy : Policy) : List (Bytes × Int) :=
  (keepOptions policy).filter (fun kv => 0 < kv.2)

theorem keptOptions_flag (policy : Policy) (kv : Bytes × Int) (h : kv ∈ keptOptions policy) :
    kv.1 ∈ keepFlags ∧ 0 < kv.2 := by
  rcases List.mem_filter.mp h with ⟨hkv, hpos⟩
  refine ⟨?_, of_decide_eq_true hpos⟩
  have hnames : (keepOptions policy).map Prod.fst = keepFlags := rfl
  rw [← hnames]
  exact List.mem_map_of_mem hkv

/-- What a retention asks for. -/
def forgetGiven (host : Bytes) (policy : Policy) : Given where
  flags := [(repoFlag, p.repository), (groupFlag, hostTags), (pruneFlag, "true")] ++
    (hostOption host ++ (keptOptions policy).map fun kv => (kv.1, itoa kv.2))
  operands := []

theorem forgetArgs_eq (host : Bytes) (policy : Policy) : ResticProvider.forgetArgs host policy =
    ("forget" : Bytes) :: groupFlag :: hostTags :: pruneFlag ::
      (hostOption host ++ (keptOptions policy).map fun kv => (kv.1, itoa kv.2)).flatMap
        fun kv => option kv.1 kv.2 := by
  simp only [List.flatMap_append, hostOption, optional_option, List.flatMap_map,
    ResticProvider.forgetArgs, keepArgs, keptOptions, List.cons_append, List.nil_append]

/-- A retention. -/
theorem read_forgetArgs (host : Bytes) (policy : Policy) :
    r.read (p.fullArgs (ResticProvider.forgetArgs host policy)) =
      ((r.table "forget").parse p.extraArgs).map fun extra =>
        ⟨"forget", (forgetGiven p host policy).append extra⟩ := by
  have hforget : ("forget" : Bytes) ∈ (["backup", "forget"] : List Bytes) :=
    List.mem_cons_of_mem _ List.mem_cons_self
  rw [forgetArgs_eq]
  refine read_fullArgs r p _ _ _ ?_
  rw [scan_repo, FlagTable.scan_valued _ _ _ _ (by decide) (r.takes_group _ hforget),
    FlagTable.scan_alone _ _ _ _ (by decide) r.takes_prune, scan_options _ _ _ fun kv hkv => ?_]
  · rfl
  · rcases List.mem_append.mp hkv with hkv | hkv
    · rw [mem_hostOption _ _ hkv]
      exact ⟨(by decide : Arg.of hostFlag = .long hostFlag none), r.takes_host _ hforget _⟩
    · rcases List.mem_map.mp hkv with ⟨kv', hkv', rfl⟩
      rcases keptOptions_flag _ _ hkv' with ⟨hname, hpos⟩
      refine ⟨?_, r.takes_keep _ hname _ hpos⟩
      have hlong : ∀ name ∈ keepFlags, Arg.of name = .long name none := by decide
      exact hlong _ hname

/-- Every option of a retention is given once. -/
theorem forgetGiven_nodup (host : Bytes) (policy : Policy) :
    ((forgetGiven p host policy).flags.map Prod.fst).Nodup := by
  have hall : ([repoFlag, groupFlag, pruneFlag, hostFlag] ++ keepFlags).Nodup := by decide
  refine hall.sublist ?_
  simp only [forgetGiven, List.map_append, List.map_cons, List.cons_append, List.nil_append,
    List.map_map]
  refine List.Sublist.cons_cons _ (List.Sublist.cons_cons _ (List.Sublist.cons_cons _ ?_))
  have hkept : ((keptOptions policy).map Prod.fst).Sublist keepFlags :=
    List.filter_sublist.map Prod.fst
  have hhost : ((hostOption host).map Prod.fst).Sublist [hostFlag] := by
    unfold hostOption
    split
    · exact List.Sublist.refl _
    · exact List.nil_sublist _
  exact hhost.append hkept

/-- So each has the value it is given. -/
theorem forgetGiven_values (host : Bytes) (policy : Policy) (name value : Bytes)
    (h : (name, value) ∈ (forgetGiven p host policy).flags) :
    (forgetGiven p host policy).values name = [value] :=
  Given.values_eq_singleton _ (forgetGiven_nodup p host policy) name value h

theorem forgetGiven_last (host : Bytes) (policy : Policy) (name value : Bytes)
    (h : (name, value) ∈ (forgetGiven p host policy).flags) :
    (forgetGiven p host policy).last name = some value := by
  rw [Given.last, forgetGiven_values p host policy name value h, List.getLast?_singleton]

/-- The options a retention uses. -/
theorem forgetGiven_flags (host : Bytes) (policy : Policy) (kv : Bytes × Bytes)
    (h : kv ∈ (forgetGiven p host policy).flags) :
    kv.1 ∈ keepFlags ++ [repoFlag, groupFlag, hostFlag, pruneFlag] := by
  simp only [forgetGiven, List.mem_append, List.mem_cons, List.not_mem_nil, or_false,
    List.mem_map] at h
  have hone : ∀ name ∈ [repoFlag, groupFlag, hostFlag, pruneFlag],
      name ∈ keepFlags ++ [repoFlag, groupFlag, hostFlag, pruneFlag] :=
    fun _ hname => List.mem_append_right _ hname
  rcases h with (rfl | rfl | rfl) | h | ⟨kv', hkv', rfl⟩
  · exact hone repoFlag (by decide)
  · exact hone groupFlag (by decide)
  · exact hone pruneFlag (by decide)
  · rw [mem_hostOption _ _ h]
    exact hone hostFlag (by decide)
  · exact List.mem_append_left _ (keptOptions_flag _ _ hkv').1

/-! ### A restic with some of its options -/

/-- Some options that every command has, each with the value it has alone. -/
def commonOptions : List (Bytes × Option Bytes) :=
  [(repoFlag, none), (jsonFlag, some "true"), (helpFlag, some "true"), ("--verbose", some "+1"),
    ("--no-lock", some "true")]

/-- Some options of the commands that change a repository. -/
def commandOptions (command : Bytes) : List (Bytes × Option Bytes) :=
  if command = "backup" then
    [(groupFlag, none), (hostFlag, none), (tagFlag, none), ("--exclude", none)]
  else if command = "forget" then
    [(groupFlag, none), (hostFlag, none), (tagFlag, none), (pruneFlag, some ("true" : Bytes))] ++
      keepFlags.map fun name => (name, none)
  else []

/-- The options of a command, and the one with a letter. -/
def sampleTable (command : Bytes) : FlagTable where
  entry := fun name => (commonOptions ++ commandOptions command).lookup name
  short := fun b => if b = 118 then some "--verbose" else none
  accepts := fun _ _ => true

/-- The options that bear on how restic works. -/
def sampleInert (name : Bytes) : Bool := name = "--verbose" || name = "--no-lock"

/-- Where tags are given, a retention leaves out the snapshots with none of them. -/
def sampleLeavesOut (name : Bytes) (values : List Bytes) (t : StoredSnapshot) : Bool :=
  name = tagFlag && !values.isEmpty && values.all fun tag => !t.tags.contains tag

/-- One group for each host with each set of tags. -/
def sampleGroups (_ : Bytes) (t u : StoredSnapshot) : Bool :=
  u.hostname = t.hostname ∧ u.tags = t.tags

section Sample

theorem sample_repo (command repository : Bytes) :
    (sampleTable command).Takes repoFlag repository := ⟨rfl, rfl⟩

theorem sample_json : ∀ command ∈ (["backup", "snapshots"] : List Bytes),
    (sampleTable command).StandsFor jsonFlag "true" := fun _ _ => ⟨rfl, rfl⟩

theorem sample_taken (name : Bytes) (h : name = groupFlag ∨ name = hostFlag) (value : Bytes) :
    ∀ command ∈ (["backup", "forget"] : List Bytes), (sampleTable command).Takes name value := by
  intro command hcommand
  simp only [List.mem_cons, List.not_mem_nil, or_false] at hcommand
  rcases h with rfl | rfl
  · rcases hcommand with rfl | rfl
    · exact ⟨rfl, rfl⟩
    · exact ⟨rfl, rfl⟩
  · rcases hcommand with rfl | rfl
    · exact ⟨rfl, rfl⟩
    · exact ⟨rfl, rfl⟩

theorem sample_group : ∀ command ∈ (["backup", "forget"] : List Bytes),
    (sampleTable command).Takes groupFlag hostTags := sample_taken groupFlag (Or.inl rfl) hostTags

theorem sample_host (command : Bytes) (h : command ∈ (["backup", "forget"] : List Bytes))
    (host : Bytes) : (sampleTable command).Takes hostFlag host :=
  sample_taken hostFlag (Or.inr rfl) host command h

theorem sample_tag (tag : Bytes) : (sampleTable "backup").Takes tagFlag tag := ⟨rfl, rfl⟩

theorem sample_prune : (sampleTable "forget").StandsFor pruneFlag "true" := ⟨rfl, rfl⟩

theorem sample_keep (name : Bytes) (h : name ∈ keepFlags) (n : Int) (_ : 0 < n) :
    (sampleTable "forget").Takes name (itoa n) := by
  have hall : ∀ name ∈ keepFlags,
      (commonOptions ++ commandOptions "forget").lookup name = some none := by decide +kernel
  exact ⟨hall name h, rfl⟩

theorem sample_inert (name : Bytes) (h : sampleInert name = true) :
    name = "--verbose" ∨ name = "--no-lock" := by
  simpa only [sampleInert, Bool.or_eq_true, decide_eq_true_eq] using h

theorem sample_other (name : Bytes) (h : sampleInert name = true) : name ∉ ownFlags := by
  rcases sample_inert name h with rfl | rfl
  · decide
  · decide

theorem sample_leaves (name : Bytes) (values : List Bytes) (t : StoredSnapshot)
    (h : name ≠ tagFlag) : sampleLeavesOut name values t = false := by
  simp only [sampleLeavesOut, decide_eq_false h, Bool.false_and]

theorem sample_leaves_inert (name : Bytes) (values : List Bytes) (t : StoredSnapshot)
    (h : sampleInert name = true) : sampleLeavesOut name values t = false := by
  refine sample_leaves name values t ?_
  rintro rfl
  exact absurd h (by decide)

theorem sample_leaves_own (name : Bytes)
    (h : name ∈ keepFlags ++ [repoFlag, groupFlag, hostFlag, pruneFlag]) (values : List Bytes)
    (t : StoredSnapshot) : sampleLeavesOut name values t = false := by
  refine sample_leaves name values t ?_
  rintro rfl
  exact absurd h (by decide)

theorem sample_groups (t u : StoredSnapshot) :
    sampleGroups hostTags t u = (u.hostname = t.hostname ∧ u.tags = t.tags : Bool) := rfl

end Sample

/-- A restic with these options and this rule. -/
def sampleRestic (keeps : KeepRule) : Restic where
  table := sampleTable
  inert := sampleInert
  tags := id
  leavesOut := sampleLeavesOut
  groups := sampleGroups
  keeps := keeps
  names := fun operand t => operand.isPrefixOf t.id
  takes_repo := sample_repo
  takes_json := sample_json
  takes_group := sample_group
  takes_host := sample_host
  takes_tag := sample_tag
  takes_prune := sample_prune
  takes_keep := sample_keep
  inert_other := sample_other
  inert_leavesOut := sample_leaves_inert
  own_leavesOut := sample_leaves_own
  groups_hostTags := sample_groups

end Bop
