import Bop.Plugin.Filesystem.Plugin

/-!
# Where a Test Extracts

The directory of a restore test is the resource's path, marked as a test,
joined to a base. The test creates the directory, and deletes it recursively
when it is done, so it had better be below the base.

Joining cleans. The path is absolute, but that does not keep it below: each
`..` it has no name left for takes a name of the base away, and those that
lead above the root are forgotten, which they are not when the path is cleaned
on its own. So a path may climb out of the base; it is back below only if it
comes down again through the names it climbed over. And it may come back as
the place that another path, which climbed less, has there.

## Main definitions

* `scratchDir`: The directory of a path's test.
* `parents`, `climb`: Where a path's directory leads, and how far out of the
  base it climbs.
* `Returns`, `below`: The path comes back, and what it is below the base then.
* `Contained`: The paths of a configuration keep below the base, and apart.

## Theorems

* `scratch_contained_iff`: Tests keep below the base and apart from each other
  if the paths do.
-/

namespace Bop

namespace Filesystem

open Paths

/-- The directory of a path's test. -/
def scratchDir (p : Bytes) : Bytes := restoreTarget (p ++ restoreTestSuffix)

/-- The names of the base. -/
def baseNames : List Bytes := ["tmp", "bop-restore-test"]

/-- Where everything before the last slash of a path leads. -/
def parents (p : Bytes) : Walk := walk (elems (split p).1)

/-- How many names of the base a path takes back. -/
def climb (p : Bytes) : Nat := min baseNames.length (parents p).up

/-- The path comes down again through the names of the base it took back. -/
def Returns (p : Bytes) : Prop :=
  baseNames.drop (baseNames.length - climb p) <+: (parents p).down

instance (p : Bytes) : Decidable (Returns p) := by
  unfold Returns
  infer_instance

/-- The directory that a path which comes back has below the base. -/
def below (p : Bytes) : List Bytes := (parents p).down.drop (climb p)

/-- The paths of a configuration keep below the base, and those that climb
    apart from those that climb less. Two paths to the root need not. -/
def Contained (cfg : Config) : Prop :=
  (∀ p ∈ cfg.paths, Returns p) ∧
  ∀ p ∈ cfg.paths, ∀ q ∈ cfg.paths, climb p < climb q → below p = below q →
    (split p).2 = (split q).2 → below p = [] ∧ (split p).2 = ".." ∧ climb q = 1

instance (cfg : Config) : Decidable (Contained cfg) := by
  unfold Contained
  infer_instance

/-- The last name of a test's directory. -/
def scratchName (p : Bytes) : Bytes := (split p).2 ++ restoreTestSuffix

theorem suffix_noSlash : (47 : UInt8) ∉ restoreTestSuffix := by decide

theorem baseNames_proper : ∀ e ∈ baseNames, Proper e := by
  unfold Proper
  decide

/-- A marked element is a name, whatever it was. -/
theorem scratchName_proper (p : Bytes) : Proper (scratchName p) := by
  -- The mark is longer than a dot or two.
  have hlen : (scratchName p).length = (split p).2.length + 11 := by
    rw [scratchName, List.length_append]
    rfl
  refine ⟨?_, ?_, ?_, ?_⟩
  · intro h
    rw [h, List.length_nil] at hlen
    omega
  · rw [scratchName, List.mem_append, not_or]
    exact ⟨split_file p, suffix_noSlash⟩
  · intro h
    rw [h, show (Bytes.ofString ".").length = 1 from rfl] at hlen
    omega
  · intro h
    rw [h, show (Bytes.ofString "..").length = 2 from rfl] at hlen
    omega

/-- A path with a leading slash holds one. -/
theorem slash_mem (p : Bytes) (hp : p.head? = some 47) : (47 : UInt8) ∈ p :=
  List.mem_of_mem_head? hp

/-- Where the last element of a path leads. -/
def lastStep (p : Bytes) : Walk := walk (if (split p).2 = [] then [] else [(split p).2])

/-- It takes back one name if it is `..`, and none otherwise. -/
theorem lastStep_up (p : Bytes) :
    (lastStep p).up ≤ 1 ∧ ((lastStep p).up = 1 ↔ (split p).2 = "..") := by
  unfold lastStep
  by_cases hnil : (split p).2 = []
  · rw [if_pos hnil, hnil]
    decide
  rw [if_neg hnil, walk, List.foldl_cons, List.foldl_nil, Walk.step]
  by_cases hdot : (split p).2 = "."
  · rw [if_pos hdot, hdot]
    decide
  rw [if_neg hdot]
  by_cases hup : (split p).2 = ".."
  · rw [if_pos hup, if_pos rfl, hup]
    decide
  · rw [if_neg hup]
    exact ⟨Nat.zero_le 1, fun h => absurd h Nat.zero_ne_one, fun h => absurd h hup⟩

/-- What a path on its own leads down through. -/
theorem walk_path (p : Bytes) (hp : p.head? = some 47) :
    walk (elems p) = (parents p).andThen (lastStep p) := by
  have hext := elems_extend p [] (slash_mem p hp) List.not_mem_nil
  rw [List.append_nil, List.append_nil] at hext
  rw [hext, walk_append, parents, lastStep]

/-- What it leads down through when it is marked and below the base. -/
theorem walk_scratch (p : Bytes) (hp : p.head? = some 47) :
    (walk (elems (restoreTestBase ++ 47 :: (p ++ restoreTestSuffix)))).down =
      baseNames.take (baseNames.length - climb p) ++ (parents p).down ++ [scratchName p] := by
  have hname := scratchName_proper p
  have hbase : walk (elems restoreTestBase) = ⟨0, baseNames⟩ := by decide
  have hlast : walk [scratchName p] = ⟨0, [scratchName p]⟩ :=
    walk_names _ (by rw [List.forall_mem_singleton]; exact hname)
  have hclimb : baseNames.length - climb p = baseNames.length - (parents p).up := by
    rw [climb]
    omega
  rw [elems_append, elems_extend p restoreTestSuffix (slash_mem p hp) suffix_noSlash,
    ← scratchName, if_neg hname.1, walk_append, walk_append, hbase, hlast, ← parents, hclimb]
  simp only [Walk.andThen, Nat.zero_sub, Nat.add_zero, Nat.zero_add, Nat.sub_zero,
    List.take_length, List.append_assoc]

/-- The directory of a path's test. -/
theorem scratchDir_eq (p : Bytes) (hp : p.head? = some 47) : scratchDir p =
    descent (baseNames.take (baseNames.length - climb p) ++ (parents p).down ++
      [scratchName p]) := by
  have hmarked : hasSuffix (p ++ restoreTestSuffix) restoreTestSuffix = true :=
    List.isSuffixOf_iff_suffix.mpr (List.suffix_append p _)
  have hrooted : (restoreTestBase ++ 47 :: (p ++ restoreTestSuffix)).head? = some 47 := rfl
  have hjoin : pathJoin [restoreTestBase, p ++ restoreTestSuffix] =
      clean (restoreTestBase ++ 47 :: (p ++ restoreTestSuffix)) := by
    have hsome : ¬ ∀ e ∈ ([restoreTestBase, p ++ restoreTestSuffix] : List Bytes), e = [] :=
      fun h => absurd (h restoreTestBase List.mem_cons_self) (by decide)
    rw [pathJoin, if_neg hsome]
    rfl
  rw [scratchDir, restoreTarget, if_pos hmarked, hjoin, clean_rooted _ hrooted, walk_scratch p hp]
  exact slash_join _ (List.append_ne_nil_of_right_ne_nil _ (List.cons_ne_nil _ _))

/-- A path that comes back goes down through the names it took back first. -/
theorem down_eq (p : Bytes) (h : Returns p) :
    (parents p).down = baseNames.drop (baseNames.length - climb p) ++ below p := by
  rcases h with ⟨rest, hrest⟩
  have hlen : (baseNames.drop (baseNames.length - climb p)).length = climb p := by
    have hle : climb p ≤ baseNames.length := Nat.min_le_left _ _
    rw [List.length_drop]
    omega
  rw [below, ← hrest]
  congr 1
  exact (List.drop_left' hlen).symm

/-- The directory of a test whose path comes back. -/
theorem scratchDir_returns (p : Bytes) (hp : p.head? = some 47) (h : Returns p) :
    scratchDir p = restoreTestBase ++ descent (below p ++ [scratchName p]) := by
  rw [scratchDir_eq p hp, down_eq p h, ← List.append_assoc (List.take _ _),
    List.take_append_drop, List.append_assoc]
  rfl

/-- What comes after the base in the directory of a test. -/
theorem scratchNames_proper (p : Bytes) : ∀ e ∈ below p ++ [scratchName p], Proper e := by
  intro e he
  rcases List.mem_append.mp he with he | he
  · exact walk_elems_proper _ e (List.mem_of_mem_drop he)
  · rw [List.mem_singleton.mp he]
    exact scratchName_proper p

/-- A test keeps below the base if its path comes back. -/
theorem strictlyBelow_iff (p : Bytes) (hp : p.head? = some 47) :
    StrictlyBelow restoreTestBase (scratchDir p) ↔ Returns p := by
  constructor
  · rintro ⟨names, hne, hproper, heq⟩
    have htaken : ∀ e ∈ baseNames.take (baseNames.length - climb p) ++ (parents p).down ++
        [scratchName p], Proper e := by
      intro e he
      rcases List.mem_append.mp he with he | he
      · rcases List.mem_append.mp he with he | he
        · exact baseNames_proper e (List.mem_of_mem_take he)
        · exact walk_elems_proper _ e he
      · rw [List.mem_singleton.mp he]
        exact scratchName_proper p
    have helems := congrArg elems heq
    rw [scratchDir_eq p hp, ← List.nil_append (descent _), elems_descent _ _ htaken,
      elems_descent _ _ hproper, show elems restoreTestBase = baseNames by decide,
      show elems [] = [] from rfl, List.nil_append] at helems
    -- Without the last name of either, the base's names are still in front.
    rw [← List.dropLast_append_getLast hne, ← List.append_assoc] at helems
    have hinit := (List.append_inj' helems rfl).1
    have hsplit : baseNames.take (baseNames.length - climb p) ++ (parents p).down =
        baseNames.take (baseNames.length - climb p) ++
          (baseNames.drop (baseNames.length - climb p) ++ names.dropLast) := by
      rw [hinit, ← List.append_assoc, List.take_append_drop]
    exact ⟨_, (List.append_cancel_left hsplit).symm⟩
  · intro h
    exact ⟨below p ++ [scratchName p],
      List.append_ne_nil_of_right_ne_nil _ (List.cons_ne_nil _ _), scratchNames_proper p,
      scratchDir_returns p hp h⟩

/-- Two paths that come back share a directory if they come back to the same
    place. -/
theorem scratchDir_eq_iff (p q : Bytes) (hp : p.head? = some 47) (hq : q.head? = some 47)
    (hrp : Returns p) (hrq : Returns q) :
    scratchDir p = scratchDir q ↔ below p = below q ∧ (split p).2 = (split q).2 := by
  rw [scratchDir_returns p hp hrp, scratchDir_returns q hq hrq]
  constructor
  · intro h
    have helems := congrArg elems h
    rw [elems_descent _ _ (scratchNames_proper p), elems_descent _ _ (scratchNames_proper q)]
      at helems
    have hnames := List.append_inj' (List.append_cancel_left helems) rfl
    exact ⟨hnames.1, List.append_cancel_right (List.singleton_injective hnames.2)⟩
  · rintro ⟨hbelow, hfile⟩
    rw [hbelow, scratchName, hfile, ← scratchName]

/-- Two paths with the same last element that climb as far and come back to the
    same place are the same path. -/
theorem clean_eq_of_climb_eq (p q : Bytes) (hp : p.head? = some 47) (hq : q.head? = some 47)
    (hrp : Returns p) (hrq : Returns q) (hclimb : climb p = climb q) (hbelow : below p = below q)
    (hfile : (split p).2 = (split q).2) : clean p = clean q := by
  have hdown : (parents p).down = (parents q).down := by
    rw [down_eq p hrp, down_eq q hrq, hclimb, hbelow]
  rw [clean_eq_iff p q hp hq, walk_path p hp, walk_path q hq, lastStep, hfile, ← lastStep]
  simp only [Walk.andThen, hdown]

/-- Where one climbs further they are not, unless the last element takes them
    both to the root. -/
theorem clean_eq_of_climb_lt (p q : Bytes) (hp : p.head? = some 47) (hq : q.head? = some 47)
    (hrp : Returns p) (hrq : Returns q) (hclimb : climb p < climb q) (hbelow : below p = below q)
    (hfile : (split p).2 = (split q).2) :
    clean p = clean q ↔ below p = [] ∧ (split p).2 = ".." ∧ climb q = 1 := by
  -- How deep the parents of a path are tells how far it climbed.
  have hlen : ∀ x : Bytes, Returns x → (parents x).down.length = climb x + (below x).length := by
    intro x hx
    have hle : climb x ≤ baseNames.length := Nat.min_le_left _ _
    rw [down_eq x hx, List.length_append, List.length_drop]
    omega
  have hlenp := hlen p hrp
  have hlenq := hlen q hrq
  have hlast : lastStep p = lastStep q := by rw [lastStep, hfile, ← lastStep]
  have hup := lastStep_up p
  rw [← hbelow] at hlenq
  rw [clean_eq_iff p q hp hq, walk_path p hp, walk_path q hq, ← hlast]
  simp only [Walk.andThen]
  -- Equal paths are equally long, which leaves room for one step up at the most.
  constructor
  · intro h
    have hlens := congrArg List.length h
    rw [List.length_append, List.length_append, List.length_take, List.length_take] at hlens
    have hone : (lastStep p).up = 1 := by omega
    exact ⟨List.eq_nil_of_length_eq_zero (by omega), hup.2.mp hone, by omega⟩
  · rintro ⟨hnil, hdots, hq1⟩
    have hone := hup.2.mpr hdots
    rw [hnil, List.length_nil] at hlenp hlenq
    rw [hone, show (parents p).down.length - 1 = 0 by omega,
      show (parents q).down.length - 1 = 0 by omega, List.take_zero, List.take_zero]

/-- The tests of a configuration extract below the base, and those of
    different directories into different ones, exactly if its paths keep below
    the base and apart from each other. -/
theorem scratch_contained_iff (raw : Option PluginConfig) (cfg : Config)
    (_h : parseConfig raw = .ok cfg) :
    ((∀ p ∈ cfg.paths, StrictlyBelow restoreTestBase (scratchDir p)) ∧
      ∀ p ∈ cfg.paths, ∀ q ∈ cfg.paths, clean p ≠ clean q → scratchDir p ≠ scratchDir q) ↔
    Contained cfg := by
  have habs := cfg.absolute
  constructor
  · rintro ⟨hbelow, hapart⟩
    have hret : ∀ p ∈ cfg.paths, Returns p :=
      fun p hp => (strictlyBelow_iff p (habs p hp)).mp (hbelow p hp)
    refine ⟨hret, fun p hp q hq hclimb hsame hfile => ?_⟩
    refine (clean_eq_of_climb_lt p q (habs p hp) (habs q hq) (hret p hp) (hret q hq) hclimb
      hsame hfile).mp ?_
    -- Two paths with one scratch directory are one path.
    by_contra hne
    exact hapart p hp q hq hne ((scratchDir_eq_iff p q (habs p hp) (habs q hq) (hret p hp)
      (hret q hq)).mpr ⟨hsame, hfile⟩)
  · rintro ⟨hret, hclimbs⟩
    refine ⟨fun p hp => (strictlyBelow_iff p (habs p hp)).mpr (hret p hp),
      fun p hp q hq hne heq => ?_⟩
    rcases (scratchDir_eq_iff p q (habs p hp) (habs q hq) (hret p hp) (hret q hq)).mp heq with
      ⟨hsame, hfile⟩
    -- The condition is about the path that climbs less, whichever of the two it is.
    rcases Nat.lt_trichotomy (climb p) (climb q) with hlt | heqc | hgt
    · exact hne ((clean_eq_of_climb_lt p q (habs p hp) (habs q hq) (hret p hp) (hret q hq) hlt
        hsame hfile).mpr (hclimbs p hp q hq hlt hsame hfile))
    · exact hne (clean_eq_of_climb_eq p q (habs p hp) (habs q hq) (hret p hp) (hret q hq) heqc
        hsame hfile)
    · exact hne ((clean_eq_of_climb_lt q p (habs q hq) (habs p hp) (hret q hq) (hret p hp) hgt
        hsame.symm hfile.symm).mpr (hclimbs q hq p hp hgt hsame.symm hfile.symm)).symm

/-- The settings with one path. -/
def onePath (p : Bytes) : Option PluginConfig := some ⟨some [("paths", Dyn.ofStrings [p])]⟩

/-- The configuration of one directory that does not climb. -/
def siteConfig : Config := ⟨["/srv/site"], none, by decide, by decide⟩

/-- The configuration of one directory that does. -/
def climbingConfig : Config := ⟨["/../../etc/x"], none, by decide, by decide⟩

/-- The test of `/srv/site` keeps below the base. -/
theorem scratch_contained_site :
    StrictlyBelow restoreTestBase (scratchDir "/srv/site") :=
  ((scratch_contained_iff (onePath "/srv/site") siteConfig (by rfl)).mpr (by decide)).1 _
    (List.mem_singleton_self _)

/-- The test of `/../../etc/x` extracts into `/etc/x-bop-verify` and deletes
    it. -/
theorem scratch_escapes :
    parseConfig (onePath "/../../etc/x") = .ok climbingConfig ∧
    scratchDir "/../../etc/x" = "/etc/x-bop-verify" ∧
    ¬ ∀ p ∈ climbingConfig.paths, StrictlyBelow restoreTestBase (scratchDir p) := by
  refine ⟨by rfl, by decide, fun h => ?_⟩
  rcases h _ (List.mem_singleton_self _) with ⟨names, _, _, heq⟩
  have hbase : restoreTestBase <+: scratchDir "/../../etc/x" := ⟨_, heq.symm⟩
  exact absurd hbase (by decide)

end Filesystem

end Bop
