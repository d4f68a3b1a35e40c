import Bop.Json.Number
import Bop.Text.Lines
import Bop.Text.Path

/-!
# Releases

What `bop-update` makes of a release's name and of its list of checksums.

A release is named by its tag, and the tag is also the name of the directory it
is unpacked to and of the link's target, so a tag is taken only if it is of one
shape. None of that shape holds a slash.

The archive is trusted if `sha256sum -c` is content with the lines of the list
that `grep` finds for it. The pattern is the archive's name as it is, dots
included, so `grep` may find lines of other names too; those name no file that
is there, and then `sha256sum` is not content.

## Main definitions

* `tagName`: The tags that are taken.
* `basename`: The last element of a path, as the shell's command prints it.
* `assetOf`: The name of a release's archive.
* `grepEnd`: `grep -E` for a pattern at the end of a line.
* `unescapeName`, `checksumLine`, `sha256sumC`: A line of the list, and the check
  of some.
* `Listed`: The list has the digest of a file.

## Theorems

* `tagName_no_slash`: A tag is one element of a path.
* `basename_release`: The tag can be read off the link.
* `listed_of_verified`: What is checked is the archive.
-/

namespace Bop

namespace Deploy

/-! ### Tags -/

/-- One byte of a regular expression, taken off the front. -/
def literal (b : UInt8) : Bytes → Option Bytes
  | [] => none
  | c :: s => if c = b then some s else none

/-- `[0-9]+`, taken off the front. -/
def number (s : Bytes) : Option Bytes :=
  if s.takeWhile Json.isDigit = [] then none else some (s.dropWhile Json.isDigit)

/-- `[0-9A-Za-z.]`. -/
def isSuffixByte (b : UInt8) : Bool :=
  Json.isDigit b || (65 ≤ b && b ≤ 90) || (97 ≤ b && b ≤ 122) || b == 46

/-- What follows `v[0-9]+\.[0-9]+\.[0-9]+`. -/
def afterVersion (tag : Bytes) : Option Bytes := do
  let s ← literal 118 tag
  let s ← number s
  let s ← literal 46 s
  let s ← number s
  let s ← literal 46 s
  number s

/-- `(-[0-9A-Za-z.]+)?$`. -/
def preRelease : Bytes → Bool
  | [] => true
  | c :: suffix => c = 45 ∧ suffix ≠ [] ∧ suffix.all isSuffixByte

/-- `^v[0-9]+\.[0-9]+\.[0-9]+(-[0-9A-Za-z.]+)?$`. -/
def tagName (tag : Bytes) : Bool := (afterVersion tag).any preRelease

/-- `basename`. -/
def basename (p : Bytes) : Bytes :=
  let q := p.rdropWhile (· = 47)
  if q = [] ∧ p ≠ [] then "/" else (Paths.split q).2

/-- `"releases/$tag"`, the target of the link. -/
def releaseLink (tag : Bytes) : Bytes := "releases/" ++ tag

theorem literal_eq_some (b : UInt8) (s r : Bytes) (h : literal b s = some r) : s = b :: r := by
  cases s with
  | nil => cases h
  | cons c s =>
      rw [literal] at h
      split at h
      · next heq =>
          cases h
          rw [heq]
      · cases h

theorem number_eq_some (s r : Bytes) (h : number s = some r) :
    ∃ ds, ds.all Json.isDigit = true ∧ s = ds ++ r := by
  rw [number] at h
  split at h
  · cases h
  · cases h
    refine ⟨s.takeWhile Json.isDigit, ?_, (List.takeWhile_append_dropWhile).symm⟩
    rw [List.all_eq_true]
    exact fun b hb => List.mem_takeWhile_imp hb

theorem notMem_digits (ds : Bytes) (h : ds.all Json.isDigit = true) : (47 : UInt8) ∉ ds :=
  fun hmem => absurd (List.all_eq_true.mp h 47 hmem) (by decide)

theorem notMem_preRelease (s : Bytes) (h : preRelease s = true) : (47 : UInt8) ∉ s := by
  cases s with
  | nil => exact List.not_mem_nil
  | cons c suffix =>
      rw [preRelease, decide_eq_true_eq] at h
      rcases h with ⟨rfl, _, hall⟩
      rintro (_ | ⟨_, hmem⟩)
      exact absurd (List.all_eq_true.mp hall 47 hmem) (by decide)

/-- A tag is one element of a path. -/
theorem tagName_no_slash (tag : Bytes) (h : tagName tag = true) : (47 : UInt8) ∉ tag := by
  rw [tagName, Option.any_eq_true] at h
  rcases h with ⟨r, hafter, hr⟩
  simp only [afterVersion, Option.bind_eq_bind, Option.bind_eq_some_iff] at hafter
  rcases hafter with ⟨s₁, hv, s₂, hmajor, s₃, hdot, s₄, hminor, s₅, hdot', hpatch⟩
  rw [literal_eq_some 118 tag s₁ hv]
  rcases number_eq_some s₁ s₂ hmajor with ⟨major, h₁, rfl⟩
  rw [literal_eq_some 46 s₂ s₃ hdot]
  rcases number_eq_some s₃ s₄ hminor with ⟨minor, h₂, rfl⟩
  rw [literal_eq_some 46 s₄ s₅ hdot']
  rcases number_eq_some s₅ r hpatch with ⟨patch, h₃, rfl⟩
  simp only [List.mem_cons, List.mem_append, notMem_digits major h₁, notMem_digits minor h₂,
    notMem_digits patch h₃, notMem_preRelease r hr, or_false]
  decide

/-- A tag is not empty. -/
theorem tagName_ne_nil (tag : Bytes) (h : tagName tag = true) : tag ≠ [] := by
  rintro rfl
  exact absurd h (by decide)

/-- The tag can be read off the link. -/
theorem basename_release (tag : Bytes) (h : (47 : UInt8) ∉ tag) (hne : tag ≠ []) :
    basename (releaseLink tag) = tag := by
  have hlink : releaseLink tag = ("releases" : Bytes) ++ 47 :: tag := rfl
  have hlast : (releaseLink tag).rdropWhile (· = 47) = releaseLink tag := by
    rw [List.rdropWhile_eq_self_iff]
    intro hnil hslash
    have hmem : (releaseLink tag).getLast hnil ∈ tag := by
      simp only [hlink, List.getLast_append_of_ne_nil _ (List.cons_ne_nil 47 tag),
        List.getLast_cons hne]
      exact List.getLast_mem hne
    rw [decide_eq_true_eq.mp hslash] at hmem
    exact h hmem
  have hcons : releaseLink tag ≠ [] := by
    rw [hlink]
    exact List.append_ne_nil_of_right_ne_nil _ (List.cons_ne_nil _ _)
  rw [basename]
  simp only [hlast, hcons, false_and, if_false]
  rw [hlink, Paths.split_slash _ _ h]

/-! ### Checksums -/

/-- `bop-$tag-linux-amd64.tar.gz`. -/
def assetOf (tag : Bytes) : Bytes := "bop-" ++ tag ++ "-linux-amd64.tar.gz"

/-- A pattern of plain bytes and dots, against a text. -/
def matchesPattern : Bytes → Bytes → Bool
  | [], s => s.isEmpty
  | _ :: _, [] => false
  | p :: pattern, b :: s => (p == 46 || p == b) && matchesPattern pattern s

/-- `grep -E "pattern$"`, for a line. -/
def grepEnd (pattern line : Bytes) : Bool :=
  matchesPattern pattern (line.drop (line.length - pattern.length))

/-- A hexadecimal digit. -/
def isHex (b : UInt8) : Bool :=
  Json.isDigit b || (65 ≤ b && b ≤ 70) || (97 ≤ b && b ≤ 102)

/-- A digest in lower case. -/
def lowerHex (s : Bytes) : Bytes := s.map fun b => if 65 ≤ b ∧ b ≤ 70 then b + 32 else b

/-- `ISWHITE`. -/
def isWhite (b : UInt8) : Bool := b == 32 || b == 9

/-- What a backslash and a byte stand for. -/
def unescapeByte (b : UInt8) : Option UInt8 :=
  if b = 92 then some 92 else if b = 110 then some 10 else if b = 114 then some 13 else none

/-- A name whose backslashes and ends of lines were escaped. -/
def unescapeName : Bytes → Option Bytes
  | [] => some []
  | [b] => if b = 92 then none else some [b]
  | b :: c :: s =>
      if b = 92 then (unescapeByte c).bind fun x => (unescapeName s).map (x :: ·)
      else (unescapeName (c :: s)).map (b :: ·)

/-- A digest, a blank, how the file was read, and its name. -/
def digestLine (nameOf : Bytes → Option Bytes) (line : Bytes) : Option (Bytes × Bytes) :=
  match line.drop 64 with
  | blank :: mode :: name =>
      if isWhite blank ∧ (line.take 64).all isHex ∧ (mode = 32 ∨ mode = 42) ∧ name ≠ [] then
        (nameOf name).map fun name => (line.take 64, name)
      else none
  | _ => none

/-- A line of a list of checksums. Blanks before it are skipped, and a backslash
    says that the name is escaped. -/
def checksumLine (line : Bytes) : Option (Bytes × Bytes) :=
  match line.dropWhile isWhite with
  | 92 :: escaped => digestLine unescapeName escaped
  | plain => digestLine some plain

section Checks

variable (sha256 : Bytes → Bytes)

/-- Whether the file of a line has the digest, which `sha256` writes in lower case. -/
def digestMatches (files : Bytes → Option Bytes) (entry : Bytes × Bytes) : Bool :=
  (files entry.2).any fun data => lowerHex entry.1 == sha256 data

/-- `sha256sum -c --status`: some line is well formed, and the file of every such
    line is there and has the digest. -/
def sha256sumC (files : Bytes → Option Bytes) (lines : List Bytes) : Bool :=
  let entries := lines.filterMap checksumLine
  !entries.isEmpty && entries.all (digestMatches sha256 files)

/-- The working directory after the downloads. -/
def workDir (asset archive sums : Bytes) (name : Bytes) : Option Bytes :=
  if name = asset then some archive else if name = "checksums.txt" then some sums else none

/-- `grep -E "  $asset\$" checksums.txt | sha256sum -c --status`. -/
def verified (asset archive sums : Bytes) : Bool :=
  sha256sumC sha256 (workDir asset archive sums)
    ((splitLines sums).filter (grepEnd ("  " ++ asset)))

/-- The list has the digest of a file of that name. -/
def Listed (asset archive sums : Bytes) : Prop :=
  ∃ line ∈ splitLines sums, ∃ digest, checksumLine line = some (digest, asset) ∧
    lowerHex digest = sha256 archive

/-- A pattern that ends in a plain byte matches what ends in it. -/
theorem matchesPattern_last (pattern s : Bytes) (b : UInt8) (hb : b ≠ 46)
    (h : matchesPattern (pattern ++ [b]) s = true) : ∃ t, s = t ++ [b] := by
  induction pattern generalizing s with
  | nil =>
      cases s with
      | nil => cases h
      | cons c s =>
          simp only [List.nil_append, matchesPattern, Bool.and_eq_true, Bool.or_eq_true,
            beq_iff_eq, hb, false_or, List.isEmpty_iff] at h
          rcases h with ⟨rfl, rfl⟩
          exact ⟨[], rfl⟩
  | cons p pattern ih =>
      cases s with
      | nil => cases h
      | cons c s =>
          rw [List.cons_append, matchesPattern, Bool.and_eq_true] at h
          rcases ih s h.2 with ⟨t, rfl⟩
          exact ⟨c :: t, rfl⟩

/-- A byte in front of a text is not the last, unless that is empty. -/
theorem getLast?_cons_of_some (b c : UInt8) (s : Bytes) (h : s.getLast? = some c) :
    (b :: s).getLast? = some c := by
  rw [List.getLast?_cons, h, Option.getD_some]

/-- Taking the escapes off a name leaves the `z` it ends with. -/
theorem unescapeName_last (s t : Bytes) (h : unescapeName s = some t)
    (hz : s.getLast? = some 122) : t.getLast? = some 122 := by
  induction s using unescapeName.induct generalizing t with
  | case1 => cases hz
  | case2 => cases h
  | case3 b hb =>
      rw [unescapeName, if_neg hb] at h
      cases h
      exact hz
  | case4 c s ih =>
      rw [unescapeName, if_pos rfl, Option.bind_eq_some_iff] at h
      rcases h with ⟨x, hx, h⟩
      rcases Option.map_eq_some_iff.mp h with ⟨u, hu, rfl⟩
      cases s with
      | nil =>
          -- No escape ends with a `z`.
          cases hz
          cases hx
      | cons d s => exact getLast?_cons_of_some x _ u (ih u hu hz)
  | case5 b c s hb ih =>
      rw [unescapeName, if_neg hb] at h
      rcases Option.map_eq_some_iff.mp h with ⟨u, hu, rfl⟩
      exact getLast?_cons_of_some b _ u (ih u hu hz)

/-- The end of a line that ends with a `z` does. -/
theorem getLast?_suffix (s t : Bytes) (hs : s ≠ []) (h : s <:+ t) (c : UInt8)
    (hz : t.getLast? = some c) : s.getLast? = some c := by
  have ht : t ≠ [] := fun hnil => hs (List.suffix_nil.mp (hnil ▸ h))
  rw [List.getLast?_eq_some_getLast ht, ← h.getLast hs] at hz
  rw [List.getLast?_eq_some_getLast hs, hz]

/-- The name on such a line does. -/
theorem digestLine_last (nameOf : Bytes → Option Bytes)
    (hname : ∀ s t, nameOf s = some t → s.getLast? = some 122 → t.getLast? = some 122)
    (line digest name : Bytes) (h : digestLine nameOf line = some (digest, name))
    (hz : line.getLast? = some 122) : name.getLast? = some 122 := by
  rw [digestLine] at h
  split at h
  · next blank mode raw hdrop =>
      split at h
      · next hline =>
          rcases Option.map_eq_some_iff.mp h with ⟨_, hraw, heq⟩
          cases heq
          have hsuffix : raw <:+ line.drop 64 := by
            rw [hdrop]
            exact ⟨[blank, mode], rfl⟩
          exact hname raw name hraw (getLast?_suffix raw line hline.2.2.2
            (hsuffix.trans (List.drop_suffix 64 line)) 122 hz)
      · cases h
  · cases h

theorem checksumLine_last (line digest name : Bytes)
    (h : checksumLine line = some (digest, name)) (hz : line.getLast? = some 122) :
    name.getLast? = some 122 := by
  have hsuffix : line.dropWhile isWhite <:+ line := List.dropWhile_suffix _
  rw [checksumLine] at h
  split at h
  · next escaped heq =>
      have hescaped : escaped <:+ line := List.IsSuffix.trans ⟨[92], heq.symm⟩ hsuffix
      have hne : escaped ≠ [] := by
        rintro rfl
        cases h
      exact digestLine_last _ unescapeName_last escaped digest name h
        (getLast?_suffix escaped line hne hescaped 122 hz)
  · next plain _ =>
      have hne : line.dropWhile isWhite ≠ [] := by
        intro hnil
        rw [hnil] at h
        cases h
      refine digestLine_last some ?_ _ digest name h (getLast?_suffix _ line hne hsuffix 122 hz)
      rintro s _ ⟨⟩ hlast
      exact hlast

/-- What `grep` finds ends as the archive's name does. -/
theorem grepEnd_last (tag line : Bytes) (h : grepEnd ("  " ++ assetOf tag) line = true) :
    line.getLast? = some 122 := by
  have hpattern : ("  " ++ assetOf tag : Bytes) =
      ("  " ++ ("bop-" ++ tag ++ "-linux-amd64.tar.g") : Bytes) ++ [122] := by
    simp only [assetOf, List.append_assoc]
    rfl
  rw [grepEnd, hpattern] at h
  rcases matchesPattern_last _ _ 122 (by decide) h with ⟨t, ht⟩
  rcases List.drop_suffix (line.length - _) line with ⟨u, hu⟩
  rw [← hu, ht, ← List.append_assoc, List.getLast?_concat]

/-- The list of checksums does not name itself on such a line. -/
theorem not_checksums (tag line digest name : Bytes)
    (hgrep : grepEnd ("  " ++ assetOf tag) line = true)
    (hline : checksumLine line = some (digest, name)) : name ≠ "checksums.txt" := by
  rintro rfl
  have hlast := checksumLine_last line digest _ hline (grepEnd_last tag line hgrep)
  revert hlast
  decide

/-- What is checked is the archive: `checksums.txt` cannot pass for it, whatever
    the dots of the pattern match. -/
theorem listed_of_verified (tag archive sums : Bytes)
    (h : verified sha256 (assetOf tag) archive sums = true) :
    Listed sha256 (assetOf tag) archive sums := by
  rw [verified, sha256sumC, Bool.and_eq_true, List.all_eq_true] at h
  rcases h with ⟨hsome, hall⟩
  rcases List.exists_mem_of_ne_nil _ (List.isEmpty_eq_false_iff.mp (Bool.not_eq_true' _ ▸ hsome))
    with ⟨entry, hmem⟩
  rcases List.mem_filterMap.mp hmem with ⟨line, hline, hentry⟩
  rcases List.mem_filter.mp hline with ⟨hsums, hgrep⟩
  have hgood := hall entry hmem
  rw [digestMatches, workDir, Option.any_eq_true] at hgood
  rcases hgood with ⟨data, hdata, hdigest⟩
  split at hdata
  · next hname =>
      cases hdata
      refine ⟨line, hsums, entry.1, ?_, beq_iff_eq.mp hdigest⟩
      rw [← hname]
      exact hentry
  · rw [if_neg (not_checksums tag line entry.1 entry.2 hgrep hentry)] at hdata
    cases hdata

end Checks

end Deploy

end Bop
