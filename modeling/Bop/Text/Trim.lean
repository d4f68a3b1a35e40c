import Bop.Text.Bytes
import Mathlib.Data.List.Basic

/-!
# Trimming

Taking white space off both ends of a text. White space is a set of byte
strings, the encodings of some characters, since languages disagree on which
characters these are. In UTF-8 the encoding of one character is found at the end
of a text only where the character is.

## Main definitions

* `trimStart`, `trimEnd`, `trim`: The text without white space at one end or at
  both.
* `jsSpaces`: What `String.prototype.trim` takes off.

## Theorems

* `trimStart_not_isPrefix`: What is left does not begin with white space.
* `trim_trim`: Trimming twice is trimming once.
* `trim_append_space`: White space in front of a text does not matter.
-/

namespace Bop

/-- Taking white space off the front, at most `n` times. -/
def trimStartN (spaces : List Bytes) : Nat → Bytes → Bytes
  | 0, s => s
  | n + 1, s => match spaces.find? (fun sp => sp.isPrefixOf s) with
    | none => s
    | some sp => trimStartN spaces n (s.drop sp.length)

/-- The text without the white space in front. -/
def trimStart (spaces : List Bytes) (s : Bytes) : Bytes := trimStartN spaces s.length s

/-- The text without the white space at its end. -/
def trimEnd (spaces : List Bytes) (s : Bytes) : Bytes :=
  (trimStart (spaces.map List.reverse) s.reverse).reverse

/-- The text without the white space at both ends. -/
def trim (spaces : List Bytes) (s : Bytes) : Bytes := trimEnd spaces (trimStart spaces s)

/-- What `String.prototype.trim` takes off: white space and line terminators. -/
def jsSpaces : List Bytes :=
  [[9], [10], [11], [12], [13], [32], [0xC2, 0xA0], [0xE1, 0x9A, 0x80], [0xE2, 0x80, 0x80],
    [0xE2, 0x80, 0x81], [0xE2, 0x80, 0x82], [0xE2, 0x80, 0x83], [0xE2, 0x80, 0x84],
    [0xE2, 0x80, 0x85], [0xE2, 0x80, 0x86], [0xE2, 0x80, 0x87], [0xE2, 0x80, 0x88],
    [0xE2, 0x80, 0x89], [0xE2, 0x80, 0x8A], [0xE2, 0x80, 0xA8], [0xE2, 0x80, 0xA9],
    [0xE2, 0x80, 0xAF], [0xE2, 0x81, 0x9F], [0xE3, 0x80, 0x80], [0xEF, 0xBB, 0xBF]]

section Spaces

variable (spaces : List Bytes)

/-- What is left is the end of the text. -/
theorem trimStartN_suffix (n : Nat) (s : Bytes) : trimStartN spaces n s <:+ s := by
  induction n generalizing s with
  | zero => exact List.suffix_rfl
  | succ n ih =>
      unfold trimStartN
      split
      · exact List.suffix_rfl
      · exact (ih _).trans (List.drop_suffix _ s)

theorem trimStart_suffix (s : Bytes) : trimStart spaces s <:+ s := trimStartN_suffix spaces _ s

theorem trimEnd_isPrefix (s : Bytes) : trimEnd spaces s <+: s := by
  have h := trimStart_suffix (spaces.map List.reverse) s.reverse
  rwa [← List.reverse_prefix, List.reverse_reverse] at h

/-- A text that does not begin with white space is left as it is. -/
theorem trimStartN_of_not_isPrefix (n : Nat) (s : Bytes) (h : ∀ sp ∈ spaces, ¬ sp <+: s) :
    trimStartN spaces n s = s := by
  cases n with
  | zero => rfl
  | succ n =>
      have hnone : spaces.find? (fun sp => sp.isPrefixOf s) = none :=
        List.find?_eq_none.mpr fun sp hsp hprefix =>
          h sp hsp (List.isPrefixOf_iff_prefix.mp hprefix)
      rw [trimStartN, hnone]

theorem trimStart_of_not_isPrefix (s : Bytes) (h : ∀ sp ∈ spaces, ¬ sp <+: s) :
    trimStart spaces s = s := trimStartN_of_not_isPrefix spaces _ s h

theorem trimEnd_of_not_suffix (s : Bytes) (h : ∀ sp ∈ spaces, ¬ sp <:+ s) :
    trimEnd spaces s = s := by
  rw [trimEnd, trimStart_of_not_isPrefix, List.reverse_reverse]
  intro sp hsp hprefix
  rcases List.mem_map.mp hsp with ⟨sp, hmem, rfl⟩
  exact h sp hmem (List.reverse_prefix.mp hprefix)

variable (hne : [] ∉ spaces)
include hne

/-- No white space begins an empty text. -/
theorem not_isPrefix_nil : ∀ sp ∈ spaces, ¬ sp <+: ([] : Bytes) :=
  fun _ hsp hprefix => hne (List.prefix_nil.mp hprefix ▸ hsp)

/-- What is taken off is not empty, so the rest is shorter. -/
theorem length_drop_of_find? (s sp : Bytes) (n : Nat)
    (hsome : spaces.find? (fun sp => sp.isPrefixOf s) = some sp) (hn : s.length ≤ n + 1) :
    (s.drop sp.length).length ≤ n := by
  have hpos : 0 < sp.length := List.length_pos_iff.mpr fun hnil =>
    hne (hnil ▸ List.mem_of_find?_eq_some hsome)
  rw [List.length_drop]
  omega

/-- What is left does not begin with white space, if enough was taken off. -/
theorem trimStartN_not_prefix (n : Nat) (s : Bytes) (hn : s.length ≤ n) :
    ∀ sp ∈ spaces, ¬ sp <+: trimStartN spaces n s := by
  induction n generalizing s with
  | zero =>
      rw [List.eq_nil_of_length_eq_zero (Nat.le_zero.mp hn)]
      exact not_isPrefix_nil spaces hne
  | succ n ih =>
      unfold trimStartN
      split
      · next hnone =>
          intro sp hsp hprefix
          exact List.find?_eq_none.mp hnone sp hsp (List.isPrefixOf_iff_prefix.mpr hprefix)
      · next sp hsome =>
          exact ih _ (length_drop_of_find? spaces hne s sp n hsome hn)

theorem trimStart_not_isPrefix (s : Bytes) : ∀ sp ∈ spaces, ¬ sp <+: trimStart spaces s :=
  trimStartN_not_prefix spaces hne _ s (Nat.le_refl _)

theorem trimEnd_not_suffix (s : Bytes) : ∀ sp ∈ spaces, ¬ sp <:+ trimEnd spaces s := by
  have hne' : [] ∉ spaces.map List.reverse := fun h => by
    rcases List.mem_map.mp h with ⟨sp, hsp, hnil⟩
    exact hne (List.reverse_eq_nil_iff.mp hnil ▸ hsp)
  intro sp hsp hsuffix
  -- The end of a text is the front of its reverse.
  refine trimStart_not_isPrefix _ hne' s.reverse sp.reverse (List.mem_map_of_mem hsp) ?_
  rwa [trimEnd, ← List.reverse_prefix, List.reverse_reverse] at hsuffix

/-- Neither end of a trimmed text is white space. -/
theorem trim_not_infix (s : Bytes) :
    ∀ sp ∈ spaces, ¬ sp <+: trim spaces s ∧ ¬ sp <:+ trim spaces s := by
  intro sp hsp
  refine ⟨fun hbegins => ?_, trimEnd_not_suffix spaces hne _ sp hsp⟩
  exact trimStart_not_isPrefix spaces hne s sp hsp (hbegins.trans (trimEnd_isPrefix spaces _))

/-- Trimming twice is trimming once. -/
theorem trim_trim (s : Bytes) : trim spaces (trim spaces s) = trim spaces s := by
  have h := trim_not_infix spaces hne s
  rw [trim, trimStart_of_not_isPrefix spaces _ fun sp hsp => (h sp hsp).1,
    trimEnd_of_not_suffix spaces _ fun sp hsp => (h sp hsp).2]

/-- Taking off more often than there is white space changes nothing. -/
theorem trimStartN_add (n m : Nat) (s : Bytes) (hn : s.length ≤ n) :
    trimStartN spaces (n + m) s = trimStartN spaces n s := by
  induction n generalizing s with
  | zero =>
      rw [List.eq_nil_of_length_eq_zero (Nat.le_zero.mp hn)]
      have hnot := not_isPrefix_nil spaces hne
      rw [trimStartN_of_not_isPrefix spaces _ [] hnot, trimStartN_of_not_isPrefix spaces _ [] hnot]
  | succ n ih =>
      rw [Nat.succ_add_eq_add_succ, Nat.add_succ, trimStartN, trimStartN]
      split
      · rfl
      · next sp hsome =>
          exact ih _ (length_drop_of_find? spaces hne s sp n hsome hn)

/-- White space in front of a text does not matter, if no white space begins
    another. -/
theorem trim_append_space (hfree : ∀ a ∈ spaces, ∀ b ∈ spaces, a <+: b → a = b) (sp s : Bytes)
    (hsp : sp ∈ spaces) : trim spaces (sp ++ s) = trim spaces s := by
  have hpos : 0 < sp.length := List.length_pos_iff.mpr fun hnil => hne (hnil ▸ hsp)
  -- The one that is found in front is the one that is there.
  have hfind : spaces.find? (fun a => a.isPrefixOf (sp ++ s)) = some sp := by
    cases hcase : spaces.find? (fun a => a.isPrefixOf (sp ++ s)) with
    | none =>
        exact absurd (List.isPrefixOf_iff_prefix.mpr (List.prefix_append sp s))
          (List.find?_eq_none.mp hcase sp hsp)
    | some a =>
        have ha := List.mem_of_find?_eq_some hcase
        have hbool := List.find?_some hcase
        -- Of two that begin one text, one begins the other.
        rcases List.prefix_or_prefix_of_prefix (List.isPrefixOf_iff_prefix.mp hbool)
          (List.prefix_append sp s) with h | h
        · rw [hfree a ha sp hsp h]
        · rw [hfree sp hsp a ha h]
  rcases Nat.exists_eq_add_of_lt hpos with ⟨k, hk⟩
  -- The white space counts, too, so there is more than enough to take off.
  have hlen : (sp ++ s).length = (s.length + k) + 1 := by
    rw [List.length_append]
    omega
  rw [trim, trimStart, hlen, trimStartN, hfind]
  dsimp only
  rw [List.drop_left, trimStartN_add spaces hne _ k s (Nat.le_refl _)]
  rfl

end Spaces

example : trim jsSpaces " \t/srv \u00a0" = "/srv" := by decide +kernel

end Bop
