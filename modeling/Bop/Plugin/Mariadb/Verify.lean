import Bop.Plugin.Mariadb
import Bop.Plugin.Remote

/-!
# Verifying a MariaDB Dump

The cheap check of a dump before it is stored. It reads the file twice: the
first `window` bytes for the comment a dump begins with, and the last `window`
bytes for the comment it ends with. A file that is shorter than the window is
read whole both times.

The check is meant to catch a dump that was cut short. It does, wherever the
cut is: the part of a dump before its last comment does not hold that comment.

## Main definitions

* `readFull`, `readAt`: The two ways the file is read.
* `checkDump`: What is required of an open file and its size.
* `verify`: `Plugin.Verify`.
* `holding`: A machine on which the artifact's file has some content.
* `OccursAt`: Where a text stands in another.

## Theorems

* `checkDump_ok_iff`: What the check accepts.
* `infix_of_occursAt`: A text that stands inside a window is found in it.
* `verify_dump`: The check accepts complete dumps and refuses cut ones.
-/

namespace Bop

namespace Mariadb

open Prog (check op exec)
open Remote (RemoteOp RemoteAns)

/-- `dumpHeaderMarker`. -/
def dumpHeaderMarker : Bytes := "MariaDB dump"

/-- `dumpTrailerMarker`. -/
def dumpTrailerMarker : Bytes := "-- Dump completed"

/-- How much is read of either end. -/
def window : Nat := 4096

/-- `io.ReadFull` into a buffer of this size. A file that ends earlier is no
    error here. -/
def readFull (f : FileContent) (size : Nat) : Except Bytes Bytes :=
  if size ≤ f.data.length then .ok (f.data.take size)
  else match f.readErr with
    | some err => .error err
    | none => .ok f.data

/-- `File.ReadAt` into a zeroed buffer of this size. The buffer is used whole,
    also when the file ends earlier. -/
def readAt (f : FileContent) (size start : Nat) : Except Bytes Bytes :=
  let got := (f.data.drop start).take size
  if size ≤ got.length then .ok got
  else match f.readErr with
    | some err => .error err
    | none => .ok (got ++ List.replicate (size - got.length) 0)

/-- What `Verify` requires of the open file and the size it was told. -/
def checkDump (f : FileContent) (size : Int) : Except Bytes Unit :=
  if size = 0 then .error "mariadb: verify: artifact is empty"
  else match readFull f window with
  | .error err => .error ("mariadb: verify: read artifact: " ++ err)
  | .ok head =>
      if ¬ dumpHeaderMarker <:+: head then
        .error ("mariadb: verify: artifact does not look like mariadb-dump output (missing " ++
          quoteGo dumpHeaderMarker ++ " header)")
      else
        let tailStart := if size - window < 0 then 0 else size - window
        match readAt f (size - tailStart).toNat tailStart.toNat with
        | .error err => .error ("mariadb: verify: read artifact tail: " ++ err)
        | .ok tail =>
            if ¬ dumpTrailerMarker <:+: tail then
              .error ("mariadb: verify: artifact is missing mariadb-dump's " ++
                quoteGo dumpTrailerMarker ++ " trailer - dump looks truncated")
            else .ok ()

/-- `Plugin.Verify`. -/
def verify (a : Artifact) : Remote.Proc (Except Bytes Unit) :=
  check (op (RemoteOp.openFile a.path)) ("mariadb: verify: open artifact: " ++ ·) fun f =>
  check (op (RemoteOp.stat a.path)) ("mariadb: verify: stat artifact: " ++ ·) fun size =>
  return checkDump f size

/-- What the machine answers when the file at `path` has this content. -/
def holding (path content : Bytes) : (o : RemoteOp) → Unit → RemoteAns o × Unit
  | .openFile p, _ => (if p = path then .ok ⟨content, none⟩ else .error "no such file", ())
  | .stat p, _ => (if p = path then .ok content.length else .error "no such file", ())
  | .createTemp _ _, _ => (.error "read-only file system", ())
  | .closeFile _, _ => (.ok (), ())
  | .removeFile _, _ => (.error "read-only file system", ())
  | .run _ _ _, _ => (.error "no executor", ())
  | .now, _ => ((0 : Int), ())

/-- `Verify` of an artifact whose file has this content. -/
def verifyContent (a : Artifact) (content : Bytes) : Except Bytes Unit :=
  (exec (holding a.path content) (verify a) ()).1

theorem verifyContent_eq (a : Artifact) (content : Bytes) :
    verifyContent a content = checkDump ⟨content, none⟩ content.length := by
  unfold verifyContent verify
  rw [Prog.exec_check_ok _ _ _ _ () () ⟨content, none⟩
      (by simp only [Prog.exec_op, holding, if_true]),
    Prog.exec_check_ok _ _ _ _ () () (content.length : Int)
      (by simp only [Prog.exec_op, holding, if_true])]
  rfl

/-- The first window of a file. -/
theorem readFull_content (content : Bytes) (size : Nat) :
    readFull ⟨content, none⟩ size = .ok (content.take size) := by
  unfold readFull
  by_cases h : size ≤ content.length
  · rw [if_pos h]
  · rw [if_neg h, List.take_of_length_le (by omega)]

/-- A window that ends with the file. -/
theorem readAt_content (content : Bytes) (start : Nat) :
    readAt ⟨content, none⟩ (content.length - start) start = .ok (content.drop start) := by
  have hgot : (content.drop start).take (content.length - start) = content.drop start :=
    List.take_of_length_le (by rw [List.length_drop])
  unfold readAt
  simp only [hgot, List.length_drop, Nat.le_refl, if_true]

/-- What the check accepts: a file that is not empty and has the one marker in
    its first window and the other in its last. -/
theorem checkDump_ok_iff (content : Bytes) :
    checkDump ⟨content, none⟩ content.length = .ok () ↔
      content ≠ [] ∧ dumpHeaderMarker <:+: content.take window ∧
        dumpTrailerMarker <:+: content.drop (content.length - window) := by
  -- How wide the window is does not matter.
  unfold checkDump
  generalize window = n
  -- The last window begins at the start of the file when that is shorter.
  have hstart : (if (content.length : Int) - n < 0 then 0 else (content.length : Int) - n) =
      ((content.length - n : Nat) : Int) := by
    by_cases h : (content.length : Int) - n < 0
    · rw [if_pos h]
      omega
    · rw [if_neg h]
      omega
  have hsize : ((content.length : Int) - ((content.length - n : Nat) : Int)).toNat =
      content.length - (content.length - n) := by omega
  have hnat : ((content.length - n : Nat) : Int).toNat = content.length - n := by omega
  simp only [readFull_content, hstart, hsize, hnat, readAt_content]
  by_cases hempty : content = []
  · subst hempty
    simp
  · have hne : ¬ (content.length : Int) = 0 := by
      have := List.length_pos_of_ne_nil hempty
      omega
    rw [if_neg hne]
    by_cases hhead : dumpHeaderMarker <:+: content.take n
    · by_cases htail : dumpTrailerMarker <:+: content.drop (content.length - n)
      · simp [hempty, hhead, htail]
      · simp [hhead, htail]
    · simp [hhead]

/-- The text stands in the other at this offset. -/
def OccursAt (text s : Bytes) (i : Nat) : Prop := text <+: s.drop i

/-- A text that begins inside the last bytes of a file is found in them. -/
theorem infix_of_occursAt (text s : Bytes) (i start : Nat) (hstart : start ≤ i)
    (h : OccursAt text s i) : text <:+: s.drop start := by
  have hdrop : s.drop i = (s.drop start).drop (i - start) := by
    rw [List.drop_drop]
    congr 1
    omega
  unfold OccursAt at h
  rw [hdrop] at h
  exact h.isInfix.trans (List.drop_suffix _ _).isInfix

/-- The check is what it says, for a file of any size. So a dump with its two
    comments in place passes, and no part of it that has lost the last comment
    does. -/
theorem verify_dump (a : Artifact) :
    (∀ content, verifyContent a content = .ok () ↔
      content ≠ [] ∧ dumpHeaderMarker <:+: content.take (min window content.length) ∧
        dumpTrailerMarker <:+: content.drop (content.length - min window content.length)) ∧
    ∀ dump i j, OccursAt dumpHeaderMarker dump i → i + dumpHeaderMarker.length ≤ window →
      OccursAt dumpTrailerMarker dump j → (∀ k, OccursAt dumpTrailerMarker dump k → k = j) →
      dump.length - window ≤ j →
      verifyContent a dump = .ok () ∧
        ∀ cut, cut <+: dump → cut ≠ dump → ¬ dumpTrailerMarker <:+: cut →
          verifyContent a cut ≠ .ok () := by
  refine ⟨fun content => ?_, fun dump i j hhead hwithin htrailer _ hlast => ⟨?_, ?_⟩⟩
  · -- A window larger than the file is the whole file.
    have htake : content.take (min window content.length) = content.take window := by
      by_cases h : window ≤ content.length
      · rw [Nat.min_eq_left h]
      · rw [Nat.min_eq_right (by omega), List.take_length, List.take_of_length_le (by omega)]
    have hdrop : content.length - min window content.length = content.length - window := by omega
    rw [verifyContent_eq, checkDump_ok_iff, htake, hdrop]
  · rw [verifyContent_eq, checkDump_ok_iff]
    refine ⟨?_, ?_, infix_of_occursAt _ _ j _ hlast htrailer⟩
    · -- An empty file holds no comment.
      rintro rfl
      unfold OccursAt at hhead
      rw [List.drop_nil, List.prefix_nil] at hhead
      exact absurd hhead (by decide)
    · -- The comment ends inside the window, so cutting at the window keeps it.
      have hkeep : dumpHeaderMarker <+: (dump.take window).drop i := by
        rw [List.drop_take, List.prefix_take_iff]
        exact ⟨hhead, by omega⟩
      exact hkeep.isInfix.trans (List.drop_suffix _ _).isInfix
  · intro cut _ _ hlost hok
    rw [verifyContent_eq, checkDump_ok_iff] at hok
    exact hlost (hok.2.2.trans (List.drop_suffix _ _).isInfix)

/-- The smallest dump. -/
def smallDump : Bytes := "-- MariaDB dump\n-- Dump completed\n"

/-- An artifact that may hold it. -/
def smallArtifact : Artifact := ⟨"shop", [], [], "/tmp/bop/mariadb-1.sql", 34, [], false, 0⟩

/-- It passes, and no shorter part of it that has lost the last comment does. -/
theorem verify_dump_small :
    verifyContent smallArtifact smallDump = .ok () ∧
      ∀ cut, cut <+: smallDump → cut ≠ smallDump → ¬ dumpTrailerMarker <:+: cut →
        verifyContent smallArtifact cut ≠ .ok () := by
  have htrailer : ∀ k, OccursAt dumpTrailerMarker smallDump k → k = 16 := by
    intro k hk
    -- The comment is as long as what follows it but for a byte.
    have hlen : k ≤ 34 := by
      by_contra hlarge
      unfold OccursAt at hk
      rw [List.drop_eq_nil_of_le (by change 34 ≤ k; omega), List.prefix_nil] at hk
      exact absurd hk (by decide)
    have hall : ∀ k ≤ 34, dumpTrailerMarker <+: smallDump.drop k → k = 16 := by decide
    exact hall k hlen hk
  refine (verify_dump smallArtifact).2 smallDump 3 16 ?_ ?_ ?_ htrailer ?_
  · unfold OccursAt
    decide
  · decide
  · unfold OccursAt
    decide
  · decide

end Mariadb

end Bop
