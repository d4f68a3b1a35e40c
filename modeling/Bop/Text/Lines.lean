import Bop.Text.Bytes

/-!
# Reading Lines

`bufio.Scanner` with its default split function: the lines of a stream without
their newlines, a carriage return before a newline dropped, and a last line
that needs no newline. A line that does not fit the buffer ends the scan with
an error, and so does a stream that cannot be read to its end; whatever came
before has been delivered by then.

## Main definitions

* `splitLines`: The lines of a byte string.
* `FileContent`: What a file yields when it is read.
* `Scan`: The lines a scanner delivers and the error it stops with.
* `scanLines`: Scanning a stream with a bounded buffer.

## Theorems

* `splitLines_cons`: Splitting takes a terminated line off the front.
* `scanLines_unlines`: Scanning terminated lines gives them back.
* `splitLines_prefix`: What is left of lines when the end is cut off.
-/

namespace Bop

/-- The lines of a byte string, with `acc` already read of the first. -/
def splitLinesFrom (acc : Bytes) : Bytes → List Bytes
  | [] => if acc = [] then [] else [acc]
  | b :: rest =>
      if b = 10 then acc :: splitLinesFrom [] rest else splitLinesFrom (acc ++ [b]) rest

/-- The lines of a byte string. -/
def splitLines (data : Bytes) : List Bytes := splitLinesFrom [] data

/-- A line without its trailing carriage return. -/
def dropCR (line : Bytes) : Bytes := if hasSuffix line [13] then line.dropLast else line

/-- What a file yields when it is read: its bytes, and the error that stops
    the reading if one does. -/
structure FileContent where
  data : Bytes
  readErr : Option Bytes

/-- What a scanner delivers before it stops, and the error it stops with. -/
structure Scan where
  lines : List Bytes
  err : Option Bytes
  deriving DecidableEq

/-- `bufio.ErrTooLong`. -/
def errTooLong : Bytes := "bufio.Scanner: token too long"

/-- Delivering lines until one does not fit the buffer. -/
def deliver (maxTokenSize : Nat) (readErr : Option Bytes) : List Bytes → Scan
  | [] => ⟨[], readErr⟩
  | line :: rest =>
      if maxTokenSize ≤ line.length then ⟨[], some errTooLong⟩
      else
        let scan := deliver maxTokenSize readErr rest
        ⟨dropCR line :: scan.lines, scan.err⟩

/-- Scanning a stream that yields `data` and then `readErr`, or the end of the
    file. -/
def scanLines (maxTokenSize : Nat) (data : Bytes) (readErr : Option Bytes) : Scan :=
  deliver maxTokenSize readErr (splitLines data)

/-- `bufio.MaxScanTokenSize`. -/
def maxScanTokenSize : Nat := 64 * 1024

theorem splitLinesFrom_line (acc line rest : Bytes) (h : (10 : UInt8) ∉ line) :
    splitLinesFrom acc (line ++ 10 :: rest) = (acc ++ line) :: splitLinesFrom [] rest := by
  induction line generalizing acc with
  | nil => rw [List.nil_append, splitLinesFrom, if_pos rfl, List.append_nil]
  | cons b line ih =>
      have hb : b ≠ 10 := fun hb => h (by rw [hb]; exact List.mem_cons_self)
      have hline : (10 : UInt8) ∉ line := fun hl => h (List.mem_cons_of_mem b hl)
      rw [List.cons_append, splitLinesFrom, if_neg hb, ih _ hline, List.append_assoc,
        List.singleton_append]

/-- Splitting takes a terminated line off the front. -/
theorem splitLines_cons (line rest : Bytes) (h : (10 : UInt8) ∉ line) :
    splitLines (line ++ 10 :: rest) = line :: splitLines rest := by
  rw [splitLines, splitLinesFrom_line [] line rest h, List.nil_append]
  rfl

/-- Lines that each end in a newline. -/
def unlines (lines : List Bytes) : Bytes := lines.flatMap (fun line => line ++ [10])

theorem unlines_cons (line : Bytes) (rest : List Bytes) :
    unlines (line :: rest) = line ++ 10 :: unlines rest := by
  rw [unlines, List.flatMap_cons, List.append_assoc, List.singleton_append]
  rfl

theorem splitLines_unlines (lines : List Bytes) (h : ∀ line ∈ lines, (10 : UInt8) ∉ line) :
    splitLines (unlines lines) = lines := by
  induction lines with
  | nil => rfl
  | cons line rest ih =>
      have hsplit := splitLines_cons line (unlines rest) (h line List.mem_cons_self)
      rw [unlines_cons, hsplit, ih (fun l hl => h l (List.mem_cons_of_mem line hl))]

/-- Lines that hold no carriage return have none to lose. -/
theorem map_dropCR (lines : List Bytes) (hcr : ∀ line ∈ lines, (13 : UInt8) ∉ line) :
    lines.map dropCR = lines := by
  refine (List.map_congr_left fun line hline => ?_).trans (List.map_id lines)
  have hsuffix : ¬ hasSuffix line [13] = true := fun h =>
    hcr line hline ((List.isSuffixOf_iff_suffix.mp h).subset (List.mem_singleton_self _))
  exact if_neg hsuffix

/-- Lines that fit the buffer are delivered, and then the error that ends the
    stream. -/
theorem deliver_of_fits (maxTokenSize : Nat) (readErr : Option Bytes) (lines : List Bytes)
    (hlen : ∀ line ∈ lines, line.length < maxTokenSize) :
    deliver maxTokenSize readErr lines = ⟨lines.map dropCR, readErr⟩ := by
  induction lines with
  | nil => rfl
  | cons line rest ih =>
      rcases List.forall_mem_cons.mp hlen with ⟨hline, hrest⟩
      rw [deliver, if_neg (Nat.not_le.mpr hline), ih hrest, List.map_cons]

/-- A scanner that stops without an error has met no line that does not fit its
    buffer. -/
theorem fits_of_deliver (maxTokenSize : Nat) (readErr : Option Bytes) (lines : List Bytes)
    (h : (deliver maxTokenSize readErr lines).err = none) :
    ∀ line ∈ lines, line.length < maxTokenSize := by
  induction lines with
  | nil => exact fun _ hmem => absurd hmem List.not_mem_nil
  | cons line rest ih =>
      by_cases hlong : maxTokenSize ≤ line.length
      · rw [deliver, if_pos hlong] at h
        cases h
      · rw [deliver, if_neg hlong] at h
        exact List.forall_mem_cons.mpr ⟨Nat.lt_of_not_le hlong, ih h⟩

/-- Scanning terminated lines gives them back, provided none holds a newline
    or a carriage return and all fit the buffer. -/
theorem scanLines_unlines (maxTokenSize : Nat) (lines : List Bytes)
    (hnl : ∀ line ∈ lines, (10 : UInt8) ∉ line) (hcr : ∀ line ∈ lines, (13 : UInt8) ∉ line)
    (hlen : ∀ line ∈ lines, line.length < maxTokenSize) :
    scanLines maxTokenSize (unlines lines) none = ⟨lines, none⟩ := by
  rw [scanLines, splitLines_unlines lines hnl, deliver_of_fits _ _ _ hlen, map_dropCR lines hcr]

/-- A line without its newline is a line. -/
theorem splitLines_line (line : Bytes) (h : (10 : UInt8) ∉ line) :
    splitLines line = if line = [] then [] else [line] := by
  have hfrom : ∀ (acc line : Bytes), (10 : UInt8) ∉ line →
      splitLinesFrom acc line = if acc ++ line = [] then [] else [acc ++ line] := by
    intro acc line h
    induction line generalizing acc with
    | nil => rw [splitLinesFrom, List.append_nil]
    | cons b line ih =>
        rcases not_or.mp (mt List.mem_cons.mpr h) with ⟨hb, hline⟩
        rw [splitLinesFrom, if_neg (Ne.symm hb), ih _ hline, List.append_assoc,
          List.singleton_append]
  exact hfrom [] line h

/-- What is left of lines when the end is cut off: the first of them, and
    perhaps a part of the next. -/
theorem splitLines_prefix (lines : List Bytes) (hnl : ∀ line ∈ lines, (10 : UInt8) ∉ line)
    (p : Bytes) (h : p <+: unlines lines) :
    ∃ k, splitLines p = lines.take k ∨ ∃ line q, lines[k]? = some line ∧ q <+: line ∧ q ≠ line ∧
      splitLines p = lines.take k ++ [q] := by
  induction lines generalizing p with
  | nil =>
      rw [List.prefix_nil.mp h]
      exact ⟨0, Or.inl rfl⟩
  | cons line rest ih =>
      rcases List.forall_mem_cons.mp hnl with ⟨hline, hrest⟩
      rw [unlines_cons] at h
      have hfirst : line ++ [10] <+: line ++ 10 :: unlines rest := ⟨unlines rest, by
        rw [List.append_assoc, List.singleton_append]⟩
      rcases List.prefix_or_prefix_of_prefix h hfirst with hshort | ⟨t, rfl⟩
      · -- The cut is behind the newline, or inside the first line.
        rcases List.prefix_concat_iff.mp hshort with rfl | hpart
        · refine ⟨1, Or.inl ?_⟩
          rw [splitLines_cons line [] hline]
          rfl
        · have hsplit := splitLines_line p fun hmem => hline (hpart.subset hmem)
          by_cases hnil : p = []
          · exact ⟨0, Or.inl (by rw [hsplit, if_pos hnil]; rfl)⟩
          · rw [if_neg hnil] at hsplit
            by_cases hall : p = line
            · exact ⟨1, Or.inl (by rw [hsplit, hall]; rfl)⟩
            · exact ⟨0, Or.inr ⟨line, p, rfl, hpart, hall, hsplit⟩⟩
      · -- The first line is there with its newline, and the cut is behind it.
        rw [List.append_assoc, List.singleton_append] at h ⊢
        have htail : t <+: unlines rest := by
          have h' := (List.prefix_append_right_inj line).mp h
          exact (List.cons_prefix_cons.mp h').2
        rw [splitLines_cons line t hline]
        rcases ih hrest t htail with ⟨k, hk | ⟨next, q, hnext, hq, hne, hk⟩⟩
        · exact ⟨k + 1, Or.inl (by rw [hk, List.take_succ_cons])⟩
        · refine ⟨k + 1, Or.inr ⟨next, q, ?_, hq, hne, ?_⟩⟩
          · rw [List.getElem?_cons_succ, hnext]
          · rw [hk, List.take_succ_cons, List.cons_append]

example : scanLines 5 "ab\r\n\ncde\nlonger\n" none =
    ⟨["ab", [], "cde"], some errTooLong⟩ := by decide

end Bop
