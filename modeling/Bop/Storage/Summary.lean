import Bop.Json.Prefix
import Bop.Json.Space
import Bop.Storage.Restic
import Mathlib.Data.List.TakeWhile

/-!
# Finding the Summary of a Backup

The output of a backup is lines of JSON, and the one that matters is the first
summary, wherever it is. The provider reads the lines with a scanner whose
buffer is bounded. A line that does not fit it ends the scan, and what comes
behind it is never read, so a snapshot that is in the repository can be taken
for a failed backup.

## Main definitions

* `summaryID`: The snapshot a line names if it is a summary.
* `Finds`: The parser answers with the first summary of the output.

## Theorems

* `deliver_lines`: The scanner delivers the lines in front of the first that
  does not fit.
* `parseBackupSnapshotID_eq`: The parser's answer, by the lines it is delivered.
* `finds_iff`: When the parser answers with the first summary.
-/

namespace Bop

/-- The snapshot a line names if it is a summary, given the line as it stands
    between newlines. -/
def summaryID (line : Bytes) : Option SnapshotID :=
  match ResticBackupMessage.decode line with
  | none => none
  | some msg => if msg.messageType = "summary" then some msg.snapshotID else none

/-- The parser answers with the snapshot of the first summary of the output, and
    with an error if that names none or there is no summary. -/
def Finds (output : Bytes) : Prop :=
  match (splitLines output).findSome? summaryID with
  | some id =>
      if id = [] then ∃ err, parseBackupSnapshotID output = .error err
      else parseBackupSnapshotID output = .ok id
  | none => ∃ err, parseBackupSnapshotID output = .error err

/-- A carriage return at the end of a line is not part of the message. -/
theorem decode_dropCR (line : Bytes) :
    ResticBackupMessage.decode (dropCR line) = ResticBackupMessage.decode line := by
  have hparse : Json.parse (dropCR line) = Json.parse line := by
    unfold dropCR
    split
    · next h =>
        -- White space behind a message is not part of it either.
        rcases List.isSuffixOf_iff_suffix.mp h with ⟨front, rfl⟩
        rw [List.dropLast_concat, Json.parse_append_space front 13 rfl]
    · rfl
  unfold ResticBackupMessage.decode
  rw [hparse]

/-- The loop answers with the first summary among the lines. -/
theorem summaryOf_map_dropCR (lines : List Bytes) :
    summaryOf (lines.map dropCR) = (lines.findSome? summaryID).map (fun id =>
      if id = [] then .error "summary message has no snapshot_id" else .ok id) := by
  induction lines with
  | nil => rfl
  | cons line rest ih =>
      rw [List.map_cons, summaryOf, decode_dropCR, List.findSome?_cons, summaryID]
      cases ResticBackupMessage.decode line with
      | none => exact ih
      | some msg =>
          dsimp only
          -- A message of another type is passed over, as a line that is none.
          by_cases hsummary : msg.messageType = "summary"
          · rw [if_pos hsummary, if_pos hsummary]
            dsimp only [Option.map_some]
            split <;> rfl
          · rw [if_neg hsummary, if_neg hsummary]
            exact ih

/-- The scanner delivers the lines in front of the first that does not fit its
    buffer. -/
theorem deliver_lines (maxTokenSize : Nat) (readErr : Option Bytes) (lines : List Bytes) :
    (deliver maxTokenSize readErr lines).lines =
      (lines.takeWhile (fun line => line.length < maxTokenSize)).map dropCR := by
  induction lines with
  | nil => rfl
  | cons line rest ih =>
      rw [deliver]
      -- The first line that does not fit ends the scan.
      by_cases hlong : maxTokenSize ≤ line.length
      · rw [if_pos hlong, List.takeWhile_cons_of_neg (by
          rw [decide_eq_true_eq]
          exact Nat.not_lt.mpr hlong)]
        rfl
      · rw [if_neg hlong, List.takeWhile_cons_of_pos (by
          rw [decide_eq_true_eq]
          exact Nat.lt_of_not_le hlong), List.map_cons, ← ih]

/-- The lines the scanner delivers of an output. -/
def readable (output : Bytes) : List Bytes :=
  (splitLines output).takeWhile (fun line => line.length < maxScanTokenSize)

/-- The parser's answer, by the first summary among the lines that fit. -/
theorem parseBackupSnapshotID_eq (output : Bytes) :
    match (readable output).findSome? summaryID with
    | some id => parseBackupSnapshotID output =
        if id = [] then .error "summary message has no snapshot_id" else .ok id
    | none => ∃ err, parseBackupSnapshotID output = .error err := by
  have hlines : (scanLines maxScanTokenSize output none).lines = (readable output).map dropCR :=
    deliver_lines maxScanTokenSize none (splitLines output)
  unfold parseBackupSnapshotID
  dsimp only
  rw [hlines, summaryOf_map_dropCR]
  cases (readable output).findSome? summaryID with
  | some id => rfl
  | none =>
      dsimp only [Option.map_none]
      -- Without a summary it is the scanner's error, or that there was none.
      cases (scanLines maxScanTokenSize output none).err with
      | some err => exact ⟨_, rfl⟩
      | none => exact ⟨_, rfl⟩

/-- The first summary is found among the lines that fit when it and all in front
    of it fit, and else there is none among them. -/
theorem findSome?_readable (output : Bytes) (before after : List Bytes) (line : Bytes)
    (id : SnapshotID) (hsplit : splitLines output = before ++ line :: after)
    (hbefore : ∀ l ∈ before, summaryID l = none) (hline : summaryID line = some id) :
    ((∀ l ∈ before ++ [line], l.length < maxScanTokenSize) →
      (readable output).findSome? summaryID = some id) ∧
    (¬ (∀ l ∈ before ++ [line], l.length < maxScanTokenSize) →
      (readable output).findSome? summaryID = none) := by
  have hsplit' : splitLines output = (before ++ [line]) ++ after := by
    rw [hsplit, List.append_assoc, List.singleton_append]
  constructor
  · intro hfit
    rw [readable, hsplit', List.takeWhile_append_of_pos fun l hl => decide_eq_true (hfit l hl),
      List.findSome?_append, List.findSome?_append, List.findSome?_eq_none_iff.mpr hbefore,
      List.findSome?_cons, hline]
    rfl
  · intro hlong
    -- The scan ends at a line that is the summary or in front of it.
    have hbegins : readable output <+: before := by
      rw [readable, hsplit]
      by_cases hfit : ∀ l ∈ before, l.length < maxScanTokenSize
      · -- All in front of it fit, so it is the summary that does not.
        have hline' : ¬ line.length < maxScanTokenSize := fun hlt =>
          hlong (List.forall_mem_append.mpr ⟨hfit, List.forall_mem_singleton.mpr hlt⟩)
        rw [List.takeWhile_append_of_pos fun l hl => decide_eq_true (hfit l hl),
          List.takeWhile_cons_of_neg (by rwa [decide_eq_true_eq]), List.append_nil]
      · -- One in front of it does not fit.
        have hstop : (before.takeWhile fun l => decide (l.length < maxScanTokenSize)).length ≠
            before.length := fun hlen => hfit fun l hl =>
          of_decide_eq_true (List.takeWhile_eq_self_iff.mp
            ((List.takeWhile_prefix _).eq_of_length hlen) l hl)
        rw [List.takeWhile_append, if_neg hstop]
        exact List.takeWhile_prefix _
    -- And what is read in front of it is no summary.
    rw [List.findSome?_eq_none_iff]
    exact fun l hl => hbefore l (hbegins.subset hl)

section Answers

variable (output : Bytes) (before after : List Bytes) (line : Bytes) (id : SnapshotID)
  (hsplit : splitLines output = before ++ line :: after)
  (hbefore : ∀ l ∈ before, summaryID l = none) (hline : summaryID line = some id)

include hsplit hbefore hline

theorem findSome?_splitLines : (splitLines output).findSome? summaryID = some id :=
  List.findSome?_eq_some_iff.mpr ⟨before, line, after, hsplit, hline, hbefore⟩

/-- A summary that is not delivered is answered with an error. -/
theorem not_finds_of_long (hid : id ≠ [])
    (hlong : ¬ ∀ l ∈ before ++ [line], l.length < maxScanTokenSize) : ¬ Finds output := by
  intro hfinds
  have hparse := parseBackupSnapshotID_eq output
  rw [(findSome?_readable output before after line id hsplit hbefore hline).2 hlong] at hparse
  rw [Finds, findSome?_splitLines output before after line id hsplit hbefore hline] at hfinds
  dsimp only at hparse hfinds
  rw [if_neg hid] at hfinds
  -- The parser has an error where the reference has an answer.
  rcases hparse with ⟨err, herr⟩
  rw [herr] at hfinds
  cases hfinds

/-- A summary that is delivered is the answer, and one without a snapshot is an
    error, delivered or not. -/
theorem finds_of_fit (hfit : id ≠ [] → ∀ l ∈ before ++ [line], l.length < maxScanTokenSize) :
    Finds output := by
  have hparse := parseBackupSnapshotID_eq output
  have hreadable := findSome?_readable output before after line id hsplit hbefore hline
  rw [Finds, findSome?_splitLines output before after line id hsplit hbefore hline]
  dsimp only
  by_cases hid : id = []
  · rw [if_pos hid]
    -- An error either way, of the summary or of the scan.
    by_cases hall : ∀ l ∈ before ++ [line], l.length < maxScanTokenSize
    · rw [hreadable.1 hall] at hparse
      dsimp only at hparse
      rw [if_pos hid] at hparse
      exact ⟨_, hparse⟩
    · rw [hreadable.2 hall] at hparse
      exact hparse
  · rw [if_neg hid]
    rw [hreadable.1 (hfit hid)] at hparse
    dsimp only at hparse
    rwa [if_neg hid] at hparse

end Answers

/-- Without a summary the answer is an error. -/
theorem finds_of_none (output : Bytes)
    (h : (splitLines output).findSome? summaryID = none) : Finds output := by
  have hparse := parseBackupSnapshotID_eq output
  -- The lines that are delivered are some of all.
  have hnone : (readable output).findSome? summaryID = none :=
    List.findSome?_eq_none_iff.mpr fun l hl => List.findSome?_eq_none_iff.mp h l
      ((List.takeWhile_prefix _).subset hl)
  rw [hnone] at hparse
  rw [Finds, h]
  exact hparse

/-- The parser answers with the first summary exactly when that names no
    snapshot, or it and all the lines in front of it fit the scanner's buffer. -/
theorem finds_iff (output : Bytes) :
    Finds output ↔ ∀ before line after id, splitLines output = before ++ line :: after →
      (∀ l ∈ before, summaryID l = none) → summaryID line = some id → id ≠ [] →
      ∀ l ∈ before ++ [line], l.length < maxScanTokenSize := by
  constructor
  · intro hfinds before line after id hsplit hbefore hline hid
    by_contra hlong
    exact not_finds_of_long output before after line id hsplit hbefore hline hid hlong hfinds
  · intro hfit
    -- The first summary of the output, if there is one, is the one to be found.
    cases hfirst : (splitLines output).findSome? summaryID with
    | none => exact finds_of_none output hfirst
    | some id =>
        rcases List.findSome?_eq_some_iff.mp hfirst with
          ⟨before, line, after, hsplit, hline, hbefore⟩
        exact finds_of_fit output before after line id hsplit hbefore hline
          (hfit before line after id hsplit hbefore hline)

/-! ### A long line in front of the summary -/

/-- The last line of a backup's output. -/
def summaryLine : Bytes := "\x7b\"message_type\":\"summary\",\"snapshot_id\":\"40dc1520\"\x7d"

theorem summaryID_summaryLine : summaryID summaryLine = some "40dc1520" := by decide +kernel

/-- A line that fills the scanner's buffer. -/
def longLine : Bytes := List.replicate maxScanTokenSize 120

/-- No value begins with the letter. -/
theorem summaryID_cons_x (rest : Bytes) : summaryID (120 :: rest) = none := by
  -- The scanner is at the start of a value, and stays where it is.
  have hbad : Json.run Json.start (120 :: rest) = .bad := Json.run_bad rest
  have hparse : Json.parse (120 :: rest) = none := by
    unfold Json.parse
    rw [hbad]
    rfl
  unfold summaryID ResticBackupMessage.decode
  rw [hparse]
  rfl

theorem summaryID_longLine : summaryID longLine = none := by
  have hsize : maxScanTokenSize = 65535 + 1 := rfl
  rw [longLine, hsize, List.replicate_succ, summaryID_cons_x]

/-- The summary is the second line of the output, and the parser does not find
    it. -/
theorem not_finds_longLine :
    splitLines (longLine ++ 10 :: (summaryLine ++ [10])) = [longLine, summaryLine] ∧
      ¬ Finds (longLine ++ 10 :: (summaryLine ++ [10])) := by
  have hlong : (10 : UInt8) ∉ longLine := fun h => by
    cases (List.mem_replicate.mp h).2
  have hsplit : splitLines (longLine ++ 10 :: (summaryLine ++ [10])) =
      [longLine, summaryLine] := by
    rw [splitLines_cons longLine _ hlong, splitLines_cons summaryLine [] (by decide)]
    rfl
  refine ⟨hsplit, not_finds_of_long _ [longLine] [] summaryLine "40dc1520" hsplit ?_
    summaryID_summaryLine (by decide) ?_⟩
  · intro l hl
    rw [List.mem_singleton.mp hl]
    exact summaryID_longLine
  · intro hfit
    have := hfit longLine List.mem_cons_self
    rw [longLine, List.length_replicate] at this
    exact Nat.lt_irrefl _ this

end Bop
