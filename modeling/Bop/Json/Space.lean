import Bop.Json.Number
import Bop.Json.Scan

/-!
# White Space behind a Text

A text that is a document stays one when white space is put behind it, and a
text that is none does not become one. A reader that takes a carriage return
off the end of a line may therefore do so before the line is decoded.

## Main definitions

* `Worded`: The letters that are due are letters.
* `valueOf`: The value a configuration of the scanner holds.

## Theorems

* `worded_run`: The scanner only ever waits for letters.
* `valueOf_stepSettled`: White space neither completes nor spoils a value.
* `parse_append_space`: White space behind a text changes nothing.
-/

namespace Bop

namespace Json

/-- The letters that a word still waits for are not white space. -/
def Worded : State → Prop
  | .run _ (.word rest _) => ∀ d ∈ rest, isSpace d = false
  | _ => True

theorem worded_pushValue (v : Json) (st : List Frame) : Worded (pushValue v st) := by
  unfold pushValue
  split <;> exact trivial

theorem worded_closeFrame (c : UInt8) (st : List Frame) : Worded (closeFrame c st) := by
  unfold closeFrame
  split
  · split
    · exact worded_pushValue _ _
    · exact trivial
  · split
    · exact worded_pushValue _ _
    · exact trivial
  · exact trivial

theorem worded_openFrame (f : Frame) (mode : Mode) (st : List Frame)
    (h : ∀ st, Worded (.run st mode)) : Worded (openFrame f mode st) := by
  unfold openFrame
  split
  · exact h _
  · exact trivial

theorem worded_beginValue (st : List Frame) (c : UInt8) : Worded (beginValue st c) := by
  unfold beginValue
  split_ifs
  · exact worded_openFrame _ _ _ fun _ => trivial
  · exact worded_openFrame _ _ _ fun _ => trivial
  · exact trivial
  · exact trivial
  · -- The letters behind the first of each literal.
    exact (by decide +kernel : ∀ d ∈ ("rue" : Bytes), isSpace d = false)
  · exact (by decide +kernel : ∀ d ∈ ("alse" : Bytes), isSpace d = false)
  · exact (by decide +kernel : ∀ d ∈ ("ull" : Bytes), isSpace d = false)
  · exact trivial

theorem worded_endValue (st : List Frame) (c : UInt8) : Worded (endValue st c) := by
  unfold endValue
  split
  · split <;> exact trivial
  · exact worded_closeFrame c st

theorem worded_closeString (ps : List Piece) (st : List Frame) : Worded (closeString ps st) := by
  unfold closeString
  split
  · exact trivial
  · exact worded_pushValue _ _

theorem worded_stepSettled (s : State) (c : UInt8) (h : Worded s) : Worded (stepSettled s c) := by
  cases s with
  | bad => exact trivial
  | top v =>
      rw [stepSettled]
      split <;> exact trivial
  | run st mode =>
      cases mode with
      | value orEmpty =>
          rw [stepSettled]
          split_ifs
          · exact trivial
          · exact worded_closeFrame c st
          · exact worded_beginValue st c
      | key orEmpty =>
          rw [stepSettled]
          split_ifs
          · exact trivial
          · exact worded_closeFrame c st
          · exact trivial
          · exact trivial
      | colon =>
          rw [stepSettled]
          split_ifs <;> exact trivial
      | after =>
          rw [stepSettled]
          split_ifs
          · exact trivial
          · exact worded_endValue st c
      | str ps =>
          rw [stepSettled]
          split_ifs
          · exact worded_closeString ps st
          all_goals exact trivial
      | esc ps =>
          rw [stepSettled]
          split_ifs
          · exact trivial
          · split <;> exact trivial
      | hex ps count acc =>
          rw [stepSettled]
          split
          · split_ifs <;> exact trivial
          · exact trivial
      -- A number has been settled before, and a literal keeps its rest.
      | num text => exact trivial
      | word rest v => cases rest with
        | nil => exact trivial
        | cons d rest => cases rest with
          | nil =>
              rw [stepSettled]
              split_ifs
              · exact worded_pushValue v st
              · exact trivial
          | cons e rest =>
              rw [stepSettled]
              split_ifs
              · exact fun b hb => h b (List.mem_cons_of_mem d hb)
              · exact trivial
              · exact fun heq => absurd heq (List.cons_ne_nil e rest)

theorem worded_settle (s : State) (h : Worded s) : Worded (settle s) := by
  unfold settle
  split
  · split
    · exact worded_pushValue _ _
    · exact trivial
  · exact h

theorem worded_run (s : State) (data : Bytes) (h : Worded s) : Worded (run s data) := by
  induction data generalizing s with
  | nil => exact h
  | cons c data ih =>
      refine ih (step s c) ?_
      unfold step
      -- A byte behind a number settles it first.
      split
      · split
        · exact trivial
        · exact worded_stepSettled _ c (worded_settle _ h)
      · exact worded_stepSettled s c h

/-- The value of a configuration, if a whole one was read. -/
def valueOf (s : State) : Option Json :=
  match settle s with
  | .top v => some v
  | _ => none

/-- White space has a few bytes. -/
theorem space_cases (c : UInt8) (hc : isSpace c = true) : c = 32 ∨ c = 9 ∨ c = 10 ∨ c = 13 := by
  simpa only [isSpace, Bool.or_eq_true, decide_eq_true_eq, or_assoc] using hc

/-- No number goes on with white space. -/
theorem numRun_append_space (text : Bytes) (c : UInt8) (hc : isSpace c = true) :
    numRun (text ++ [c]) = none := by
  rw [numRun_append]
  cases numRun text with
  | none => rfl
  | some q =>
      -- A number is somewhere in its grammar, where no white space goes on.
      rcases space_cases c hc with rfl | rfl | rfl | rfl <;> cases q <;> rfl

/-- White space outside a number neither completes a value nor spoils one. -/
theorem valueOf_stepSettled (s : State) (c : UInt8) (hc : isSpace c = true) (h : Worded s)
    (hnum : ∀ st text, s ≠ .run st (.num text)) : valueOf (stepSettled s c) = valueOf s := by
  cases s with
  | bad => rfl
  | top v => rw [stepSettled, if_pos hc]
  | run st mode =>
      cases mode with
      | value orEmpty => rw [stepSettled, if_pos hc]
      | key orEmpty => rw [stepSettled, if_pos hc]
      | colon => rw [stepSettled, if_pos hc]
      | after => rw [stepSettled, if_pos hc]
      | str ps => rcases space_cases c hc with rfl | rfl | rfl | rfl <;> rfl
      | esc ps => rcases space_cases c hc with rfl | rfl | rfl | rfl <;> rfl
      | hex ps count acc => rcases space_cases c hc with rfl | rfl | rfl | rfl <;> rfl
      | num text => exact absurd rfl (hnum st text)
      | word rest v => cases rest with
        | nil => rfl
        | cons d rest =>
            -- The letter that is due is not white space.
            have hd : c ≠ d := by
              rintro rfl
              rw [h c List.mem_cons_self] at hc
              cases hc
            cases rest with
            | nil =>
                rw [stepSettled, if_neg hd]
                rfl
            | cons e rest =>
                rw [stepSettled, if_neg hd]
                · rfl
                · exact fun heq => absurd heq (List.cons_ne_nil e rest)

theorem settle_num_eq (st : List Frame) (text : Bytes) : settle (.run st (.num text)) =
    if h : isNumber text = true then pushValue (.num ⟨text, h⟩) st else .bad := rfl

theorem pushValue_ne_num (v : Json) (st st' : List Frame) (text : Bytes) :
    pushValue v st ≠ .run st' (.num text) := by
  cases st with
  | nil => exact fun h => by cases h
  | cons f st => cases f <;> exact fun h => by cases h

/-- A number is settled once. -/
theorem settle_settle (s : State) : settle (settle s) = settle s := by
  have hsettled : ∀ v st, settle (pushValue v st) = pushValue v st := by
    intro v st
    unfold pushValue
    split <;> rfl
  cases s with
  | run st mode =>
      cases mode with
      | num text =>
          rw [settle_num_eq]
          split
          · exact hsettled _ st
          · rfl
      | _ => rfl
  | _ => rfl

theorem valueOf_settle (s : State) : valueOf (settle s) = valueOf s := by
  unfold valueOf
  rw [settle_settle]

/-- White space behind a text changes nothing. -/
theorem parse_append_space (data : Bytes) (c : UInt8) (hc : isSpace c = true) :
    parse (data ++ [c]) = parse data := by
  have hworded : Worded (run start data) := worded_run start data trivial
  change valueOf (run start (data ++ [c])) = valueOf (run start data)
  -- The white space is one more step, from where the text has led.
  rw [run_append, run_cons, run_nil]
  generalize run start data = s at hworded
  by_cases hnum : ∃ st text, s = .run st (.num text)
  · rcases hnum with ⟨st, text, rfl⟩
    -- The number ends, and what it leaves is not inside a number.
    have hstep : step (.run st (.num text)) c = stepSettled (settle (.run st (.num text))) c := by
      rw [step, numRun_append_space text c hc]
      rfl
    rw [hstep, valueOf_stepSettled _ c hc (worded_settle _ hworded), valueOf_settle]
    -- A settled number is a value, and no number any more.
    intro st' text' heq
    rw [settle_num_eq] at heq
    split at heq
    · exact pushValue_ne_num _ st st' text' heq
    · cases heq
  · have hnum' : ∀ st text, s ≠ .run st (.num text) := fun st text heq => hnum ⟨st, text, heq⟩
    rw [step_of_not_num s c hnum', valueOf_stepSettled s c hc hworded hnum']

end Json

end Bop
