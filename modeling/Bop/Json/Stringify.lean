import Bop.Json.Prefix
import Bop.Json.RoundTrip

/-!
# Strings as a Browser Writes Them

`JSON.stringify` escapes the quote, the backslash and the control characters, and
leaves everything else, so what is above ASCII is in the text as it is. The scanner
reads such a literal back, and an object of such members as one value.

A stream is decoded only as far as its first value goes. A text that is one value
is decoded to it.

## Main definitions

* `stringifyByte`, `stringify`: `QuoteJSONString`.

## Theorems

* `run_stringify`: The scanner reads a literal back.
* `runFirst_of_run`: A text that is one value.
-/

namespace Bop

namespace Json

/-- The letter of a byte that has a short escape. -/
def shortLetter (b : UInt8) : Option UInt8 :=
  if b = 34 then some 34 else if b = 92 then some 92
  else if b = 8 then some 98 else if b = 9 then some 116 else if b = 10 then some 110
  else if b = 12 then some 102 else if b = 13 then some 114 else none

/-- A byte of a string literal. -/
def stringifyByte (b : UInt8) : Bytes :=
  match shortLetter b with
  | some letter => [92, letter]
  | none => if b < 32 then unitEscape b.toNat else [b]

/-- `QuoteJSONString`. -/
def stringify (s : Bytes) : Bytes := 34 :: s.flatMap stringifyByte ++ [34]

/-- What the scanner collects from a byte. -/
def stringifyPiece (b : UInt8) : Piece :=
  if shortLetter b = none ∧ b < 32 then .unit b.toNat else .byte b

/-- A short escape is read back as its byte. -/
theorem escapeByte_shortLetter (b letter : UInt8) (h : shortLetter b = some letter) :
    letter ≠ 117 ∧ escapeByte letter = some b := by
  unfold shortLetter at h
  split_ifs at h <;> cases h <;> subst_vars <;> decide

theorem run_stringifyByte (st : List Frame) (ps : List Piece) (b : UInt8) :
    run (.run st (.str ps)) (stringifyByte b) = .run st (.str (ps ++ [stringifyPiece b])) := by
  unfold stringifyByte stringifyPiece
  cases hletter : shortLetter b with
  | some letter =>
      rcases escapeByte_shortLetter b letter hletter with ⟨hne, hb⟩
      change stepSettled (.run st (.esc ps)) letter = _
      simp only [stepSettled, if_neg hne, hb, reduceCtorEq, false_and, if_false]
  | none =>
      dsimp only
      by_cases hlt : b < 32
      · rw [if_pos hlt, if_pos ⟨rfl, hlt⟩]
        exact run_unitEscape st ps b.toNat (by have := b.toNat_lt; omega)
      · rw [if_neg hlt, if_neg fun h => hlt h.2]
        refine run_bytes st ps [b] fun b' hb' => ?_
        rw [List.mem_singleton.mp hb']
        refine ⟨?_, ?_, hlt⟩ <;>
        · rintro rfl
          cases hletter

theorem run_stringifyBytes (st : List Frame) (ps : List Piece) (s : Bytes) :
    run (.run st (.str ps)) (s.flatMap stringifyByte) =
      .run st (.str (ps ++ s.map stringifyPiece)) := by
  induction s generalizing ps with
  | nil => rw [List.flatMap_nil, run_nil, List.map_nil, List.append_nil]
  | cons b s ih =>
      rw [List.flatMap_cons, run_append, run_stringifyByte, ih, List.append_assoc, List.map_cons,
        List.singleton_append]

/-- A control character is one byte, and so is its escape. -/
theorem utf8EncodeChar_control (b : UInt8) (h : b < 32) :
    String.utf8EncodeChar (Char.ofNat b.toNat) = [b] := by
  have hall : ∀ n < 32, String.utf8EncodeChar (Char.ofNat n) = [UInt8.ofNat n] := by decide
  have hb := hall b.toNat (UInt8.lt_iff_toNat_lt.mp h)
  rwa [UInt8.ofNat_toNat] at hb

theorem joinPieces_stringify (s : Bytes) : joinPieces (s.map stringifyPiece) = s := by
  induction s with
  | nil => rfl
  | cons b s ih =>
      rw [List.map_cons, stringifyPiece]
      by_cases hunit : shortLetter b = none ∧ b < 32
      · have hlt : b.toNat < 32 := UInt8.lt_iff_toNat_lt.mp hunit.2
        rw [if_pos hunit, joinPieces_unit b.toNat (Or.inl (by omega)), ih,
          utf8EncodeChar_control b hunit.2]
        rfl
      · rw [if_neg hunit, joinPieces, ih]

/-- The scanner reads a literal back, as a key or as a value. -/
theorem run_stringify (st : List Frame) (mode : Mode) (s : Bytes)
    (h : stepSettled (.run st mode) 34 = .run st (.str []))
    (hnum : ∀ text, mode ≠ .num text) :
    run (.run st mode) (stringify s) = closeString (s.map stringifyPiece) st := by
  have hstep : step (.run st mode) 34 = .run st (.str []) := by
    rw [step_of_not_num, h]
    intro st' text heq
    cases heq
    exact hnum text rfl
  rw [stringify, List.cons_append, run_cons, hstep, run_append, run_stringifyBytes,
    List.nil_append, run_cons, run_nil]
  rfl

/-- What a literal denotes, if its bytes are text. -/
theorem unquote_stringify (s : Bytes) (h : Utf8.sanitize s = s) :
    unquote (s.map stringifyPiece) = s := by
  rw [unquote, joinPieces_stringify, h]

/-- A text that is one value is decoded to it. -/
theorem runFirst_of_run (s : State) (data : Bytes) (v : Json) (h : run s data = .top v) :
    runFirst s data = some v := by
  induction data generalizing s with
  | nil =>
      rw [run_nil] at h
      rw [h]
      rfl
  | cons c rest ih =>
      rw [run_cons] at h
      -- A value that is whole already is the value.
      have hwhole : ∀ v' rest, run (.top v') rest = .top v → v' = v := by
        intro v' rest hrun
        rw [run_top] at hrun
        split at hrun
        · exact State.top.inj hrun
        · cases hrun
      cases s with
      | bad =>
          rw [show step .bad c = .bad from rfl, run_bad] at h
          cases h
      | top v' => exact congrArg some (hwhole v' (c :: rest) h)
      | run st mode =>
          cases mode with
          | num text =>
              rw [runFirst]
              rw [step] at h
              by_cases hnum : (numRun (text ++ [c])).isSome = true
              · rw [if_pos hnum] at h ⊢
                exact ih _ h
              · rw [if_neg hnum] at h ⊢
                cases hsettle : settle (.run st (.num text)) with
                | top v' =>
                    rw [hsettle] at h
                    exact congrArg some (hwhole v' (c :: rest) h)
                | bad =>
                    rw [hsettle] at h
                    exact ih _ h
                | run st' mode' =>
                    rw [hsettle] at h
                    exact ih _ h
          | _ => exact ih _ h

end Json

end Bop
