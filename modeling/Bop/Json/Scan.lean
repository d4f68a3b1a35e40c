import Bop.Json.Value

/-!
# The JSON Scanner

`encoding/json`'s scanner, one byte at a time, with a value stack added so
that it also builds what it reads. A frame of the stack is an array or an
object whose closing bracket is still to come, and the mode is what the
scanner expects next, under the names of its `state` functions.

A number is the one construct with no closing byte of its own. It ends when a
byte arrives that cannot continue it, and that byte is then read again by
whatever follows, which is what `settle` and the split between `step` and
`stepSettled` are for.

`Unmarshal` wants one value and nothing but white space around it. `Decoder`
reads one value off the front of a stream and leaves the rest unread.

## Main definitions

* `Piece`: A byte or an escaped unit of a string literal.
* `unquote`: The string a literal denotes.
* `Frame`, `Mode`, `State`: The scanner's configuration.
* `step`: One byte.
* `parse`: A whole text as one value.
* `parseFirst`: The first value of a stream.

## Theorems

* `run_append`: Scanning a concatenation scans the halves in turn.
-/

namespace Bop

namespace Json

/-- What a string literal is made of: bytes, and UTF-16 units from escapes. -/
inductive Piece
  | byte (b : UInt8)
  | unit (n : Nat)

/-- The character of one UTF-16 unit. Half a surrogate pair is none. -/
def unitChar (n : Nat) : Char :=
  if 0xD800 ≤ n ∧ n < 0xE000 then Utf8.replacement else Char.ofNat n

/-- The bytes of a literal, with surrogate pairs joined. -/
def joinPieces : List Piece → Bytes
  | [] => []
  | .byte b :: rest => b :: joinPieces rest
  | [.unit n] => String.utf8EncodeChar (unitChar n)
  | .unit n :: .byte b :: rest =>
      String.utf8EncodeChar (unitChar n) ++ b :: joinPieces rest
  | .unit hi :: .unit lo :: rest =>
      if 0xD800 ≤ hi ∧ hi < 0xDC00 ∧ 0xDC00 ≤ lo ∧ lo < 0xE000 then
        String.utf8EncodeChar
          (Char.ofNat (0x10000 + (hi - 0xD800) * 1024 + (lo - 0xDC00))) ++ joinPieces rest
      else String.utf8EncodeChar (unitChar hi) ++ joinPieces (.unit lo :: rest)

/-- The string a literal denotes. It is always valid UTF-8. -/
def unquote (ps : List Piece) : Bytes := Utf8.sanitize (joinPieces ps)

/-- A bracket that is still open, with what was read since. -/
inductive Frame
  | arr (done : List Json)
  | obj (done : List (Bytes × Json))
  | member (done : List (Bytes × Json)) (key : Bytes)

/-- What the scanner expects next. -/
inductive Mode
  /-- `stateBeginValue`, or `stateBeginValueOrEmpty`. -/
  | value (orEmpty : Bool)
  /-- `stateBeginString`, or `stateBeginStringOrEmpty`. -/
  | key (orEmpty : Bool)
  /-- The colon after a key. -/
  | colon
  /-- `stateEndValue`: a comma or a closing bracket. -/
  | after
  /-- `stateInString`. -/
  | str (ps : List Piece)
  /-- `stateInStringEsc`. -/
  | esc (ps : List Piece)
  /-- `stateInStringEscU` and its successors, with the digits read. -/
  | hex (ps : List Piece) (count acc : Nat)
  /-- Inside a number, with its text so far. -/
  | num (text : Bytes)
  /-- Inside `true`, `false` or `null`, with the letters to come. -/
  | word (rest : Bytes) (v : Json)

/-- The scanner's configuration. -/
inductive State
  /-- A syntax error. -/
  | bad
  /-- A whole value was read. -/
  | top (v : Json)
  /-- Inside a value. -/
  | run (stack : List Frame) (mode : Mode)

/-- `maxNestingDepth`. -/
def maxNestingDepth : Nat := 10000

/-- White space between tokens. -/
def isSpace (c : UInt8) : Bool := c = 32 || c = 9 || c = 10 || c = 13

/-- A value is complete: it goes into the innermost open bracket. -/
def pushValue (v : Json) : List Frame → State
  | [] => .top v
  | .arr done :: st => .run (.arr (done ++ [v]) :: st) .after
  | .member done key :: st => .run (.obj (done ++ [(key, v)]) :: st) .after
  | .obj _ :: _ => .bad

/-- A string literal is complete: it is a key or a value. -/
def closeString (ps : List Piece) : List Frame → State
  | .obj done :: st => .run (.member done (unquote ps) :: st) .colon
  | st => pushValue (.str (unquote ps)) st

/-- `pushParseState`: a bracket opens, unless too many are open already. -/
def openFrame (f : Frame) (mode : Mode) (st : List Frame) : State :=
  if st.length + 1 ≤ maxNestingDepth then .run (f :: st) mode else .bad

/-- A closing bracket. -/
def closeFrame (c : UInt8) : List Frame → State
  | .arr done :: st => if c = 93 then pushValue (.arr done) st else .bad
  | .obj done :: st => if c = 125 then pushValue (.obj done) st else .bad
  | _ => .bad

/-- `stateBeginValue`. -/
def beginValue (st : List Frame) (c : UInt8) : State :=
  if c = 123 then openFrame (.obj []) (.key true) st
  else if c = 91 then openFrame (.arr []) (.value true) st
  else if c = 34 then .run st (.str [])
  else if (numStep .start c).isSome then .run st (.num [c])
  else if c = 116 then .run st (.word "rue" (.bool true))
  else if c = 102 then .run st (.word "alse" (.bool false))
  else if c = 110 then .run st (.word "ull" .null)
  else .bad

/-- `stateEndValue` inside a bracket. -/
def endValue (st : List Frame) (c : UInt8) : State :=
  if c = 44 then
    match st with
    | .arr _ :: _ => .run st (.value false)
    | .obj _ :: _ => .run st (.key false)
    | _ => .bad
  else closeFrame c st

/-- The byte an escape letter stands for. -/
def escapeByte (c : UInt8) : Option UInt8 :=
  if c = 34 ∨ c = 92 ∨ c = 47 then some c
  else if c = 98 then some 8 else if c = 102 then some 12
  else if c = 110 then some 10 else if c = 114 then some 13
  else if c = 116 then some 9 else none

/-- The value of a hexadecimal digit. -/
def hexValue (c : UInt8) : Option Nat :=
  if 48 ≤ c ∧ c ≤ 57 then some (c.toNat - 48)
  else if 97 ≤ c ∧ c ≤ 102 then some (c.toNat - 87)
  else if 65 ≤ c ∧ c ≤ 70 then some (c.toNat - 55)
  else none

/-- One byte, in a configuration that is not inside a number. -/
def stepSettled : State → UInt8 → State
  | .bad, _ => .bad
  | .top v, c => if isSpace c then .top v else .bad
  | .run st (.value orEmpty), c =>
      if isSpace c then .run st (.value orEmpty)
      else if orEmpty = true ∧ c = 93 then closeFrame c st
      else beginValue st c
  -- Behind a comma a key is due, so the brace closes an empty object only.
  | .run st (.key orEmpty), c =>
      if isSpace c then .run st (.key orEmpty)
      else if orEmpty = true ∧ c = 125 then closeFrame c st
      else if c = 34 then .run st (.str []) else .bad
  | .run st .colon, c =>
      if isSpace c then .run st .colon
      else if c = 58 then .run st (.value false) else .bad
  | .run st .after, c => if isSpace c then .run st .after else endValue st c
  -- A control byte has to be escaped.
  | .run st (.str ps), c =>
      if c = 34 then closeString ps st
      else if c = 92 then .run st (.esc ps)
      else if c < 32 then .bad
      else .run st (.str (ps ++ [.byte c]))
  | .run st (.esc ps), c =>
      if c = 117 then .run st (.hex ps 0 0)
      else match escapeByte c with
        | some b => .run st (.str (ps ++ [.byte b]))
        | none => .bad
  | .run st (.hex ps count acc), c =>
      match hexValue c with
      | some d =>
          if count = 3 then .run st (.str (ps ++ [.unit (acc * 16 + d)]))
          else .run st (.hex ps (count + 1) (acc * 16 + d))
      | none => .bad
  -- A number that goes on is settled before this function is asked.
  | .run _ (.num _), _ => .bad
  | .run st (.word rest v), c =>
      match rest with
      | [] => .bad
      | [d] => if c = d then pushValue v st else .bad
      | d :: rest => if c = d then .run st (.word rest v) else .bad

/-- A pending number is complete. -/
def settle : State → State
  | .run st (.num text) =>
      if h : isNumber text = true then pushValue (.num ⟨text, h⟩) st else .bad
  | s => s

/-- One byte. A byte that cannot continue a number ends it and is read again. -/
def step (s : State) (c : UInt8) : State :=
  match s with
  | .run st (.num text) =>
      if (numRun (text ++ [c])).isSome then .run st (.num (text ++ [c]))
      else stepSettled (settle s) c
  | _ => stepSettled s c

/-- The scanner before the first byte. -/
def start : State := .run [] (.value false)

/-- The scanner after a text. -/
def run (s : State) (data : Bytes) : State := data.foldl step s

/-- The value of a text that is one value and white space. -/
def parse (data : Bytes) : Option Json :=
  match settle (run start data) with
  | .top v => some v
  | _ => none

/-- Reading a stream until a value is complete. -/
def runFirst : State → Bytes → Option Json
  | s, [] => match settle s with
    | .top v => some v
    | _ => none
  | s, c :: rest =>
      match s with
      | .run st (.num text) =>
          if (numRun (text ++ [c])).isSome then runFirst (.run st (.num (text ++ [c]))) rest
          else match settle s with
            | .top v => some v
            | s' => runFirst (stepSettled s' c) rest
      | .top v => some v
      | _ => runFirst (stepSettled s c) rest

/-- `Decoder.Decode`: the first value of a stream, the rest left unread. -/
def parseFirst (data : Bytes) : Option Json := runFirst start data

/-- Scanning a concatenation scans the halves in turn. -/
theorem run_append (s : State) (a b : Bytes) : run s (a ++ b) = run (run s a) b :=
  List.foldl_append

theorem run_cons (s : State) (c : UInt8) (rest : Bytes) :
    run s (c :: rest) = run (step s c) rest := rfl

theorem run_nil (s : State) : run s [] = s := rfl

/-- Outside a number there is nothing to settle. -/
theorem step_of_not_num (s : State) (c : UInt8) (h : ∀ st text, s ≠ .run st (.num text)) :
    step s c = stepSettled s c := by
  cases s with
  | bad => rfl
  | top v => rfl
  | run st mode =>
      cases mode with
      | num text => exact absurd rfl (h st text)
      | _ => rfl

example : (parse " [1, \"\\u00e9\\ud83d\\ude00\"] ").map render =
    some ("[1,\"é😀\"]" : Bytes) := by decide

example : (parse "[1 2]").isNone ∧ (parse "[01]").isNone ∧
    (parseFirst "\x7b\x7d x").map render = some ("\x7b\x7d" : Bytes) := by decide

end Json

end Bop
