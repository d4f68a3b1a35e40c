import Bop.Json.Number
import Bop.Text.Utf8

/-!
# JSON Values and How They Are Written

A JSON value, and the compact text `encoding/json` writes for one with HTML
escaping on, which is its default. Strings are Go strings, so they may hold
bytes that are not UTF-8: the writer replaces each by an escaped U+FFFD, and
`Json.sanitize` is the value with that replacement made.

Objects keep their members in the order they were written. Nothing forbids a
repeated key, and what a repeated key means is up to the decoder.

## Main definitions

* `Json`: A JSON value.
* `escapeRune`: One character inside a string literal.
* `quote`: A string literal.
* `Json.render`: The text of a value.
* `Json.depth`: How deeply a value nests.
* `Json.sanitize`: The value with stray bytes replaced.
-/

namespace Bop

/-- A JSON value. -/
inductive Json
  | null
  | bool (b : Bool)
  | num (n : Json.Number)
  | str (s : Bytes)
  | arr (xs : List Json)
  | obj (ms : List (Bytes × Json))

namespace Json

/-- The escape of a UTF-16 unit. -/
def unitEscape (n : Nat) : Bytes :=
  "\\u" ++ [hexDigit (n / 4096 % 16), hexDigit (n / 256 % 16), hexDigit (n / 16 % 16),
    hexDigit (n % 16)]

/-- The characters with an escape of their own, and the byte after the
    backslash. -/
def shortEscape (c : Char) : Option UInt8 :=
  if c = '"' then some 34 else if c = '\\' then some 92
  else if c = '\x08' then some 98 else if c = '\x0c' then some 102
  else if c = '\n' then some 110 else if c = '\r' then some 114
  else if c = '\t' then some 116 else none

/-- The characters that are written as a UTF-16 unit: the other control
    characters, what HTML gives a meaning, and two line separators. -/
def escapesUnit (c : Char) : Bool :=
  c.toNat < 32 || c = '<' || c = '>' || c = '&' || c = '\u2028' || c = '\u2029'

/-- One character of a string literal. -/
def escapeRune : Option Char → Bytes
  | none => unitEscape 0xFFFD
  | some c => match shortEscape c with
    | some b => [92, b]
    | none => if escapesUnit c then unitEscape c.toNat else String.utf8EncodeChar c

/-- A string literal. -/
def quote (s : Bytes) : Bytes := 34 :: (Utf8.runes s).flatMap escapeRune ++ [34]

mutual

/-- The text of a value. -/
def render : Json → Bytes
  | .null => "null"
  | .bool true => "true"
  | .bool false => "false"
  | .num n => n.text
  | .str s => quote s
  | .arr [] => "[]"
  | .arr (x :: xs) => "[" ++ render x ++ renderElements xs ++ "]"
  | .obj [] => "\x7b\x7d"
  | .obj ((k, v) :: ms) =>
      "\x7b" ++ quote k ++ ":" ++ render v ++ renderMembers ms ++ "\x7d"

/-- The elements after the first. -/
def renderElements : List Json → Bytes
  | [] => []
  | x :: xs => "," ++ render x ++ renderElements xs

/-- The members after the first. -/
def renderMembers : List (Bytes × Json) → Bytes
  | [] => []
  | (k, v) :: ms => "," ++ quote k ++ ":" ++ render v ++ renderMembers ms

end

mutual

/-- How many brackets are open at the deepest point of a value. -/
def depth : Json → Nat
  | .arr xs => depthElements xs + 1
  | .obj ms => depthMembers ms + 1
  | _ => 0

def depthElements : List Json → Nat
  | [] => 0
  | x :: xs => max (depth x) (depthElements xs)

def depthMembers : List (Bytes × Json) → Nat
  | [] => 0
  | (_, v) :: ms => max (depth v) (depthMembers ms)

end

mutual

/-- The value with every stray byte of its strings replaced. -/
def sanitize : Json → Json
  | .str s => .str (Utf8.sanitize s)
  | .arr xs => .arr (sanitizeElements xs)
  | .obj ms => .obj (sanitizeMembers ms)
  | v => v

def sanitizeElements : List Json → List Json
  | [] => []
  | x :: xs => sanitize x :: sanitizeElements xs

def sanitizeMembers : List (Bytes × Json) → List (Bytes × Json)
  | [] => []
  | (k, v) :: ms => (Utf8.sanitize k, sanitize v) :: sanitizeMembers ms

end

/-- The integer a Go integer field is written as. -/
def int (i : Int) : Json := .num (Number.ofInt i)

example : render (.obj [("a", .arr [int 1, .str "<\n"])]) =
    "\x7b\"a\":[1,\"\\u003c\\n\"]\x7d" := by decide

end Json

end Bop
