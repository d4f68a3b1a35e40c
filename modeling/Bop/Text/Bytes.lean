import Mathlib.Data.List.Basic
import Mathlib.Data.List.Infix

/-!
# Byte Strings

A Go `string` is a sequence of bytes, and so is everything that crosses a
process boundary here: a command line, a dump, a file. Both are `Bytes`. A
string literal coerces to the bytes of its UTF-8 encoding, which the kernel
can evaluate, so concrete inputs stay decidable.

The helpers below are the functions of Go's `strings` and `strconv` packages
the program calls, on bytes.

## Main definitions

* `Bytes`: A byte string.
* `Bytes.ofString`: The bytes of a literal.
* `replaceByte`: `strings.ReplaceAll` for a one-byte pattern.
* `hasSuffix`, `trimSuffix`: `strings.HasSuffix` and `strings.TrimSuffix`.
* `join`: `strings.Join`.
* `NulFree`: No byte is zero, so the string can be an argument.
* `quoteGo`: The `%q` verb on ASCII text.

## Theorems

* `nulFree_append`: Both halves of a NUL-free string are NUL-free.
* `join_cons_cons`: Joining peels off the first element.
-/

namespace Bop

/-- A Go string or byte slice. -/
abbrev Bytes := List UInt8

/-- The UTF-8 bytes of a literal. -/
def Bytes.ofString (s : String) : Bytes := s.toUTF8.data.toList

instance : Coe String Bytes := ⟨Bytes.ofString⟩

instance : LawfulBEq Bytes := inferInstanceAs (LawfulBEq (List UInt8))

/-- `strings.ReplaceAll` where the pattern is one byte. -/
def replaceByte (old : UInt8) (new : Bytes) (s : Bytes) : Bytes :=
  s.flatMap (fun b => if b = old then new else [b])

/-- `strings.HasSuffix`. -/
def hasSuffix (s suffix : Bytes) : Bool := suffix.isSuffixOf s

/-- `strings.TrimSuffix`. -/
def trimSuffix (s suffix : Bytes) : Bytes :=
  if hasSuffix s suffix then s.take (s.length - suffix.length) else s

/-- `strings.Join`. -/
def join (sep : Bytes) : List Bytes → Bytes
  | [] => []
  | [s] => s
  | s :: t :: rest => s ++ sep ++ join sep (t :: rest)

/-- No byte is zero. A command-line argument cannot hold one. -/
def NulFree (s : Bytes) : Prop := (0 : UInt8) ∉ s

/-- The hexadecimal digit of a value below sixteen. -/
def hexDigit (n : Nat) : UInt8 :=
  if n < 10 then UInt8.ofNat (48 + n) else UInt8.ofNat (87 + n)

/-- One byte under the `%q` verb. Bytes from 0x80 on pass through, which is
    what Go does for the printable characters they spell. -/
def quoteGoByte (b : UInt8) : Bytes :=
  if b = 34 then "\\\"" else if b = 92 then "\\\\"
  else if b = 7 then "\\a" else if b = 8 then "\\b" else if b = 12 then "\\f"
  else if b = 10 then "\\n" else if b = 13 then "\\r" else if b = 9 then "\\t"
  else if b = 11 then "\\v"
  else if b < 32 ∨ b = 127 then
    "\\x" ++ [hexDigit (b.toNat / 16), hexDigit (b.toNat % 16)]
  else [b]

/-- `fmt`'s `%q` verb. -/
def quoteGo (s : Bytes) : Bytes := "\"" ++ s.flatMap quoteGoByte ++ "\""

/-- `strconv.Itoa` on a natural number. -/
def itoaNat (n : Nat) : Bytes := (Nat.toDigits 10 n).map (fun c => UInt8.ofNat c.toNat)

/-- `strconv.Itoa`. -/
def itoa (i : Int) : Bytes :=
  match i with
  | .ofNat n => itoaNat n
  | .negSucc n => "-" ++ itoaNat (n + 1)

theorem nulFree_append (s t : Bytes) : NulFree (s ++ t) ↔ NulFree s ∧ NulFree t := by
  simp only [NulFree, List.mem_append, not_or]

theorem join_cons_cons (sep s t : Bytes) (rest : List Bytes) :
    join sep (s :: t :: rest) = s ++ sep ++ join sep (t :: rest) := rfl

example : quoteGo "a\"b\n" = "\"a\\\"b\\n\"" := by decide

end Bop
