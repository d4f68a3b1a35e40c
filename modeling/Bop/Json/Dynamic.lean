import Bop.Inventory
import Bop.Json.Scan
import Mathlib.Algebra.Group.Nat.Defs

/-!
# Decoding into `map[string]interface{}`

What `json.Unmarshal` makes of a document when the target is a map of
anything: an object becomes the map, `null` leaves it nil, and everything else
is an error. Numbers become `float64`, so a literal beyond its range is an
error too, wherever it stands. A key that is repeated keeps its last value.

The text of a decoding error belongs to `encoding/json`. Only the fact that
there is one is kept.

## Main definitions

* `Number.overflows`: A literal too large for a `float64`.
* `toDyn`: A value as an `interface{}`.
* `unmarshalMap`: A document as a `map[string]interface{}`.
-/

namespace Bop

namespace Json

/-- What stands for the text of an `encoding/json` error. -/
def decodeError : Bytes := "json: cannot decode"

/-- The digits of a literal and the power of ten they are scaled by. -/
def Number.parts (n : Number) : Nat × Int :=
  let mantissa := n.text.takeWhile (fun b => b ≠ 101 ∧ b ≠ 69)
  let exponent := (n.text.drop (mantissa.length + 1)).filter (fun b => b ≠ 43)
  let whole := mantissa.takeWhile (fun b => b ≠ 46)
  let fraction := mantissa.drop (whole.length + 1)
  (parseDigits ((whole ++ fraction).filter isDigit),
    (parseInt exponent).getD 0 - fraction.length)

/-- The literal rounds to something beyond the largest `float64`: it is at
    least half a unit above it. -/
def Number.overflows (n : Number) : Bool :=
  let bound := (2 ^ 54 - 1) * 2 ^ 970
  match n.parts with
  | (digits, .ofNat e) => bound ≤ digits * 10 ^ e
  | (digits, .negSucc e) => bound * 10 ^ (e + 1) ≤ digits

mutual

/-- A value as an `interface{}`, unless a number in it overflows. -/
def toDyn : Json → Option Dyn
  | .null => some .nil
  | .bool b => some (.bool b)
  | .num n => if n.overflows then none else some (.float n)
  | .str s => some (.str s)
  | .arr xs => (toDynElements xs).map .list
  | .obj ms => (toDynMembers ms).map .map

def toDynElements : List Json → Option (List Dyn)
  | [] => some []
  | x :: xs => do
      let d ← toDyn x
      let ds ← toDynElements xs
      return d :: ds

def toDynMembers : List (Bytes × Json) → Option (List (Bytes × Dyn))
  | [] => some []
  | (k, v) :: ms => do
      let d ← toDyn v
      let ds ← toDynMembers ms
      return if ds.any (fun m => m.1 = k) then ds else (k, d) :: ds

end

/-- `json.Unmarshal` into a nil `map[string]interface{}`. -/
def unmarshalMap (data : Bytes) : Except Bytes (Option (List (Bytes × Dyn))) :=
  match parse data with
  | some .null => .ok none
  | some (.obj ms) => match toDynMembers ms with
    | some raw => .ok (some raw)
    | none => .error decodeError
  | _ => .error decodeError

end Json

end Bop
