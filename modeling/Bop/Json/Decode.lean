import Bop.Json.Scan
import Bop.Text.Base64

/-!
# Decoding into Go Types

What `json.Unmarshal` stores for each kind of target the program decodes into.
Every decoder takes the value that is already there, because decoding only
changes what the document mentions: `null` leaves a scalar alone, an absent
member leaves its field alone, and a member that occurs twice is decoded twice
into the same field. The zero value is where decoding starts.

A mismatch of types does not stop the decoder but is reported at the end, and
every caller discards the target then, so a decoder here just fails.

A slice that is decoded again reuses its memory. Its elements are decoded over
what the memory still holds, including what lies beyond the length of the
slice, so a slice keeps that memory.

## Main definitions

* `foldName`, `isField`: How a key selects a field.
* `decodeObject`: A struct.
* `decodeBool`, `decodeString`, `decodeInt`: Scalars.
* `decodePointer`: A pointer to a string.
* `GoSlice`, `decodeSlice`: Slices.
* `decodeByteSlice`: A `[]byte`, from Base64 or from an array.

## Theorems

* `decodeSlice_fresh`: Into a nil slice every element is decoded from zero.
-/

namespace Bop

namespace Json

/-- A key with the case of its letters folded. Two characters outside ASCII
    fold to a letter of it: the Kelvin sign and the long s. -/
def foldName : Bytes → Bytes
  | 0xE2 :: 0x84 :: 0xAA :: rest => 75 :: foldName rest
  | 0xC5 :: 0xBF :: rest => 83 :: foldName rest
  | b :: rest => (if 97 ≤ b ∧ b ≤ 122 then b - 32 else b) :: foldName rest
  | [] => []

/-- A key selects a field when their names agree up to case. -/
def isField (name key : Bytes) : Bool := foldName name = foldName key

/-- A struct: each member is offered to it in turn. -/
def decodeObject {α : Type} (member : Bytes → Json → α → Option α) : Json → α → Option α
  | .null, old => some old
  | .obj ms, old => ms.foldlM (fun acc m => member m.1 m.2 acc) old
  | _, _ => none

/-- A `bool`. -/
def decodeBool : Json → Bool → Option Bool
  | .null, old => some old
  | .bool b, _ => some b
  | _, _ => none

/-- A `string`. -/
def decodeString : Json → Bytes → Option Bytes
  | .null, old => some old
  | .str s, _ => some s
  | _, _ => none

/-- A `*string`. -/
def decodePointer : Json → Option Bytes → Option (Option Bytes)
  | .null, _ => some none
  | .str s, _ => some (some s)
  | _, _ => none

/-- An integer type with the given least and greatest value. -/
def decodeInt (least greatest : Int) : Json → Int → Option Int
  | .null, old => some old
  | .num n, _ => match n.toInt? with
    | some i => if least ≤ i ∧ i ≤ greatest then some i else none
    | none => none
  | _, _ => none

/-- A slice that is not nil: its elements, and what its memory holds after
    them. -/
structure GoSlice (α : Type) where
  elems : List α
  stale : List α
  deriving DecidableEq

/-- The memory a slice brings to being decoded again. -/
def GoSlice.memory {α : Type} : Option (GoSlice α) → List α
  | none => []
  | some s => s.elems ++ s.stale

/-- The elements of a slice. -/
def GoSlice.toList {α : Type} : Option (GoSlice α) → List α
  | none => []
  | some s => s.elems

/-- The elements of an array, each decoded over what the memory holds in its
    place, or over zero. Returns what is left of the memory. -/
def decodeElements {α : Type} (dec : Json → α → Option α) (zero : α) :
    List Json → List α → Option (List α × List α)
  | [], memory => some ([], memory)
  | x :: xs, memory => do
      let a ← dec x (memory.headD zero)
      let (as, stale) ← decodeElements dec zero xs memory.tail
      return (a :: as, stale)

/-- A slice. An empty array makes a new one. -/
def decodeSlice {α : Type} (dec : Json → α → Option α) (zero : α) :
    Json → Option (GoSlice α) → Option (Option (GoSlice α))
  | .null, _ => some none
  | .arr [], _ => some (some ⟨[], []⟩)
  | .arr xs, old => do
      let (elems, stale) ← decodeElements dec zero xs (GoSlice.memory old)
      return some ⟨elems, stale⟩
  | _, _ => none

/-- A `uint8`. -/
def decodeByte (v : Json) (old : UInt8) : Option UInt8 :=
  (decodeInt 0 255 v old.toNat).map (fun i => UInt8.ofNat i.toNat)

/-- A `[]byte`. -/
def decodeByteSlice : Json → Option (GoSlice UInt8) → Option (Option (GoSlice UInt8))
  | .str s, _ => (Base64.decode s).map (fun b => some ⟨b, []⟩)
  | v, old => decodeSlice decodeByte 0 v old

/-- Into a nil slice every element is decoded from zero. -/
theorem decodeSlice_fresh {α : Type} (dec : Json → α → Option α) (zero : α) (xs : List Json)
    (as : List α) (h : xs.mapM (fun x => dec x zero) = some as) :
    decodeSlice dec zero (.arr xs) none = some (some ⟨as, []⟩) := by
  -- A slice that does not exist yet has no element to decode into.
  have helems : decodeElements dec zero xs [] = some (as, []) := by
    induction xs generalizing as with
    | nil =>
        rw [List.mapM_nil] at h
        cases h
        rfl
    | cons x xs ih =>
        rw [List.mapM_cons] at h
        cases hx : dec x zero with
        | none =>
            rw [hx] at h
            cases h
        | some a =>
            rw [hx] at h
            cases hxs : xs.mapM (fun x => dec x zero) with
            | none =>
                rw [hxs] at h
                cases h
            | some as' =>
                rw [hxs] at h
                cases h
                simp only [decodeElements, List.headD_nil, hx, List.tail_nil, ih as' hxs,
                  Option.bind_eq_bind, Option.bind_some, Option.pure_def]
  cases xs with
  | nil =>
      rw [List.mapM_nil] at h
      cases h
      rfl
  | cons x xs =>
      simp only [decodeSlice, GoSlice.memory, helems, Option.bind_eq_bind, Option.bind_some,
        Option.pure_def]

example : isField "host" "HOſT" = true ∧ isField "host" "hosts" = false := by decide

end Json

end Bop
