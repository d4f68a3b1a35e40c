import Bop.Inventory

/-!
# Reading Settings

What the plugins' `ParseConfig` functions share. A plugin's settings are a map
of anything, and the checks are type assertions: a value of another type counts
as one that is missing, except where a list is expected, which must be a list
of strings or absent.

## Main definitions

* `setting`, `settingString`: A value, and a value that is a string.
* `toStringSlice`: A list of strings.
* `Settings`: What a plugin was configured with.
-/

namespace Bop

/-- The `%T` verb on a value of a document. -/
def Dyn.typeName : Dyn → Bytes
  | .nil => "<nil>"
  | .bool _ => "bool"
  | .int _ => "int"
  | .float _ => "float64"
  | .str _ => "string"
  | .list _ => "[]interface \x7b\x7d"
  | .map _ => "map[string]interface \x7b\x7d"

/-- `raw[key]`, which is nil when the key is missing. -/
def setting (raw : List (Bytes × Dyn)) (key : Bytes) : Dyn := (raw.lookup key).getD .nil

/-- `s, _ := v.(string)`. -/
def Dyn.asString : Dyn → Bytes
  | .str s => s
  | _ => []

/-- `s, _ := raw[key].(string)`. -/
def settingString (raw : List (Bytes × Dyn)) (key : Bytes) : Bytes := (setting raw key).asString

/-- The items of a list, all of which must be strings, the first with the
    index `i`. -/
def stringItems (i : Nat) : List Dyn → Except Bytes (List Bytes)
  | [] => .ok []
  | item :: rest => match item with
    | .str s => (stringItems (i + 1) rest).map (s :: ·)
    | _ => .error ("expected a string at index " ++ itoaNat i ++ ", got " ++ item.typeName)

/-- `toStringSlice`. A nil value is a nil slice. -/
def toStringSlice : Dyn → Except Bytes (Option (List Bytes))
  | .nil => .ok none
  | .list raw => (stringItems 0 raw).map some
  | v => .error ("expected a list, got " ++ v.typeName)

/-- A list of strings as the map of a plugin's settings holds it. -/
def Dyn.ofStrings (xs : List Bytes) : Dyn := .list (xs.map .str)

@[simp] theorem stringItems_map_str (xs : List Bytes) (i : Nat) :
    stringItems i (xs.map .str) = .ok xs := by
  induction xs generalizing i with
  | nil => rfl
  | cons x xs ih =>
      simp only [List.map_cons, stringItems, ih]
      rfl

/-- A list of strings reads back as itself, and is never nil. -/
@[simp] theorem toStringSlice_ofStrings (xs : List Bytes) :
    toStringSlice (Dyn.ofStrings xs) = .ok (some xs) := by
  simp only [Dyn.ofStrings, toStringSlice, stringItems_map_str]
  rfl

/-- A parser that returned a configuration got past each of its checks. -/
theorem of_guard_ok {ε α : Type} {c : Prop} [Decidable c] {err : ε} {rest : Except ε α} {a : α}
    (h : (if c then .error err else rest) = .ok a) : ¬ c ∧ rest = .ok a := by
  split at h
  · cases h
  · next hc => exact ⟨hc, h⟩

end Bop
