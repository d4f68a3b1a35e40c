import Bop.Text.Bytes
import Mathlib.Algebra.Group.Int.Defs

/-!
# JSON Numbers

A JSON number is kept as the text it was written with, because that is what
`encoding/json` keeps until it knows the type it is decoding into. Which
texts are numbers is decided by the same small automaton the scanner runs, a
state after each byte, so that the scanner can ask it one byte at a time.

The program only ever reads integers back, `strconv.ParseInt` on the literal,
so `1.0` and `1e3` are numbers but not integers.

## Main definitions

* `NumState`: How far into a number the scanner is.
* `isNumber`: The texts the automaton accepts.
* `Number`: A number with the proof that it is one.
* `Number.ofInt`: The literal an integer is written as.
* `Number.toInt?`: The integer a literal denotes, if it is written as one.

## Theorems

* `numRun_itoaNat`: A decimal numeral is a number.
* `parseDigits_itoaNat`: Reading a numeral gives the number back.
* `toInt_ofInt`: Reading an integer's literal gives the integer back.
-/

namespace Bop

namespace Json

/-- How far into a number the scanner is. -/
inductive NumState
  | start | minus | zero | int | dot | frac | exp | expSign | expInt
  deriving DecidableEq

/-- A decimal digit. -/
def isDigit (b : UInt8) : Bool := 48 ≤ b ∧ b ≤ 57

/-- The state after one more byte, if a number can go on with it. -/
def numStep : NumState → UInt8 → Option NumState
  | .start, b => if b = 45 then some .minus else if b = 48 then some .zero
      else if isDigit b then some .int else none
  | .minus, b => if b = 48 then some .zero else if isDigit b then some .int else none
  | .zero, b => if b = 46 then some .dot else if b = 101 ∨ b = 69 then some .exp else none
  | .int, b => if isDigit b then some .int else if b = 46 then some .dot
      else if b = 101 ∨ b = 69 then some .exp else none
  | .dot, b => if isDigit b then some .frac else none
  | .frac, b => if isDigit b then some .frac
      else if b = 101 ∨ b = 69 then some .exp else none
  | .exp, b => if b = 43 ∨ b = 45 then some .expSign
      else if isDigit b then some .expInt else none
  | .expSign, b => if isDigit b then some .expInt else none
  | .expInt, b => if isDigit b then some .expInt else none

/-- The state after a text. -/
def numRun (text : Bytes) : Option NumState := text.foldlM numStep .start

/-- The states a number may end in. -/
def NumState.final : NumState → Bool
  | .zero | .int | .frac | .expInt => true
  | _ => false

/-- The texts that are JSON numbers. -/
def isNumber (text : Bytes) : Bool :=
  match numRun text with
  | some q => q.final
  | none => false

/-- A JSON number as it is written. -/
structure Number where
  /-- The literal. -/
  text : Bytes
  /-- It follows the grammar. -/
  valid : isNumber text = true
  deriving DecidableEq

/-- The value of a run of decimal digits. -/
def parseDigits (s : Bytes) : Nat :=
  Nat.ofDigitChars 10 (s.map (fun b => Char.ofNat b.toNat)) 0

/-- `strconv.ParseInt` in base ten, without a bound on the result. -/
def parseInt (s : Bytes) : Option Int :=
  match s with
  | [] => none
  | b :: rest =>
      if b = 45 then
        if rest ≠ [] ∧ rest.all isDigit then some (-(parseDigits rest : Int)) else none
      else if (b :: rest).all isDigit then some (parseDigits (b :: rest)) else none

/-- The integer a literal is written as. -/
def Number.toInt? (n : Number) : Option Int := parseInt n.text

theorem numRun_append (s t : Bytes) :
    numRun (s ++ t) = (numRun s).bind (fun q => t.foldlM numStep q) := by
  rw [numRun, List.foldlM_append]
  rfl

/-- A digit character is a digit byte. -/
theorem isDigit_digitChar : ∀ d < 10,
    isDigit (UInt8.ofNat (Nat.digitChar d).toNat) = true ∧
      Char.ofNat (UInt8.ofNat (Nat.digitChar d).toNat).toNat = Nat.digitChar d ∧
      (UInt8.ofNat (Nat.digitChar d).toNat = 48 ↔ d = 0) ∧
      UInt8.ofNat (Nat.digitChar d).toNat ≠ 45 := by
  decide

/-- A numeral is its leading part and a last digit. -/
theorem itoaNat_eq (n : Nat) : itoaNat n =
    if n < 10 then [UInt8.ofNat (Nat.digitChar n).toNat]
    else itoaNat (n / 10) ++ [UInt8.ofNat (Nat.digitChar (n % 10)).toNat] := by
  rw [itoaNat, Nat.toDigits_eq_if (by omega)]
  split
  · rfl
  · rw [List.map_append]
    rfl

/-- From the integer state a digit stays there. -/
theorem numStep_int (b : UInt8) (h : isDigit b = true) : numStep .int b = some .int := by
  simp only [numStep, h, if_true]

/-- A decimal numeral is a number: zero alone, or no leading zero. -/
theorem numRun_itoaNat (n : Nat) :
    numRun (itoaNat n) = some (if n = 0 then .zero else .int) ∧
      (0 < n → numStep .minus ((itoaNat n).headD 0) = some .int) := by
  induction n using Nat.strong_induction_on with
  | _ n ih =>
      rw [itoaNat_eq]
      by_cases hn : n < 10
      · rw [if_pos hn]
        -- A single digit, and a zero may not be followed by another.
        exact (by decide : ∀ d < 10,
          numRun [UInt8.ofNat (Nat.digitChar d).toNat] =
              some (if d = 0 then .zero else .int) ∧
            (0 < d → numStep .minus
              ([UInt8.ofNat (Nat.digitChar d).toNat].headD 0) = some .int)) n hn
      · have hpos : ¬ n / 10 = 0 := by omega
        have hdigit := (isDigit_digitChar (n % 10) (Nat.mod_lt _ (by omega))).1
        rcases ih (n / 10) (by omega) with ⟨hrun, hhead⟩
        rw [if_neg hn, numRun_append, hrun, if_neg hpos, if_neg (by omega : ¬ n = 0)]
        refine ⟨?_, fun _ => ?_⟩
        · simp only [Option.bind_some, List.foldlM_cons, List.foldlM_nil,
            numStep_int _ hdigit, Option.bind_eq_bind, Option.pure_def]
        · -- The number goes on behind the same first digit, so there is one.
          have hne : itoaNat (n / 10) ≠ [] := by
            intro hnil
            rw [hnil] at hrun
            rw [if_neg hpos] at hrun
            exact absurd hrun (by decide)
          have := hhead (by omega)
          cases hcase : itoaNat (n / 10) with
          | nil => exact absurd hcase hne
          | cons b rest =>
              rw [hcase] at this
              exact this

/-- Every byte of a numeral is a digit. -/
theorem all_isDigit_itoaNat (n : Nat) : (itoaNat n).all isDigit = true := by
  induction n using Nat.strong_induction_on with
  | _ n ih =>
      rw [itoaNat_eq]
      split
      · next h => simp only [List.all_cons, List.all_nil, Bool.and_true, (isDigit_digitChar n h).1]
      · next h =>
          simp only [List.all_append, ih (n / 10) (by omega), List.all_cons, List.all_nil,
            Bool.and_true, (isDigit_digitChar (n % 10) (Nat.mod_lt _ (by omega))).1]

theorem itoaNat_ne_nil (n : Nat) : itoaNat n ≠ [] := by
  rw [itoaNat]
  exact fun h => Nat.toDigits_ne_nil (List.map_eq_nil_iff.mp h)

/-- Reading a numeral gives the number back. -/
theorem parseDigits_itoaNat (n : Nat) : parseDigits (itoaNat n) = n := by
  have hmap : (itoaNat n).map (fun b => Char.ofNat b.toNat) = Nat.toDigits 10 n := by
    induction n using Nat.strong_induction_on with
    | _ n ih =>
        rw [itoaNat_eq, Nat.toDigits_eq_if (by omega)]
        split
        · next h => rw [List.map_cons, List.map_nil, (isDigit_digitChar n h).2.1]
        · next h =>
            rw [List.map_append, ih (n / 10) (by omega), List.map_cons, List.map_nil,
              (isDigit_digitChar (n % 10) (Nat.mod_lt _ (by omega))).2.1]
  rw [parseDigits, hmap, Nat.ofDigitChars_ten_toDigits]

/-- What `strconv` writes for an integer is a JSON number. -/
theorem isNumber_itoa (i : Int) : isNumber (itoa i) = true := by
  cases i with
  | ofNat n =>
      simp only [isNumber, itoa, (numRun_itoaNat n).1]
      split <;> rfl
  | negSucc n =>
      have hrun := (numRun_itoaNat (n + 1)).1
      have hhead := (numRun_itoaNat (n + 1)).2 (by omega)
      -- A digit that may follow the sign may also begin the number.
      have hstart : ∀ b : UInt8, numStep .minus b = some .int → numStep .start b = some .int := by
        intro b hb
        simp only [numStep] at hb ⊢
        split at hb
        · exact absurd hb (by decide)
        · next h48 =>
            split at hb
            · next hd =>
                have h45 : b ≠ 45 := by
                  rintro rfl
                  exact absurd hd (by decide)
                rw [if_neg h45, if_neg h48, if_pos hd]
            · exact absurd hb (by decide)
      cases hcase : itoaNat (n + 1) with
      | nil => exact absurd hcase (itoaNat_ne_nil _)
      | cons b rest =>
          rw [hcase, List.headD_cons] at hhead
          rw [hcase, if_neg (by omega : ¬ n + 1 = 0), numRun, List.foldlM_cons,
            hstart b hhead] at hrun
          have hminus : numRun ("-" ++ (b :: rest)) = some .int := by
            change (numStep .start 45).bind
              (fun q => (numStep q b).bind (fun q => rest.foldlM numStep q)) = some .int
            rw [show numStep .start 45 = some .minus from rfl, Option.bind_some, hhead]
            exact hrun
          simp only [isNumber, itoa, hcase, hminus, NumState.final]

/-- The literal an integer is written as. -/
def Number.ofInt (i : Int) : Number := ⟨itoa i, isNumber_itoa i⟩

/-- Reading an integer's literal gives the integer back. -/
theorem toInt_ofInt (i : Int) : (Number.ofInt i).toInt? = some i := by
  cases i with
  | ofNat n =>
      have hall := all_isDigit_itoaNat n
      cases hcase : itoaNat n with
      | nil => exact absurd hcase (itoaNat_ne_nil _)
      | cons b rest =>
          have hb : b ≠ 45 := by
            rintro rfl
            rw [hcase] at hall
            rw [List.all_cons, show isDigit 45 = false from by decide, Bool.false_and] at hall
            exact absurd hall (by decide)
          rw [hcase] at hall
          simp only [Number.toInt?, Number.ofInt, itoa, hcase, parseInt, if_neg hb, hall, if_true]
          rw [← hcase, parseDigits_itoaNat]
          rfl
  | negSucc n =>
      change parseInt (45 :: itoaNat (n + 1)) = _
      rw [parseInt, if_pos rfl, if_pos ⟨itoaNat_ne_nil _, all_isDigit_itoaNat _⟩,
        parseDigits_itoaNat]
      rfl

end Json

/-- `strconv.Atoi`. -/
def atoi (s : Bytes) : Option Int :=
  let unsigned := if s.head? = some 43 ∨ s.head? = some 45 then s.tail else s
  if unsigned ≠ [] ∧ unsigned.all Json.isDigit then
    let n : Int := Json.parseDigits unsigned
    let i := if s.head? = some 45 then -n else n
    if -(2 ^ 63) ≤ i ∧ i < 2 ^ 63 then some i else none
  else none

end Bop
