import Bop.Json.Number
import Mathlib.Algebra.Ring.Nat

/-!
# Calendar Dates

The parts of Go's `time` package the program depends on: which texts
`time.Time` accepts when it is decoded from JSON, and the calendar date of a
day.

A date is found by taking whole cycles off the number of days since the first
of January of the year 1: four centuries, then centuries, then four years,
then years. A cycle may end in a longer last part, which is why the quotient
by centuries and by years stops at three.

## Main definitions

* `isLeap`, `daysIn`: The lengths of years and months.
* `isTime`: The texts that `Time.UnmarshalJSON` accepts.
* `cycles`: Whole cycles of a length, at most a given number of them.
* `yearDay`: The year of a day and its place in the year.
* `monthDay`: The month and the day of the month, given the months' lengths.
* `civil`: The date of a day.

## Theorems

* `cycles_lt`: A later day has more cycles, or as many and more left over.
* `yearDay_lt`, `monthDay_lt`, `civil_lt`: A later day has a later date.
* `civil_bounds`: The month and the day are those of a calendar.
-/

namespace Bop

/-! ### The calendar -/

/-- `isLeap`. -/
def isLeap (year : Nat) : Bool := year % 4 = 0 ∧ (year % 100 ≠ 0 ∨ year % 400 = 0)

/-- The lengths of the months of a year. -/
def monthLengths (leap : Bool) : List Nat :=
  [31, if leap then 29 else 28, 31, 30, 31, 30, 31, 31, 30, 31, 30, 31]

/-- `daysIn`. -/
def daysIn (month year : Nat) : Nat := (monthLengths (isLeap year)).getD (month - 1) 0

/-- Whole cycles of `length` days in `n` days, at most `most` of them, and the
    days left over. -/
def cycles (length most n : Nat) : Nat × Nat :=
  let q := min (n / length) most
  (q, n - length * q)

/-- The year of a day counted from the first of January of the year 1, and the
    day of that year. -/
def yearDay (day : Nat) : Nat × Nat :=
  let fourCenturies := (day / 146097, day % 146097)
  let centuries := cycles 36524 3 fourCenturies.2
  let fourYears := (centuries.2 / 1461, centuries.2 % 1461)
  let years := cycles 365 3 fourYears.2
  (400 * fourCenturies.1 + 100 * centuries.1 + 4 * fourYears.1 + years.1 + 1, years.2)

/-- The month and the day of the month of a day of the year, the first month
    having the number `month`. -/
def monthDay (month : Nat) : List Nat → Nat → Nat × Nat
  | [], day => (month, day + 1)
  | length :: rest, day =>
      if day < length then (month, day + 1) else monthDay (month + 1) rest (day - length)

/-- Year, month and day of a day counted from the first of January of the
    year 1. -/
def civil (day : Nat) : Nat × Nat × Nat :=
  ((yearDay day).1, monthDay 1 (monthLengths (isLeap (yearDay day).1)) (yearDay day).2)

example : civil 0 = (1, 1, 1) ∧ civil 730178 = (2000, 2, 29) ∧ civil 730484 = (2000, 12, 31) ∧
    civil 719162 = (1970, 1, 1) ∧ civil 3652058 = (9999, 12, 31) := by decide +kernel

/-! ### The order of dates -/

/-- A later day has more whole cycles behind it, or as many and more days left
    over. -/
theorem cycles_lt (length most n m : Nat) (h : n < m) :
    (cycles length most n).1 < (cycles length most m).1 ∨
      (cycles length most n).1 = (cycles length most m).1 ∧
        (cycles length most n).2 < (cycles length most m).2 := by
  have hdiv : n / length ≤ m / length := Nat.div_le_div_right (Nat.le_of_lt h)
  have hle : length * min (n / length) most ≤ n :=
    (Nat.mul_le_mul_left _ (Nat.min_le_left _ _)).trans (Nat.mul_div_le n length)
  simp only [cycles]
  by_cases hsame : min (n / length) most = min (m / length) most
  · refine Or.inr ⟨hsame, ?_⟩
    rw [← hsame]
    omega
  · exact Or.inl (by omega)

/-- The same without a bound on the cycles. -/
theorem div_mod_lt (length n m : Nat) (h : n < m) :
    n / length < m / length ∨ n / length = m / length ∧ n % length < m % length := by
  have hdiv : n / length ≤ m / length := Nat.div_le_div_right (Nat.le_of_lt h)
  have hn := Nat.div_add_mod n length
  have hm := Nat.div_add_mod m length
  by_cases hsame : n / length = m / length
  · rw [hsame] at hn
    exact Or.inr ⟨hsame, by omega⟩
  · exact Or.inl (by omega)

theorem cycles_le (length most n : Nat) : (cycles length most n).1 ≤ most := Nat.min_le_right _ _

/-- The days a century of four leaves over, of which the last is one longer. -/
theorem centuries_rest (n : Nat) : (cycles 36524 3 (n % 146097)).2 < 36525 := by
  have hn := Nat.mod_lt n (show 0 < 146097 by omega)
  simp only [cycles]
  omega

/-- The days a year of four leaves over, of which the last is one longer. -/
theorem years_rest (n : Nat) : (cycles 365 3 (n % 1461)).2 < 366 := by
  have hn := Nat.mod_lt n (show 0 < 1461 by omega)
  simp only [cycles]
  omega

/-- A later day is in a later year, or in the same and later in it. -/
theorem yearDay_lt (n m : Nat) (h : n < m) :
    (yearDay n).1 < (yearDay m).1 ∨
      (yearDay n).1 = (yearDay m).1 ∧ (yearDay n).2 < (yearDay m).2 := by
  -- No cycle reaches the next longer one, so years are ordered as their parts.
  have hparts : ∀ a a' b b' c c' d d' x y : Nat, b ≤ 3 → c ≤ 24 → d ≤ 3 →
      (a < a' ∨ a = a' ∧ (b < b' ∨ b = b' ∧ (c < c' ∨ c = c' ∧ (d < d' ∨ d = d' ∧ x < y)))) →
      400 * a + 100 * b + 4 * c + d + 1 < 400 * a' + 100 * b' + 4 * c' + d' + 1 ∨
        400 * a + 100 * b + 4 * c + d + 1 = 400 * a' + 100 * b' + 4 * c' + d' + 1 ∧ x < y := by
    omega
  refine hparts _ _ _ _ _ _ _ _ _ _ (cycles_le _ _ _) ?_ (cycles_le _ _ _) ?_
  · exact Nat.le_of_lt_succ (Nat.div_lt_of_lt_mul (centuries_rest n))
  · refine (div_mod_lt 146097 n m h).imp_right (And.imp_right fun hrest => ?_)
    refine (cycles_lt 36524 3 _ _ hrest).imp_right (And.imp_right fun hrest => ?_)
    refine (div_mod_lt 1461 _ _ hrest).imp_right (And.imp_right fun hrest => ?_)
    exact cycles_lt 365 3 _ _ hrest

theorem le_monthDay (month : Nat) (lengths : List Nat) (day : Nat) :
    month ≤ (monthDay month lengths day).1 := by
  induction lengths generalizing month day with
  | nil => exact Nat.le_refl month
  | cons length rest ih =>
      unfold monthDay
      split
      · exact Nat.le_refl month
      · exact (Nat.le_succ month).trans (ih (month + 1) _)

/-- A later day of a year is in a later month, or in the same and later in it. -/
theorem monthDay_lt (month : Nat) (lengths : List Nat) (n m : Nat) (h : n < m) :
    (monthDay month lengths n).1 < (monthDay month lengths m).1 ∨
      (monthDay month lengths n).1 = (monthDay month lengths m).1 ∧
        (monthDay month lengths n).2 < (monthDay month lengths m).2 := by
  induction lengths generalizing month n m with
  | nil => exact Or.inr ⟨rfl, Nat.succ_lt_succ h⟩
  | cons length rest ih =>
      unfold monthDay
      by_cases hm : m < length
      · rw [if_pos (h.trans hm), if_pos hm]
        exact Or.inr ⟨rfl, Nat.succ_lt_succ h⟩
      · rw [if_neg hm]
        by_cases hn : n < length
        · rw [if_pos hn]
          exact Or.inl (le_monthDay (month + 1) rest _)
        · rw [if_neg hn]
          exact ih (month + 1) _ _ (by omega)

/-- A date before another one. -/
def DateLt (a b : Nat × Nat × Nat) : Prop :=
  a.1 < b.1 ∨ a.1 = b.1 ∧ (a.2.1 < b.2.1 ∨ a.2.1 = b.2.1 ∧ a.2.2 < b.2.2)

/-- A later day has a later date. -/
theorem civil_lt (n m : Nat) (h : n < m) : DateLt (civil n) (civil m) := by
  rcases yearDay_lt n m h with hyear | ⟨hyear, hday⟩
  · exact Or.inl hyear
  · refine Or.inr ⟨hyear, ?_⟩
    unfold civil
    rw [hyear]
    exact monthDay_lt 1 _ _ _ hday

/-- A day left over after a fourth year is the last of the four. -/
theorem years_of_rest (n : Nat) (h : ¬ (cycles 365 3 (n % 1461)).2 < 365) :
    (cycles 365 3 (n % 1461)).1 = 3 ∧ n % 1461 = 1460 := by
  have hn := Nat.mod_lt n (show 0 < 1461 by omega)
  simp only [cycles] at h ⊢
  omega

/-- A day left over after the last century is the last of the four. -/
theorem centuries_of_rest (n : Nat) (h : (cycles 36524 3 (n % 146097)).2 = 36524) :
    (cycles 36524 3 (n % 146097)).1 = 3 := by
  have hn := Nat.mod_lt n (show 0 < 146097 by omega)
  simp only [cycles] at h ⊢
  omega

/-- The fourth of four years is a leap year, unless it ends a century that does
    not end four of them. -/
theorem isLeap_of_parts (a b c : Nat) (hc : c < 24 ∨ c = 24 ∧ b = 3) :
    isLeap (400 * a + 100 * b + 4 * c + 3 + 1) = true := by
  simp only [isLeap, decide_eq_true_eq]
  omega

/-- A year has the days of its months. -/
theorem yearDay_lt_sum (n : Nat) :
    (yearDay n).2 < (monthLengths (isLeap (yearDay n).1)).sum := by
  have hsum : ∀ leap, (monthLengths leap).sum = if leap = true then 366 else 365 := by decide
  have hrest := years_rest (cycles 36524 3 (n % 146097)).2
  rw [hsum]
  by_cases hday : (yearDay n).2 < 365
  · split <;> omega
  · -- The year has a day more, so it is the last of its four.
    rcases years_of_rest (cycles 36524 3 (n % 146097)).2 hday with ⟨hyears, hlast⟩
    have hcenturies := centuries_rest n
    have hparts : (cycles 36524 3 (n % 146097)).2 / 1461 < 24 ∨
        (cycles 36524 3 (n % 146097)).2 / 1461 = 24 ∧ (cycles 36524 3 (n % 146097)).1 = 3 := by
      by_cases hlate : (cycles 36524 3 (n % 146097)).2 / 1461 < 24
      · exact Or.inl hlate
      · exact Or.inr ⟨by omega, centuries_of_rest n (by omega)⟩
    have hleap : isLeap (yearDay n).1 = true := by
      simp only [yearDay]
      rw [hyears]
      exact isLeap_of_parts _ _ _ hparts
    rw [if_pos hleap]
    exact hrest

/-- A day within the months is in one of them. -/
theorem monthDay_le (month : Nat) (lengths : List Nat) (day most : Nat)
    (hmost : ∀ n ∈ lengths, n ≤ most) (h : day < lengths.sum) :
    (monthDay month lengths day).1 < month + lengths.length ∧
      (monthDay month lengths day).2 ≤ most := by
  induction lengths generalizing month day with
  | nil => exact absurd h (Nat.not_lt_zero day)
  | cons length rest ih =>
      rw [List.sum_cons] at h
      unfold monthDay
      by_cases hday : day < length
      · rw [if_pos hday]
        have hlen := hmost length List.mem_cons_self
        exact ⟨Nat.lt_add_of_pos_right (Nat.succ_pos _), by omega⟩
      · rw [if_neg hday, List.length_cons]
        have hrest := ih (month + 1) (day - length)
          (fun n hn => hmost n (List.mem_cons_of_mem _ hn)) (by omega)
        exact ⟨by omega, hrest.2⟩

/-- The month and the day are those of a calendar. -/
theorem civil_bounds (n : Nat) : (civil n).2.1 ≤ 12 ∧ (civil n).2.2 ≤ 31 := by
  have hlengths : ∀ leap, (monthLengths leap).length = 12 ∧ ∀ n ∈ monthLengths leap, n ≤ 31 := by
    decide
  have hle := monthDay_le 1 (monthLengths (isLeap (yearDay n).1)) (yearDay n).2 31
    (hlengths _).2 (yearDay_lt_sum n)
  rw [(hlengths _).1] at hle
  exact ⟨Nat.le_of_lt_succ hle.1, hle.2⟩

/-! ### Texts that are times -/

/-- `getnum`: a number of two digits, or of one where that is allowed. -/
def getnum (fixed : Bool) : Bytes → Option (Nat × Bytes)
  | a :: b :: rest =>
      if Json.isDigit a = false then none
      else if Json.isDigit b = true then some (10 * (a.toNat - 48) + (b.toNat - 48), rest)
      else if fixed = true then none
      else some (a.toNat - 48, b :: rest)
  | [a] => if Json.isDigit a = true ∧ fixed = false then some (a.toNat - 48, []) else none
  | [] => none

/-- A number of four digits. -/
def getYear (s : Bytes) : Option (Nat × Bytes) := do
  let (century, s) ← getnum true s
  let (year, s) ← getnum true s
  return (100 * century + year, s)

/-- `skip` for a layout of one byte. -/
def skipByte (c : UInt8) : Bytes → Option Bytes
  | b :: rest => if b = c then some rest else none
  | [] => none

/-- A fraction of a second, after a period or a comma. -/
def skipFraction : Bytes → Bytes
  | sep :: d :: rest =>
      if (sep = 46 ∨ sep = 44) ∧ Json.isDigit d = true then rest.dropWhile Json.isDigit
      else sep :: d :: rest
  | s => s

/-- The zone of the layout: a `Z`, or an offset of hours and minutes. Offsets of
    24 hours and of 60 minutes are let through. -/
def skipZone : Bytes → Option Bytes
  | 90 :: rest => some rest
  | sign :: s => do
      guard (sign = 43 ∨ sign = 45)
      let (hour, s) ← getnum true s
      let s ← skipByte 58 s
      let (minute, s) ← getnum true s
      guard (hour ≤ 24 ∧ minute ≤ 60)
      return s
  | [] => none

/-- `Time.UnmarshalJSON` accepts the text: `time.Parse` under the layout
    `2006-01-02T15:04:05Z07:00`. -/
def isTime (s : Bytes) : Bool := Option.isSome do
  let (year, s) ← getYear s
  let s ← skipByte 45 s
  let (month, s) ← getnum true s
  let s ← skipByte 45 s
  let (day, s) ← getnum true s
  let s ← skipByte 84 s
  let (hour, s) ← getnum false s
  let s ← skipByte 58 s
  let (minute, s) ← getnum true s
  let s ← skipByte 58 s
  let (second, s) ← getnum true s
  let s ← skipZone (skipFraction s)
  guard (s = [] ∧ 1 ≤ month ∧ month ≤ 12 ∧ 1 ≤ day ∧ day ≤ daysIn month year)
  guard (hour < 24 ∧ minute < 60 ∧ second < 60)

example : isTime "2026-07-01T02:03:04.5+02:00" = true ∧ isTime "2025-02-29T02:03:04Z" = false := by
  decide +kernel

end Bop
