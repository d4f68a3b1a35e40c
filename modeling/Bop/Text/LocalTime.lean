import Mathlib.Tactic.Ring
import Bop.Text.Rfc3339

/-!
# Local Time in a Browser

A `Date` is an instant, counted in milliseconds. What its methods read and set
is the local time, which is the instant and the offset of the time zone at it.
Offsets change, so a local time may belong to two instants, of which the first
is taken, or to none, and then the offset before the change is taken.

Setting the day of the month keeps the clock, and the instant of the same clock
on an earlier day is earlier by the days and by what the offset has changed.

## Main definitions

* `Zone`: The offsets of a time zone.
* `Zone.offsetAt`, `Zone.utc`: From a local time back to an instant.
* `getDate`, `setDate`, `toISOString`: Methods of `Date`.
* `FourDigits`: The days that have a date of ten bytes.

## Theorems

* `offsetAt_mem`: The offset that is taken is one of the zone.
* `offsetAt_of_first`: It is that of the first instant.
* `setDate_eq`: The instant of the same clock on an earlier day.
* `take_dayText_iff`: The first ten bytes of a text of a day say which day it is.
-/

namespace Bop

/-- Milliseconds in a day. -/
def msPerDay : Int := 86400000

/-- A time zone: by how many milliseconds its local time is ahead of UTC at an
    instant, which is less than a day. -/
structure Zone where
  offset : Int → Int
  bound : ∀ t, -msPerDay < offset t ∧ offset t < msPerDay

namespace Zone

/-- `LocalTime`. -/
def localTime (z : Zone) (t : Int) : Int := t + z.offset t

/-- The first place that is found, going from place to place by a step. -/
def search (p : Int → Bool) (step : Int) : Nat → Int → Option Int
  | 0, _ => none
  | n + 1, u => if p u = true then some u else search p step n (u + step)

/-- The first instant of a local time. It is at most a day away from it. -/
def first? (z : Zone) (t : Int) : Option Int :=
  search (fun u => z.localTime u = t) 1 (2 * msPerDay).toNat (t - msPerDay)

/-- The last instant of a local time. -/
def last? (z : Zone) (t : Int) : Option Int :=
  search (fun u => z.localTime u = t) (-1) (2 * msPerDay).toNat (t + msPerDay)

/-- The last local time before a given one that was not skipped. -/
def before? (z : Zone) (t : Int) : Option Int :=
  search (fun t' => (z.last? t').isSome) (-1) (2 * msPerDay).toNat (t - 1)

/-- The offset at a local time. One that was skipped has the offset before it
    was. -/
def offsetAt (z : Zone) (t : Int) : Int :=
  match z.first? t with
  | some u => z.offset u
  | none => match (z.before? t).bind z.last? with
    | some u => z.offset u
    | none => 0

/-- `UTC`. -/
def utc (z : Zone) (t : Int) : Int := t - z.offsetAt t

/-- What a search finds, and what it has passed. -/
theorem search_eq_some (p : Int → Bool) (step : Int) (n : Nat) (u v : Int)
    (h : search p step n u = some v) :
    p v = true ∧ ∃ k : Nat, v = u + k * step ∧ ∀ j : Nat, j < k → p (u + j * step) = false := by
  induction n generalizing u with
  | zero => cases h
  | succ n ih =>
      rw [search] at h
      split at h
      · next hp =>
        cases h
        exact ⟨hp, 0, by simp only [Nat.cast_zero, Int.zero_mul, Int.add_zero],
          fun j hj => absurd hj (Nat.not_lt_zero j)⟩
      · next hp =>
        rcases ih (u + step) h with ⟨hv, k, rfl, hpassed⟩
        refine ⟨hv, k + 1, by push_cast; ring, fun j hj => ?_⟩
        -- The place passed first, or one of those the rest has passed.
        cases j with
        | zero =>
            simpa only [Nat.cast_zero, Int.zero_mul, Int.add_zero, Bool.not_eq_true] using hp
        | succ j =>
            rw [← hpassed j (by omega)]
            congr 1
            push_cast
            ring

/-- A search finds something if there is something to be found. -/
theorem search_ne_none (p : Int → Bool) (step : Int) (n : Nat) (u : Int) (k : Nat) (hk : k < n)
    (h : p (u + k * step) = true) : search p step n u ≠ none := by
  induction n generalizing u k with
  | zero => omega
  | succ n ih =>
      rw [search]
      split
      · exact Option.some_ne_none u
      · next hp => cases k with
        | zero =>
            simp only [Nat.cast_zero, Int.zero_mul, Int.add_zero] at h
            exact absurd h hp
        | succ k =>
            refine ih (u + step) k (by omega) ?_
            rw [← h]
            congr 1
            push_cast
            ring

/-- Every local time that some instant has is found. -/
theorem first?_ne_none (z : Zone) (u : Int) : z.first? (z.localTime u) ≠ none := by
  have hbound := z.bound u
  -- The instant is less than a day from its local time.
  refine search_ne_none _ _ _ _ (u - (z.localTime u - msPerDay)).toNat ?_ ?_
  · rw [localTime]
    omega
  · rw [decide_eq_true_eq, Int.toNat_of_nonneg (by rw [localTime]; omega)]
    congr 1
    ring

theorem last?_ne_none (z : Zone) (u : Int) : z.last? (z.localTime u) ≠ none := by
  have hbound := z.bound u
  refine search_ne_none _ _ _ _ (z.localTime u + msPerDay - u).toNat ?_ ?_
  · rw [localTime]
    omega
  · rw [decide_eq_true_eq, Int.toNat_of_nonneg (by rw [localTime]; omega)]
    congr 1
    ring

/-- Not every local time before a given one was skipped. -/
theorem before?_ne_none (z : Zone) (t : Int) : z.before? t ≠ none := by
  have hbound := z.bound (t - msPerDay)
  -- The local time of a day before was not.
  refine search_ne_none _ _ _ _ (t - 1 - z.localTime (t - msPerDay)).toNat ?_ ?_
  · rw [localTime]
    omega
  · rw [Int.toNat_of_nonneg (by rw [localTime]; omega), Option.isSome_iff_ne_none]
    have hlast := last?_ne_none z (t - msPerDay)
    rw [show t - 1 + (t - 1 - z.localTime (t - msPerDay)) * -1 = z.localTime (t - msPerDay) by ring]
    exact hlast

/-- The offset that is taken is one of the zone. -/
theorem offsetAt_mem (z : Zone) (t : Int) : ∃ u, z.offsetAt t = z.offset u := by
  unfold offsetAt
  cases z.first? t with
  | some u => exact ⟨u, rfl⟩
  -- The local time was skipped, and the one before it was not.
  | none =>
      rcases Option.ne_none_iff_exists'.mp (before?_ne_none z t) with ⟨t', ht'⟩
      rcases Option.isSome_iff_exists.mp (search_eq_some _ _ _ _ _ ht').1 with ⟨u, hu⟩
      rw [ht', Option.bind_some, hu]
      exact ⟨u, rfl⟩

/-- It is that of the first instant, where there is one. -/
theorem offsetAt_of_first (z : Zone) (t u : Int) (hlocal : z.localTime u = t)
    (hbefore : ∀ v < u, z.localTime v ≠ t) : z.offsetAt t = z.offset u := by
  have hsome := first?_ne_none z u
  rw [hlocal] at hsome
  rcases Option.ne_none_iff_exists'.mp hsome with ⟨v, hv⟩
  rcases search_eq_some _ _ _ _ _ hv with ⟨hlocal', k, hk, hpassed⟩
  have hbound := z.bound u
  have heq : v = u := by
    rcases lt_trichotomy v u with h | h | h
    · exact absurd (of_decide_eq_true hlocal') (hbefore v h)
    · exact h
    · -- The search would have passed it.
      have hlow : t - msPerDay ≤ u := by
        rw [← hlocal, localTime]
        omega
      have := hpassed (u - (t - msPerDay)).toNat (by omega)
      rw [decide_eq_false_iff_not, Int.toNat_of_nonneg (by omega)] at this
      refine absurd ?_ this
      rw [← hlocal]
      congr 1
      ring
  rw [offsetAt, hv, heq]

end Zone

/-! ### Methods of `Date` -/

/-- `getDate`: the day of the month. -/
def getDate (z : Zone) (t : Int) : Int := (civilDate (z.localTime t / msPerDay)).2.2

/-- `TimeClip`: a date is at most a hundred million days from the epoch. -/
def timeClip (t : Int) : Option Int := if t.natAbs ≤ 8640000000000000 then some t else none

/-- `setDate`, and `none` for an invalid date. The first of the month is
    `getDate - 1` days before the day. -/
def setDate (z : Zone) (t date : Int) : Option Int :=
  let firstOfMonth := z.localTime t / msPerDay - (getDate z t - 1)
  timeClip (z.utc ((firstOfMonth + date - 1) * msPerDay + z.localTime t % msPerDay))

/-- A year: four digits, or a sign and six. -/
def yearText (year : Int) : Bytes :=
  if 0 ≤ year ∧ year ≤ 9999 then padDigits 4 year.toNat
  else (if year < 0 then ("-" : Bytes) else "+") ++ padDigits 6 year.natAbs

/-- The date of a day counted from the epoch. -/
def dayText (day : Int) : Bytes :=
  yearText (civilDate day).1 ++ "-" ++ padDigits 2 (civilDate day).2.1 ++ "-" ++
    padDigits 2 (civilDate day).2.2

/-- `toISOString` of a valid date. -/
def toISOString (t : Int) : Bytes :=
  dayText (t / msPerDay) ++ "T" ++ clockText (t % msPerDay / 1000).toNat ++ "." ++
    padDigits 3 (t % 1000).toNat ++ "Z"

/-- The days of the years 0 to 9999. -/
def FourDigits (day : Int) : Prop := 0 ≤ (civilDate day).1 ∧ (civilDate day).1 ≤ 9999

instance (day : Int) : Decidable (FourDigits day) := inferInstanceAs (Decidable (_ ∧ _))

/-- The instant of the same clock some days before. -/
theorem setDate_eq (z : Zone) (t i : Int) :
    setDate z t (getDate z t - i) = timeClip (z.utc (z.localTime t - i * msPerDay)) := by
  have hparts := Int.mul_ediv_add_emod (z.localTime t) msPerDay
  -- Counting from the first of the month, the day of the month cancels out.
  have hday : z.localTime t / msPerDay - (getDate z t - 1) + (getDate z t - i) - 1 =
      z.localTime t / msPerDay - i := by omega
  unfold setDate
  dsimp only
  rw [hday, Int.sub_mul, Int.mul_comm _ msPerDay]
  congr 2
  omega

/-! ### Texts of days -/

theorem dayText_of_fourDigits (d : Int) (h : FourDigits d) : dayText d = isoDate (civilDate d) := by
  have hyear : yearText (civilDate d).1 = padDigits 4 (civilDate d).1.toNat := if_pos h
  rw [dayText, hyear]
  rfl

/-- Any other year begins with a sign. -/
theorem yearText_of_not_fourDigits (d : Int) (h : ¬ FourDigits d) :
    yearText (civilDate d).1 =
      (if (civilDate d).1 < 0 then ("-" : Bytes) else "+") ++ padDigits 6 (civilDate d).1.natAbs :=
  if_neg h

/-- The text of any other day is longer. -/
theorem length_dayText (d : Int) : (dayText d).length = if FourDigits d then 10 else 13 := by
  split
  · -- A sign and two more digits.
    next h => rw [dayText_of_fourDigits d h, length_isoDate]
  · next h =>
    rw [dayText, yearText_of_not_fourDigits d h]
    split <;> simp only [List.length_append, length_padDigits] <;> rfl

/-- No two days have one text of ten bytes. -/
theorem isoDate_inj (d e : Int) (hd : FourDigits d) (he : FourDigits e)
    (h : isoDate (civilDate d) = isoDate (civilDate e)) : d = e := by
  rcases lt_trichotomy d e with hlt | heq | hlt
  · -- Dates of different days have an order.
    exact absurd (isoDate_lt d e hd.1 he.2 hlt) (h ▸ List.lt_irrefl _)
  · exact heq
  · exact absurd (isoDate_lt e d he.1 hd.2 hlt) (h ▸ List.lt_irrefl _)

/-- A year of other than four digits is written with a sign. -/
theorem head?_dayText_of_not_fourDigits (d : Int) (h : ¬ FourDigits d) :
    (dayText d).head? = some 43 ∨ (dayText d).head? = some 45 := by
  rw [dayText, yearText_of_not_fourDigits d h]
  split
  · exact Or.inr rfl
  · exact Or.inl rfl

/-- One of four digits begins with a digit. -/
theorem isDigit_head?_dayText (d : Int) (h : FourDigits d) (b : UInt8)
    (hb : (dayText d).head? = some b) : Json.isDigit b = true := by
  rw [dayText_of_fourDigits d h] at hb
  refine isDigit_padDigits 4 (civilDate d).1.toNat b (List.mem_of_mem_head? ?_)
  exact hb

/-- The first ten bytes of a text of a day are the date of a day exactly when it
    is that day and its year has four digits. -/
theorem take_dayText_iff (d e : Int) (rest : Bytes) :
    (dayText d ++ rest).take 10 = dayText e ↔ d = e ∧ FourDigits e := by
  constructor
  · intro h
    -- A date that is cut off has ten bytes at most.
    have he : FourDigits e := by
      by_contra hne
      have hlen := congrArg List.length h
      rw [List.length_take, length_dayText e, if_neg hne] at hlen
      omega
    refine ⟨?_, he⟩
    by_cases hd : FourDigits d
    · rw [List.take_append_of_le_length (by rw [length_dayText, if_pos hd]),
        List.take_of_length_le (by rw [length_dayText, if_pos hd]), dayText_of_fourDigits d hd,
        dayText_of_fourDigits e he] at h
      exact isoDate_inj d e hd he h
    · -- A sign is no digit.
      have hhead : (dayText e).head? = (dayText d).head? := by
        have hne : (dayText d).head? ≠ none := by
          rcases head?_dayText_of_not_fourDigits d hd with hsign | hsign <;> rw [hsign] <;> decide
        rw [← h, List.head?_take, if_neg (by decide), List.head?_append]
        exact Option.or_of_isSome (Option.isSome_iff_ne_none.mpr hne)
      rcases head?_dayText_of_not_fourDigits d hd with hsign | hsign
      · exact absurd (isDigit_head?_dayText e he _ (hhead.trans hsign)) (by decide)
      · exact absurd (isDigit_head?_dayText e he _ (hhead.trans hsign)) (by decide)
  · rintro ⟨rfl, hd⟩
    rw [List.take_append_of_le_length (by rw [length_dayText, if_pos hd]),
      List.take_of_length_le (by rw [length_dayText, if_pos hd])]

/-- A date of ten bytes is the date of one day. -/
theorem dayText_inj (d e : Int) (he : FourDigits e) (h : dayText d = dayText e) : d = e := by
  refine ((take_dayText_iff d e []).mp ?_).1
  rw [List.append_nil, h, List.take_of_length_le (by rw [length_dayText, if_pos he])]

/-- The days of the years 0 to 9999 are valid dates. -/
theorem timeClip_of_fourDigits (t : Int) (h : FourDigits (t / msPerDay)) :
    timeClip t = some t := by
  have hrest := Int.emod_lt_of_pos (t / msPerDay + 719162) (show (0 : Int) < 146097 by decide)
  have hrest₀ := Int.emod_nonneg (t / msPerDay + 719162) (show (146097 : Int) ≠ 0 by decide)
  have hyear := year_of_cycle ((t / msPerDay + 719162) % 146097).toNat (by omega)
  have hlow := h.1
  have hhigh := h.2
  unfold civilDate at hlow hhigh
  dsimp only at hlow hhigh
  rw [timeClip, if_pos]
  unfold msPerDay at *
  omega

end Bop
