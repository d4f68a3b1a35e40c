import Bop.Json.Dynamic
import Mathlib.Data.List.TakeWhile

/-!
# Numbers as Floats

A number decoded into an `interface{}` becomes a `float64`, and whoever wants an
integer converts that. The literal is first rounded to the nearest float, ties
to the even one, and the float is then cut off at the point.

A float beyond the range of the integers has no defined conversion. The value
used here is the least integer, which is what amd64 makes of it.

## Main definitions

* `roundHalfEven`: Rounding a quotient.
* `floatTrunc`: The integer part of the nearest float.
* `Number.trunc`, `Number.toInt64`: `int(f)` of a literal's float.

## Theorems

* `parts_ofInt`: An integer's literal is its digits, unscaled.
* `overflows_ofInt`: No integer overflows.
* `toInt64_ofInt_ne_zero`: An integer other than zero is not converted to zero.
-/

namespace Bop

namespace Json

/-- A quotient rounded to an integer, ties to even. -/
def roundHalfEven (n d : Nat) : Nat :=
  if 2 * (n % d) < d then n / d
  else if d < 2 * (n % d) then n / d + 1
  else n / d + n / d % 2

/-- The integer part of the float nearest to a quotient. Its mantissa has 53
    bits, and below one only what is nearest to one has an integer part. -/
def floatTrunc (n d : Nat) : Nat :=
  if n < d then if 2 ^ 54 * (d - n) ≤ d then 1 else 0
  else
    let l := Nat.log2 (n / d)
    if 52 ≤ l then 2 ^ (l - 52) * roundHalfEven n (d * 2 ^ (l - 52))
    else roundHalfEven (n * 2 ^ (52 - l)) d / 2 ^ (52 - l)

/-- The integer part of a literal's float, without its sign. -/
def Number.trunc (n : Number) : Nat :=
  match n.parts with
  | (digits, .ofNat e) => floatTrunc (digits * 10 ^ e) 1
  | (digits, .negSucc e) => floatTrunc digits (10 ^ (e + 1))

/-- `int(f)` for the float of a literal. -/
def Number.toInt64 (n : Number) : Int :=
  let i : Int := if n.text.head? = some 45 then -n.trunc else n.trunc
  if -(2 ^ 63) ≤ i ∧ i < 2 ^ 63 then i else -(2 ^ 63)

/-- No digit is a sign, a point or an exponent. -/
theorem digit_plain (b : UInt8) (h : isDigit b = true) :
    b ≠ 101 ∧ b ≠ 69 ∧ b ≠ 46 := by
  refine ⟨?_, ?_, ?_⟩ <;> rintro rfl <;> exact absurd h (by decide)

/-- The literal of an integer is its digits, unscaled. -/
theorem parts_ofInt (i : Int) : (Number.ofInt i).parts = (i.natAbs, 0) := by
  have hsplit : ∃ sign : Bytes, (sign = [] ∨ sign = [45]) ∧
      itoa i = sign ++ itoaNat i.natAbs := by
    cases i with
    | ofNat n => exact ⟨[], Or.inl rfl, rfl⟩
    | negSucc n => exact ⟨[45], Or.inr rfl, rfl⟩
  rcases hsplit with ⟨sign, hsign, htext⟩
  have hdigits := List.all_eq_true.mp (all_isDigit_itoaNat i.natAbs)
  -- Neither the digits nor the sign is an exponent or a point.
  have hplain : ∀ b ∈ itoa i, b ≠ 101 ∧ b ≠ 69 ∧ b ≠ 46 := by
    intro b hb
    rw [htext] at hb
    rcases List.mem_append.mp hb with hb | hb
    · rcases hsign with rfl | rfl
      · cases hb
      · rw [List.mem_singleton.mp hb]
        decide
    · exact digit_plain b (hdigits b hb)
  have hmantissa : (itoa i).takeWhile (fun b => decide (b ≠ 101 ∧ b ≠ 69)) = itoa i :=
    List.takeWhile_eq_self_iff.mpr fun b hb => decide_eq_true ⟨(hplain b hb).1, (hplain b hb).2.1⟩
  have hwhole : (itoa i).takeWhile (fun b => decide (b ≠ 46)) = itoa i :=
    List.takeWhile_eq_self_iff.mpr fun b hb => decide_eq_true (hplain b hb).2.2
  have hfilter : (itoa i).filter isDigit = itoaNat i.natAbs := by
    rw [htext, List.filter_append, List.filter_eq_self.mpr hdigits]
    rcases hsign with rfl | rfl <;> rfl
  have hdrop : (itoa i).drop ((itoa i).length + 1) = [] :=
    List.drop_eq_nil_of_le (Nat.le_succ _)
  simp only [Number.parts, Number.ofInt, hmantissa, hwhole, hdrop, List.append_nil, hfilter,
    parseDigits_itoaNat, List.filter_nil, List.length_nil]
  rfl

/-- No 64-bit integer overflows. -/
theorem overflows_ofInt (i : Int) (h : i.natAbs ≤ 2 ^ 63) : (Number.ofInt i).overflows = false := by
  have hbound : 2 ^ 63 < (2 ^ 54 - 1) * 2 ^ 970 := by decide +kernel
  unfold Number.overflows
  rw [parts_ofInt]
  change decide ((2 ^ 54 - 1) * 2 ^ 970 ≤ i.natAbs * 1) = false
  rw [decide_eq_false_iff_not, Nat.mul_one, not_le]
  exact lt_of_le_of_lt h hbound

/-- Rounding does not lose a whole unit. -/
theorem roundHalfEven_pos (n d : Nat) (hd : 0 < d) (h : d ≤ n) : 0 < roundHalfEven n d := by
  have hq : 0 < n / d := Nat.div_pos h hd
  unfold roundHalfEven
  split
  · exact hq
  · split <;> omega

/-- Neither does rounding to a float. -/
theorem floatTrunc_one_pos (n : Nat) (h : 0 < n) : 0 < floatTrunc n 1 := by
  unfold floatTrunc
  rw [if_neg (by omega)]
  simp only [Nat.div_one, Nat.one_mul]
  split
  · next hl =>
      have hle : 2 ^ (Nat.log2 n - 52) ≤ n :=
        le_trans (Nat.pow_le_pow_right (by decide) (Nat.sub_le _ _)) (Nat.log2_self_le h.ne')
      exact Nat.mul_pos (Nat.two_pow_pos _)
        (roundHalfEven_pos n _ (Nat.two_pow_pos _) hle)
  · have hscaled : roundHalfEven (n * 2 ^ (52 - Nat.log2 n)) 1 = n * 2 ^ (52 - Nat.log2 n) := by
      simp [roundHalfEven, Nat.mod_one]
    rw [hscaled, Nat.mul_div_cancel _ (Nat.two_pow_pos _)]
    exact h

/-- An integer other than zero is not converted to zero. -/
theorem toInt64_ofInt_ne_zero (i : Int) (h : i ≠ 0) : (Number.ofInt i).toInt64 ≠ 0 := by
  have htrunc : (Number.ofInt i).trunc = floatTrunc i.natAbs 1 := by
    unfold Number.trunc
    rw [parts_ofInt]
    exact congrArg (floatTrunc · 1) (Nat.mul_one _)
  have hpos := floatTrunc_one_pos i.natAbs (Int.natAbs_pos.mpr h)
  have hclip : ∀ j : Int, j ≠ 0 → (if -(2 ^ 63) ≤ j ∧ j < 2 ^ 63 then j else -(2 ^ 63)) ≠ 0 := by
    intro j hj
    split
    · exact hj
    · decide
  rw [Number.toInt64, htrunc]
  refine hclip _ ?_
  split <;> omega

example : (Number.ofInt 5432).toInt64 = 5432 ∧ (Number.ofInt (2 ^ 53 + 1)).toInt64 = 2 ^ 53 ∧
    (Number.ofInt (2 ^ 63 - 1)).toInt64 = -(2 ^ 63) := by decide +kernel

end Json

end Bop
