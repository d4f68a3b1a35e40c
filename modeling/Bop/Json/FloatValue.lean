import Bop.Json.Float
import Mathlib.Algebra.Order.Floor.Semifield
import Mathlib.Data.Nat.Log
import Mathlib.Data.Rat.Floor
import Mathlib.Tactic.Linarith
import Mathlib.Tactic.Positivity

/-!
# The Value of a Float

A literal's nearest float as a rational number, below one as well as above it.
Converting a float to an integer cuts it off at the point, so the conversion is
the floor of the value, and a float that is an integer is converted to itself.

## Main definitions

* `floatValue`: The float nearest to a quotient.
* `Number.value`: The float of a literal.
* `FitsFloat`: An integer with no more bits than a float.

## Theorems

* `roundHalfEven_bounds`: Rounding is off by at most a half.
* `floor_floatValue`: The conversion to an integer is the floor.
* `toInt64_of_value`: A float that is an integer is converted to it.
* `toInt64_ofInt_iff`: When an integer comes back from its float.
* `dvd_floatTrunc`: A float has no more bits than one.
-/

namespace Bop

namespace Json

/-- The float nearest to a quotient: 53 bits from the first one on, but none
    below the last place of the least normal number. -/
def floatValue (n d : Nat) : ℚ :=
  if n < d then
    let k := min (Nat.clog 2 ((d + n - 1) / n)) 1022
    (roundHalfEven (n * 2 ^ (52 + k)) d : ℚ) / 2 ^ (52 + k)
  else
    let l := Nat.log2 (n / d)
    if 52 ≤ l then ((2 ^ (l - 52) * roundHalfEven n (d * 2 ^ (l - 52)) : Nat) : ℚ)
    else (roundHalfEven (n * 2 ^ (52 - l)) d : ℚ) / 2 ^ (52 - l)

/-- The float of a literal, without its sign. -/
def Number.magnitude (n : Number) : ℚ :=
  match n.parts with
  | (digits, .ofNat e) => floatValue (digits * 10 ^ e) 1
  | (digits, .negSucc e) => floatValue digits (10 ^ (e + 1))

/-- The float of a literal. -/
def Number.value (n : Number) : ℚ :=
  if n.text.head? = some 45 then -n.magnitude else n.magnitude

/-- Rounding is off by at most a half. -/
theorem roundHalfEven_bounds (n d : Nat) (hd : 0 < d) :
    2 * n ≤ 2 * (d * roundHalfEven n d) + d ∧ 2 * (d * roundHalfEven n d) ≤ 2 * n + d := by
  have hdiv := Nat.div_add_mod n d
  have hmod := Nat.mod_lt n hd
  -- Down, up, or a tie.
  unfold roundHalfEven
  split_ifs with hlow hhigh
  · omega
  · rw [Nat.mul_add]
    omega
  · -- A tie goes down to an even quotient, or up from an odd one.
    rcases Nat.mod_two_eq_zero_or_one (n / d) with heven | hodd
    · rw [heven, Nat.add_zero]
      omega
    · rw [hodd, Nat.mul_add]
      omega

/-- A tie below an even number goes up to it. -/
theorem le_roundHalfEven (n d c : Nat) (hd : 0 < d) (hc : c % 2 = 0)
    (h : 2 * (d * c) ≤ 2 * n + d) : c ≤ roundHalfEven n d := by
  by_contra hlt
  have hle : roundHalfEven n d + 1 ≤ c := Nat.lt_of_not_le hlt
  have hup := (roundHalfEven_bounds n d hd).1
  have hmul : d * (roundHalfEven n d + 1) ≤ d * c := Nat.mul_le_mul_left d hle
  rw [Nat.mul_add, Nat.mul_one] at hmul
  -- Only a tie is left, and its quotient is odd.
  have heq : d * (roundHalfEven n d + 1) = d * c := by
    rw [Nat.mul_add, Nat.mul_one]
    omega
  have hround : roundHalfEven n d + 1 = c := Nat.eq_of_mul_eq_mul_left hd heq
  have htie : 2 * n = 2 * (d * roundHalfEven n d) + d := by
    rw [← hround, Nat.mul_add, Nat.mul_one] at h
    omega
  have hdiv := Nat.div_add_mod n d
  have hmod := Nat.mod_lt n hd
  unfold roundHalfEven at htie hround
  split_ifs at htie hround with hlow hhigh
  · omega
  · rw [Nat.mul_add, Nat.mul_one] at htie
    omega
  · rcases Nat.mod_two_eq_zero_or_one (n / d) with heven | hodd
    · omega
    · rw [hodd, Nat.mul_add] at htie
      omega

/-- The floor of a scaled number. -/
theorem floor_scaled (m j : Nat) : ⌊((m : ℚ) / 2 ^ j)⌋₊ = m / 2 ^ j := by
  have hcast : ((2 : ℚ) ^ j) = ((2 ^ j : Nat) : ℚ) := by push_cast; rfl
  rw [hcast]
  exact Nat.floor_div_eq_div m (2 ^ j)

/-- A number below one half is rounded to less than one at every scale. -/
theorem roundHalfEven_below_half (n d k : Nat) (hd : 0 < d) (h : 2 * n < d) :
    roundHalfEven (n * 2 ^ (52 + k)) d < 2 ^ (52 + k) := by
  have hup := (roundHalfEven_bounds (n * 2 ^ (52 + k)) d hd).2
  have hscale : 2 * (n * 2 ^ (52 + k)) ≤ (d - 1) * 2 ^ (52 + k) := by
    rw [← Nat.mul_assoc]
    exact Nat.mul_le_mul_right _ (by omega)
  have hpow : 2 ≤ 2 ^ (52 + k) := by
    rw [Nat.pow_add]
    have := Nat.two_pow_pos k
    omega
  by_contra hge
  have hmul : d * 2 ^ (52 + k) ≤ d * roundHalfEven (n * 2 ^ (52 + k)) d :=
    Nat.mul_le_mul_left d (Nat.le_of_not_lt hge)
  have hsub : (d - 1) * 2 ^ (52 + k) ≤ d * 2 ^ (52 + k) := Nat.mul_le_mul_right _ (by omega)
  have hbig : d * 2 ≤ d * 2 ^ (52 + k) := Nat.mul_le_mul_left d hpow
  omega

/-- From one half on there are 53 places after the point, and one is reached by
    what is at most half a place below it. -/
theorem roundHalfEven_from_half (n d : Nat) (h : n < d) (hhalf : d ≤ 2 * n) :
    roundHalfEven (n * 2 ^ 53) d / 2 ^ 53 = if 2 ^ 54 * (d - n) ≤ d then 1 else 0 := by
  have hd : 0 < d := Nat.lt_of_le_of_lt (Nat.zero_le n) h
  have hbounds := roundHalfEven_bounds (n * 2 ^ 53) d hd
  have hle : roundHalfEven (n * 2 ^ 53) d ≤ 2 ^ 53 := by
    by_contra hlt
    have hmul : d * (2 ^ 53 + 1) ≤ d * roundHalfEven (n * 2 ^ 53) d :=
      Nat.mul_le_mul_left d (Nat.lt_of_not_le hlt)
    omega
  split_ifs with hone
  · have hge : 2 ^ 53 ≤ roundHalfEven (n * 2 ^ 53) d :=
      le_roundHalfEven _ d _ hd (by decide) (by omega)
    rw [Nat.le_antisymm hle hge]
    decide
  · refine Nat.div_eq_of_lt ?_
    by_contra hge
    -- Reaching one would need a quotient that rounds up to it.
    have hmul : d * 2 ^ 53 ≤ d * roundHalfEven (n * 2 ^ 53) d :=
      Nat.mul_le_mul_left d (Nat.le_of_not_lt hge)
    omega

/-- Of the floats below one only what is nearest to one has an integer part. -/
theorem floor_below_one (n d : Nat) (h : n < d) :
    roundHalfEven (n * 2 ^ (52 + min (Nat.clog 2 ((d + n - 1) / n)) 1022)) d /
      2 ^ (52 + min (Nat.clog 2 ((d + n - 1) / n)) 1022) =
    if 2 ^ 54 * (d - n) ≤ d then 1 else 0 := by
  by_cases hhalf : 2 * n < d
  · have hd : 0 < d := Nat.lt_of_le_of_lt (Nat.zero_le n) h
    rw [if_neg (by omega)]
    exact Nat.div_eq_of_lt (roundHalfEven_below_half n d _ hd hhalf)
  · have hn : 0 < n := by omega
    have hquot : (d + n - 1) / n = 2 := by
      refine Nat.div_eq_of_lt_le ?_ ?_ <;> omega
    have hscale : min (Nat.clog 2 2) 1022 = 1 := by decide
    rw [hquot, hscale]
    exact roundHalfEven_from_half n d h (Nat.le_of_not_lt hhalf)

/-- The conversion to an integer is the floor. -/
theorem floor_floatValue (n d : Nat) : ⌊floatValue n d⌋₊ = floatTrunc n d := by
  unfold floatValue floatTrunc
  split_ifs with h hone
  · rw [floor_scaled, floor_below_one n d h, if_pos hone]
  · rw [floor_scaled, floor_below_one n d h, if_neg hone]
  · dsimp only
    split_ifs
    · rw [Nat.floor_natCast]
    · exact floor_scaled _ _

theorem trunc_eq_floor (n : Number) : n.trunc = ⌊n.magnitude⌋₊ := by
  unfold Number.trunc Number.magnitude
  rcases n.parts with ⟨digits, e⟩
  cases e with
  | ofNat e => exact (floor_floatValue _ _).symm
  | negSucc e => exact (floor_floatValue _ _).symm

theorem floatValue_nonneg (n d : Nat) : 0 ≤ floatValue n d := by
  unfold floatValue
  split_ifs <;> positivity

theorem magnitude_nonneg (n : Number) : 0 ≤ n.magnitude := by
  unfold Number.magnitude
  split <;> exact floatValue_nonneg _ _

/-- The magnitude of a literal whose value is an integer. -/
theorem magnitude_of_value (n : Number) (i : Int) (h : n.value = i) :
    n.magnitude = (i.natAbs : ℚ) := by
  have hnonneg := magnitude_nonneg n
  rw [Nat.cast_natAbs, Int.cast_abs, ← h]
  unfold Number.value
  split_ifs
  · rw [abs_neg, abs_of_nonneg hnonneg]
  · rw [abs_of_nonneg hnonneg]

/-- A float that is a 64-bit integer is converted to it. -/
theorem toInt64_of_value (n : Number) (i : Int) (h : n.value = i) (hlow : -(2 ^ 63) ≤ i)
    (hhigh : i < 2 ^ 63) : n.toInt64 = i := by
  have hnonneg := magnitude_nonneg n
  have htrunc : n.trunc = i.natAbs := by
    rw [trunc_eq_floor, magnitude_of_value n i h, Nat.floor_natCast]
  have hsigned : (if n.text.head? = some 45 then -(n.trunc : Int) else n.trunc) = i := by
    rw [htrunc]
    unfold Number.value at h
    split_ifs at h ⊢ with hsign
    · -- With a minus sign the value is not positive.
      have hi : (i : ℚ) ≤ 0 := by linarith
      have hi' : i ≤ 0 := by exact_mod_cast hi
      omega
    · have hi : (0 : ℚ) ≤ i := by linarith
      have hi' : 0 ≤ i := by exact_mod_cast hi
      omega
  rw [Number.toInt64, hsigned, if_pos ⟨hlow, hhigh⟩]

/-! ### Integers that are floats -/

/-- The integer has at most 53 significant bits: what lies below them is zero. -/
def FitsFloat (i : Int) : Prop := 2 ^ (Nat.log2 i.natAbs - 52) ∣ i.natAbs

instance (i : Int) : Decidable (FitsFloat i) := inferInstanceAs (Decidable (_ ∣ _))

/-- Nothing is rounded of a whole number. -/
theorem roundHalfEven_one (n : Nat) : roundHalfEven n 1 = n := by
  simp [roundHalfEven, Nat.mod_one]

/-- A natural number is its own float when it has no more bits than a float. -/
theorem floatTrunc_one_eq_iff (n : Nat) : floatTrunc n 1 = n ↔ 2 ^ (Nat.log2 n - 52) ∣ n := by
  by_cases hn : n = 0
  · subst hn
    decide
  unfold floatTrunc
  rw [if_neg (by omega)]
  simp only [Nat.div_one, Nat.one_mul]
  split
  · next hl =>
    constructor
    · exact Dvd.intro _
    · rintro ⟨q, hq⟩
      have hpos := Nat.two_pow_pos (Nat.log2 n - 52)
      generalize 2 ^ (Nat.log2 n - 52) = d at hq hpos
      -- Nothing is left to be rounded.
      have hround : roundHalfEven n d = q := by
        rw [roundHalfEven, hq, Nat.mul_mod_right, Nat.mul_div_cancel_left q hpos,
          if_pos (by omega)]
      rw [hround, hq]
  · next hl =>
    -- All bits of the number fit.
    rw [roundHalfEven_one, Nat.mul_div_cancel _ (Nat.two_pow_pos _),
      Nat.sub_eq_zero_of_le (by omega)]
    exact iff_of_true rfl (Nat.one_dvd n)

theorem head?_itoa_iff (i : Int) : (itoa i).head? = some 45 ↔ i < 0 := by
  cases i with
  | ofNat n =>
      refine iff_of_false ?_ (Int.not_lt.mpr (Int.natCast_nonneg n))
      intro h
      have hdigits := all_isDigit_itoaNat n
      change (itoaNat n).head? = some 45 at h
      cases hcase : itoaNat n with
      | nil => exact absurd hcase (itoaNat_ne_nil n)
      | cons b rest =>
          rw [hcase] at h hdigits
          cases h
          rw [List.all_cons, Bool.and_eq_true] at hdigits
          exact absurd hdigits.1 (by decide)
  | negSucc n => exact iff_of_true rfl (Int.negSucc_lt_zero n)

/-- An integer comes back from its float when it has no more bits than one. -/
theorem toInt64_ofInt_iff (i : Int) (hlow : -(2 ^ 63) ≤ i) (hhigh : i < 2 ^ 63) :
    (Number.ofInt i).toInt64 = i ↔ FitsFloat i := by
  -- The literal has no fraction, so its integer part is that of one float.
  have htrunc : (Number.ofInt i).trunc = floatTrunc i.natAbs 1 := by
    unfold Number.trunc
    rw [parts_ofInt]
    exact congrArg (floatTrunc · 1) (Nat.mul_one _)
  have htext : (Number.ofInt i).text.head? = some 45 ↔ i < 0 := head?_itoa_iff i
  rw [FitsFloat, ← floatTrunc_one_eq_iff, Number.toInt64, htrunc]
  simp only [htext]
  generalize htop : floatTrunc i.natAbs 1 = t
  constructor
  · intro h
    -- Only the least integer is what the conversion answers out of range.
    by_cases hmin : i = -(2 ^ 63)
    · rw [← htop, hmin]
      decide +kernel
    · split_ifs at h <;> omega
  · intro h
    split_ifs <;> omega

/-- The float nearest to a natural number is one. -/
theorem floatValue_one (n : Nat) : floatValue n 1 = (floatTrunc n 1 : ℚ) := by
  by_cases hn : n = 0
  · subst hn
    decide +kernel
  have hnot : ¬ n < 1 := by omega
  unfold floatValue floatTrunc
  rw [if_neg hnot, if_neg hnot]
  simp only [Nat.div_one, Nat.one_mul]
  split
  · rfl
  · -- Below the 53rd bit nothing is rounded.
    rw [roundHalfEven_one, Nat.mul_div_cancel _ (Nat.two_pow_pos _)]
    push_cast
    exact mul_div_cancel_right₀ (n : ℚ) (by positivity)

/-- A number of more than 53 bits is rounded to a multiple of the power of two below
    them, and up to the next power of two at most. -/
theorem floatTrunc_long (n k : Nat) (hn : n ≠ 0) (hk : Nat.log2 n = 52 + k) :
    floatTrunc n 1 = 2 ^ k * roundHalfEven n (2 ^ k) ∧ roundHalfEven n (2 ^ k) ≤ 2 ^ 53 := by
  constructor
  · unfold floatTrunc
    rw [if_neg (by omega)]
    simp only [Nat.div_one, Nat.one_mul]
    rw [if_pos (by omega), hk, Nat.add_sub_cancel_left]
  · have hlt : n < 2 ^ 53 * 2 ^ k := by
      rw [← Nat.pow_add]
      exact lt_of_lt_of_eq (Nat.lt_log2_self (n := n)) (by rw [hk]; congr 1; omega)
    have hup := (roundHalfEven_bounds n (2 ^ k) (Nat.two_pow_pos k)).2
    by_contra hgt
    have hmul : 2 ^ k * (2 ^ 53 + 1) ≤ 2 ^ k * roundHalfEven n (2 ^ k) :=
      Nat.mul_le_mul_left _ (Nat.lt_of_not_le hgt)
    omega

/-- It has no more bits than a float. -/
theorem dvd_floatTrunc (n : Nat) :
    2 ^ (Nat.log2 (floatTrunc n 1) - 52) ∣ floatTrunc n 1 := by
  by_cases hfits : 2 ^ (Nat.log2 n - 52) ∣ n
  · rw [(floatTrunc_one_eq_iff n).mpr hfits]
    exact hfits
  have hn : n ≠ 0 := fun h => hfits (h ▸ Nat.dvd_zero _)
  have hl : 52 ≤ Nat.log2 n := by
    by_contra hlt
    rw [Nat.sub_eq_zero_of_le (by omega)] at hfits
    exact hfits (Nat.one_dvd n)
  rcases Nat.exists_eq_add_of_le hl with ⟨k, hk⟩
  rcases floatTrunc_long n k hn hk with ⟨htrunc, hround⟩
  rw [htrunc]
  rcases Nat.lt_or_eq_of_le hround with hlt | heq
  · refine Nat.dvd_trans (Nat.pow_dvd_pow 2 ?_) (Nat.dvd_mul_right (2 ^ k) _)
    by_cases hzero : 2 ^ k * roundHalfEven n (2 ^ k) = 0
    · rw [hzero]
      exact Nat.zero_le _
    · have hlog : Nat.log2 (2 ^ k * roundHalfEven n (2 ^ k)) < k + 53 := by
        rw [Nat.log2_lt hzero, Nat.pow_add]
        exact Nat.mul_lt_mul_of_pos_left hlt (Nat.two_pow_pos k)
      omega
  · -- It was rounded up to a power of two.
    rw [heq, ← Nat.pow_add, Nat.log2_two_pow]
    exact Nat.pow_dvd_pow 2 (by omega)

theorem magnitude_ofInt (i : Int) : (Number.ofInt i).magnitude = (floatTrunc i.natAbs 1 : ℚ) := by
  unfold Number.magnitude
  rw [parts_ofInt]
  exact (congrArg (floatValue · 1) (Nat.mul_one _)).trans (floatValue_one _)

end Json

end Bop
