import Bop.Json.FloatValue

/-!
# The Shortest Literal of a Float

What `Number::toString` prints of a float that is an integer. Many integers may
have the same nearest float. The one that is printed has as many zeros at its end
as possible, and of those it is the closest to the float. So it is read back as
that float, but it need not be the float itself, and an integer that is a float
need not be printed as it is.

The integers with one nearest float follow each other. If one of them is a
multiple of a power of ten, one of the two multiples around the float is.

## Main definitions

* `shortestNat`, `shortest`: The literal of a float.
* `nearest`: The float of an integer.
* `IsShortest`: An integer that is the literal of its float.

## Theorems

* `floatTrunc_shortestNat`: What is printed is read back.
* `isShortest_of_le`: Up to the range of the mantissa it is the number.
* `shortest_reread_iff`: The integers that come back from their floats.
-/

namespace Bop

namespace Json

/-- Of the two multiples of a power of ten around a float, the one that has it for
    its nearest float, and the closer one if both have. -/
def multipleNear (x e : Nat) : Option Nat :=
  let low := x / 10 ^ e * 10 ^ e
  let high := low + 10 ^ e
  if floatTrunc low 1 = x then
    if floatTrunc high 1 = x ∧ high - x < x - low then some high else some low
  else if floatTrunc high 1 = x then some high
  else none

/-- `Number::toString` of a float that is a natural number, below `10 ^ 21`. -/
def shortestNat (x : Nat) : Nat :=
  ((List.range (Nat.log 10 x + 2)).reverse.findSome? (multipleNear x)).getD x

/-- `Number::toString` of a float that is an integer. -/
def shortest (x : Int) : Int :=
  if x < 0 then -(shortestNat x.natAbs : Int) else shortestNat x.natAbs

/-- The float nearest to an integer. -/
def nearest (i : Int) : Int :=
  if i < 0 then -(floatTrunc i.natAbs 1 : Int) else floatTrunc i.natAbs 1

/-- The integer is what its nearest float is printed as. -/
def IsShortest (i : Int) : Prop := shortest (nearest i) = i

/-- A float is its own nearest float. -/
theorem floatTrunc_idem (n : Nat) : floatTrunc (floatTrunc n 1) 1 = floatTrunc n 1 :=
  (floatTrunc_one_eq_iff _).mpr (dvd_floatTrunc n)

/-- The multiple is one, and the float is its nearest. -/
theorem multipleNear_spec (x e m : Nat) (h : multipleNear x e = some m) :
    floatTrunc m 1 = x ∧ (m = x / 10 ^ e * 10 ^ e ∨ m = x / 10 ^ e * 10 ^ e + 10 ^ e) := by
  unfold multipleNear at h
  dsimp only at h
  split_ifs at h with hlow hboth hhigh
  · cases h
    exact ⟨hboth.1, Or.inr rfl⟩
  · cases h
    exact ⟨hlow, Or.inl rfl⟩
  · cases h
    exact ⟨hhigh, Or.inr rfl⟩

/-- A float is printed as one of these multiples. -/
theorem shortestNat_spec (x : Nat) (hx : floatTrunc x 1 = x) :
    ∃ e, multipleNear x e = some (shortestNat x) := by
  -- The float itself is a multiple of one.
  have hself : multipleNear x 0 = some x := by
    unfold multipleNear
    simp only [Nat.pow_zero, Nat.div_one, Nat.mul_one, hx, if_true]
    rw [if_neg (by omega)]
  have hfound : ((List.range (Nat.log 10 x + 2)).reverse.findSome? (multipleNear x)).isSome := by
    rw [List.findSome?_isSome_iff]
    refine ⟨0, ?_, by rw [hself]; rfl⟩
    rw [List.mem_reverse, List.mem_range]
    omega
  rcases Option.isSome_iff_exists.mp hfound with ⟨m, hm⟩
  rcases List.exists_of_findSome?_eq_some hm with ⟨e, _, he⟩
  exact ⟨e, by rw [shortestNat, hm, Option.getD_some, he]⟩

/-- What is printed is read back. -/
theorem floatTrunc_shortestNat (x : Nat) (hx : floatTrunc x 1 = x) :
    floatTrunc (shortestNat x) 1 = x := by
  rcases shortestNat_spec x hx with ⟨e, he⟩
  exact (multipleNear_spec x e _ he).1

/-- Numbers with more than 54 bits are not rounded down to 53. -/
theorem le_of_floatTrunc_le (m : Nat) (h : floatTrunc m 1 ≤ 2 ^ 53) : m ≤ 2 ^ 53 + 1 := by
  by_contra hlt
  have hm : 2 ^ 53 + 2 ≤ m := by omega
  have hne : m ≠ 0 := by omega
  have hl : 53 ≤ Nat.log2 m := (Nat.le_log2 hne).mpr (by omega)
  rcases Nat.exists_eq_add_of_le (by omega : 52 ≤ Nat.log2 m) with ⟨k, hk⟩
  have hbound := (roundHalfEven_bounds m (2 ^ k) (Nat.two_pow_pos k)).1
  have hsize : 2 ^ 52 * 2 ^ k ≤ m := by
    rw [← Nat.pow_add, ← hk]
    exact Nat.log2_self_le hne
  rw [(floatTrunc_long m k hne hk).1] at h
  generalize 2 ^ k * roundHalfEven m (2 ^ k) = r at h hbound
  generalize 2 ^ k = d at hbound hsize
  omega

/-- Up to the range of the mantissa an integer is its own literal. -/
theorem isShortest_of_le (i : Int) (h : i.natAbs ≤ 2 ^ 53) : IsShortest i := by
  have hexact : ∀ n ≤ 2 ^ 53, floatTrunc n 1 = n := by
    intro n hn
    rw [floatTrunc_one_eq_iff]
    rcases Nat.lt_or_eq_of_le hn with hlt | rfl
    · by_cases hzero : n = 0
      · exact hzero ▸ Nat.dvd_zero _
      · have hlog : Nat.log2 n < 53 := (Nat.log2_lt hzero).mpr hlt
        rw [Nat.sub_eq_zero_of_le (by omega)]
        exact Nat.one_dvd n
    · decide +kernel
  have hprinted : shortestNat i.natAbs = i.natAbs := by
    rcases shortestNat_spec i.natAbs (hexact _ h) with ⟨e, he⟩
    rcases multipleNear_spec _ e _ he with ⟨hfloat, hmultiple⟩
    generalize shortestNat i.natAbs = m at he hfloat hmultiple
    have hm := le_of_floatTrunc_le m (hfloat ▸ h)
    rcases Nat.lt_or_eq_of_le hm with hlt | rfl
    · exact (hexact m (by omega)).symm.trans hfloat
    · -- The next number is no multiple of ten.
      have hfloor : floatTrunc (2 ^ 53 + 1) 1 = 2 ^ 53 := by decide +kernel
      rw [hfloor] at hfloat
      cases e with
      | zero =>
          have hself : multipleNear (2 ^ 53) 0 = some (2 ^ 53) := by decide +kernel
          rw [← hfloat, hself, Option.some.injEq] at he
          omega
      | succ e =>
          exfalso
          have hdvd : 10 ∣ 2 ^ 53 + 1 := by
            have hten : 10 ∣ 10 ^ (e + 1) := Dvd.intro_left (10 ^ e) rfl
            rcases hmultiple with hmultiple | hmultiple <;> rw [hmultiple]
            · exact Dvd.dvd.mul_left hten _
            · exact Nat.dvd_add (Dvd.dvd.mul_left hten _) hten
          revert hdvd
          decide
  unfold IsShortest shortest nearest
  rw [hexact _ h]
  split_ifs with hneg hneg' hneg'
  · rw [Int.natAbs_neg, Int.natAbs_natCast, hprinted]
    omega
  · omega
  · omega
  · rw [Int.natAbs_natCast, hprinted]
    omega

/-- The value of an integer's literal is the nearest float. -/
theorem value_ofInt (i : Int) : (Number.ofInt i).value = (nearest i : ℚ) := by
  have htext : (Number.ofInt i).text.head? = some 45 ↔ i < 0 := head?_itoa_iff i
  unfold Number.value nearest
  rw [magnitude_ofInt]
  simp only [htext]
  split_ifs
  · push_cast
    rfl
  · rfl

/-- The conversion to an integer is that float, if it is in range. -/
theorem toInt64_ofInt (i : Int) : (Number.ofInt i).toInt64 =
    if -(2 ^ 63) ≤ nearest i ∧ nearest i < 2 ^ 63 then nearest i else -(2 ^ 63) := by
  have htrunc : (Number.ofInt i).trunc = floatTrunc i.natAbs 1 := by
    unfold Number.trunc
    rw [parts_ofInt]
    exact congrArg (floatTrunc · 1) (Nat.mul_one _)
  have htext : (Number.ofInt i).text.head? = some 45 ↔ i < 0 := head?_itoa_iff i
  unfold Number.toInt64 nearest
  rw [htrunc]
  simp only [htext]

/-- Below a power of two no number is rounded to more. -/
theorem floatTrunc_le (n : Nat) (h : n ≤ 2 ^ 63) : floatTrunc n 1 ≤ 2 ^ 63 := by
  rcases Nat.lt_or_eq_of_le h with hlt | rfl
  · by_cases hfits : 2 ^ (Nat.log2 n - 52) ∣ n
    · rw [(floatTrunc_one_eq_iff n).mpr hfits]
      exact h
    · have hn : n ≠ 0 := fun h => hfits (h ▸ Nat.dvd_zero _)
      have hl : 52 ≤ Nat.log2 n := by
        by_contra hshort
        rw [Nat.sub_eq_zero_of_le (by omega)] at hfits
        exact hfits (Nat.one_dvd n)
      rcases Nat.exists_eq_add_of_le hl with ⟨k, hk⟩
      rcases floatTrunc_long n k hn hk with ⟨htrunc, hround⟩
      have hlog : Nat.log2 n < 63 := (Nat.log2_lt hn).mpr hlt
      have hscale : 2 ^ k ≤ 2 ^ 10 := Nat.pow_le_pow_right (by decide) (by omega)
      rw [htrunc, show 2 ^ 63 = 2 ^ 10 * 2 ^ 53 from rfl]
      exact Nat.mul_le_mul hscale hround
  · decide +kernel

/-- An integer comes back from its float, by way of a 64-bit integer and the float's
    literal, exactly when it is that literal. -/
theorem shortest_reread_iff (i : Int) (hlow : -(2 ^ 63) ≤ i) (hhigh : i < 2 ^ 63) :
    shortest (nearest (Number.ofInt i).toInt64) = i ↔ IsShortest i := by
  have hle := floatTrunc_le i.natAbs (by omega)
  rw [toInt64_ofInt]
  split_ifs with hrange
  · -- A float in range is converted to itself, and is its own float.
    have hself : nearest (nearest i) = nearest i := by
      have hidem := floatTrunc_idem i.natAbs
      unfold nearest
      generalize floatTrunc i.natAbs 1 = x at hidem
      split_ifs with h₁ h₂ h₂ <;> simp only [Int.natAbs_neg, Int.natAbs_natCast, hidem] <;> omega
    rw [hself, IsShortest]
  · -- What is rounded up to the first float out of range is converted to the least
    -- integer, and the literal of either is another.
    have hup : nearest i = 2 ^ 63 := by
      unfold nearest at hrange ⊢
      generalize floatTrunc i.natAbs 1 = x at hle hrange
      split_ifs at hrange ⊢ <;> omega
    have hleast : shortest (nearest (-(2 ^ 63))) = -9223372036854776000 := by decide +kernel
    have hfirst : shortest (2 ^ 63) = 9223372036854776000 := by decide +kernel
    rw [IsShortest, hup, hleast, hfirst]
    omega

example : IsShortest (10 ^ 17) ∧ shortest (2 ^ 60) = 1152921504606847000 := by
  unfold IsShortest
  decide +kernel

end Json

end Bop
