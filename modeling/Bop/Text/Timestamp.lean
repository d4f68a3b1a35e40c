import Bop.Core
import Bop.Text.Calendar

/-!
# Times as Texts

The text that Go's `Time.String` makes of a time in UTC. Date and clock have a
fixed width, but the fraction of a second is cut after its last digit that is
not zero, and is left out with its period if no digit is. Texts are still in
the order of their times, because a fraction that ends is followed by a blank,
and a blank comes before the period and before every digit.

## Main definitions

* `padDigits`: A number written with a fixed count of digits.
* `trimZeros`, `fraction`: What is written of a fraction of a second.
* `timeText`: `Time.String`.
* `Calendric`: The times of the years 1 to 9999.

## Theorems

* `append_lt_append`: The order of texts that begin with a part of fixed width.
* `padDigits_lt`: The order of numerals.
* `fraction_lt`: The order of fractions of differing widths.
* `timeText_lt_iff`: The order of texts is the order of times.
-/

namespace Bop

/-- A number written with `width` decimal digits. -/
def padDigits : Nat → Nat → Bytes
  | 0, _ => []
  | width + 1, n => padDigits width (n / 10) ++ [UInt8.ofNat (48 + n % 10)]

/-- The digits without the zeros at their end. -/
def trimZeros : Bytes → Bytes
  | [] => []
  | b :: rest => if b = 48 ∧ trimZeros rest = [] then [] else b :: trimZeros rest

/-- The fraction of a second, given in nanoseconds, under the layout
    `.999999999`. -/
def fraction (nanos : Nat) : Bytes :=
  if trimZeros (padDigits 9 nanos) = [] then [] else 46 :: trimZeros (padDigits 9 nanos)

/-- Nanoseconds in a second. -/
def perSecond : Int := 1000000000

/-- Seconds from the first of January of the year 1 to the epoch. -/
def epoch : Int := 62135596800

/-- The second a time is in, counted from the first of January of the year 1. -/
def absoluteSecond (t : Time) : Nat := (t / perSecond + epoch).toNat

/-- The nanoseconds of a time since its second began. -/
def nanosecond (t : Time) : Nat := (t % perSecond).toNat

/-- A date under the layout `2006-01-02`. -/
def dateText (date : Nat × Nat × Nat) : Bytes :=
  padDigits 4 date.1 ++ "-" ++ padDigits 2 date.2.1 ++ "-" ++ padDigits 2 date.2.2

/-- A second of a day under the layout `15:04:05`. -/
def clockText (second : Nat) : Bytes :=
  padDigits 2 (second / 3600) ++ ":" ++ padDigits 2 (second / 60 % 60) ++ ":" ++
    padDigits 2 (second % 60)

/-- `Time.String` in UTC. -/
def timeText (t : Time) : Bytes :=
  dateText (civil (absoluteSecond t / 86400)) ++ " " ++ clockText (absoluteSecond t % 86400) ++
    fraction (nanosecond t) ++ " +0000 UTC"

/-- The times of the years 1 to 9999. -/
def Calendric (t : Time) : Prop :=
  -epoch * perSecond ≤ t ∧ t < (86400 * 3652059 - epoch) * perSecond

instance (t : Time) : Decidable (Calendric t) := inferInstanceAs (Decidable (_ ∧ _))

/-! ### Parts of fixed width -/

/-- Texts that begin with parts of one width are in the order of these, or of
    what follows them. -/
theorem append_lt_append (a b x y : Bytes) (hlen : a.length = b.length)
    (h : a < b ∨ a = b ∧ x < y) : a ++ x < b ++ y := by
  induction a generalizing b with
  | nil =>
      cases List.eq_nil_of_length_eq_zero hlen.symm
      rcases h with h | ⟨_, h⟩
      · exact absurd h (List.lt_irrefl _)
      · exact h
  | cons c a ih => cases b with
    | nil => cases hlen
    | cons d b =>
        simp only [List.cons_append, List.cons_lt_cons_iff] at h ⊢
        rcases h with (h | ⟨heq, h⟩) | ⟨heq, h⟩
        · exact Or.inl h
        · exact Or.inr ⟨heq, ih b (Nat.succ.inj hlen) (Or.inl h)⟩
        · cases heq
          exact Or.inr ⟨rfl, ih a rfl (Or.inr ⟨rfl, h⟩)⟩

@[simp] theorem length_padDigits (width n : Nat) : (padDigits width n).length = width := by
  induction width generalizing n with
  | zero => rfl
  | succ width ih => rw [padDigits, List.length_append, ih, List.length_singleton]

/-- A greater number has a later numeral, if it fits the width. -/
theorem padDigits_lt (width n m : Nat) (hm : m < 10 ^ width) (h : n < m) :
    padDigits width n < padDigits width m := by
  induction width generalizing n m with
  | zero => omega
  | succ width ih =>
      unfold padDigits
      refine append_lt_append _ _ _ _ (by simp only [length_padDigits]) ?_
      rw [Nat.pow_succ] at hm
      rcases div_mod_lt 10 n m h with hdiv | ⟨hdiv, hmod⟩
      · exact Or.inl (ih _ _ (by omega) hdiv)
      · -- The numbers differ in their last digit only.
        refine Or.inr ⟨by rw [hdiv], ?_⟩
        have hbyte : ∀ i < 10, ∀ j < 10, i < j →
            UInt8.ofNat (48 + i) < UInt8.ofNat (48 + j) := by decide
        rw [List.cons_lt_cons_iff]
        exact Or.inl (hbyte _ (by omega) _ (by omega) hmod)

/-- Two numerals and what follows them. -/
theorem padDigits_append_lt (width n m : Nat) (x y : Bytes) (hm : m < 10 ^ width)
    (h : n < m ∨ n = m ∧ x < y) : padDigits width n ++ x < padDigits width m ++ y := by
  refine append_lt_append _ _ _ _ (by simp only [length_padDigits]) ?_
  rcases h with h | ⟨rfl, h⟩
  · exact Or.inl (padDigits_lt width n m hm h)
  · exact Or.inr ⟨rfl, h⟩

/-! ### Fractions -/

/-- No byte comes before the zero. -/
def Digits (s : Bytes) : Prop := ∀ b ∈ s, (48 : UInt8) ≤ b

theorem digits_padDigits (width n : Nat) : Digits (padDigits width n) := by
  induction width generalizing n with
  | zero => exact fun b hb => absurd hb List.not_mem_nil
  | succ width ih =>
      have hbyte : ∀ i < 10, (48 : UInt8) ≤ UInt8.ofNat (48 + i) := by decide
      intro b hb
      rcases List.mem_append.mp hb with hb | hb
      · exact ih (n / 10) b hb
      · rw [List.mem_singleton.mp hb]
        exact hbyte _ (Nat.mod_lt n (by omega))

/-- The blank and the period come before every digit. -/
theorem blank_lt_digit (b c : UInt8) (hc : (48 : UInt8) ≤ c) (hb : b < 48) : b < c :=
  UInt8.lt_of_lt_of_le hb hc

/-- Digits that are followed by a blank keep their order when the zeros at their
    ends are left out. -/
theorem trimZeros_lt (a b zone : Bytes) (ha : Digits a) (hb : Digits b)
    (hlen : a.length = b.length) (h : a < b) :
    trimZeros b ≠ [] ∧ trimZeros a ++ 32 :: zone < trimZeros b ++ 32 :: zone := by
  -- Along the digits, up to the first that differs.
  induction a generalizing b with
  | nil =>
      cases List.eq_nil_of_length_eq_zero hlen.symm
      exact absurd h (List.lt_irrefl _)
  | cons c a ih => cases b with
    | nil => cases hlen
    | cons d b =>
        have hc := ha c List.mem_cons_self
        rw [List.cons_lt_cons_iff] at h
        rcases h with h | ⟨rfl, h⟩
        · -- The later digit is not a zero, so it is written.
          have hd : d ≠ 48 := by
            rintro rfl
            exact absurd h (UInt8.not_lt.mpr hc)
          unfold trimZeros
          rw [if_neg (fun hzero => hd hzero.1)]
          refine ⟨List.cons_ne_nil _ _, ?_⟩
          by_cases hzero : c = 48 ∧ trimZeros a = []
          · rw [if_pos hzero, List.cons_append, List.nil_append, List.cons_lt_cons_iff]
            exact Or.inl (blank_lt_digit 32 d (hb d List.mem_cons_self) (by decide))
          · rw [if_neg hzero, List.cons_append, List.cons_append, List.cons_lt_cons_iff]
            exact Or.inl h
        · rcases ih b (fun e he => ha e (List.mem_cons_of_mem c he))
            (fun e he => hb e (List.mem_cons_of_mem c he)) (Nat.succ.inj hlen) h with ⟨hne, hlt⟩
          unfold trimZeros
          rw [if_neg (fun hzero => hne hzero.2)]
          refine ⟨List.cons_ne_nil _ _, ?_⟩
          by_cases hzero : c = 48 ∧ trimZeros a = []
          · rw [if_pos hzero, List.cons_append, List.nil_append, List.cons_lt_cons_iff]
            exact Or.inl (blank_lt_digit 32 c hc (by decide))
          · rw [if_neg hzero, List.cons_append, List.cons_append, List.cons_lt_cons_iff]
            exact Or.inr ⟨rfl, hlt⟩

/-- A later fraction has a later text, when a blank follows it. -/
theorem fraction_lt (n m : Nat) (zone : Bytes) (hm : m < 10 ^ 9) (h : n < m) :
    fraction n ++ 32 :: zone < fraction m ++ 32 :: zone := by
  rcases trimZeros_lt _ _ zone (digits_padDigits 9 n) (digits_padDigits 9 m)
    (by simp only [length_padDigits]) (padDigits_lt 9 n m hm h) with ⟨hne, hlt⟩
  unfold fraction
  rw [if_neg hne]
  by_cases hnone : trimZeros (padDigits 9 n) = []
  · -- The earlier fraction is not written, and the blank comes before the period.
    rw [if_pos hnone, List.nil_append, List.cons_append, List.cons_lt_cons_iff]
    exact Or.inl (by decide)
  · rw [if_neg hnone, List.cons_append, List.cons_append, List.cons_lt_cons_iff]
    exact Or.inr ⟨rfl, hlt⟩

/-! ### The order of texts -/

theorem length_dateText (date : Nat × Nat × Nat) : (dateText date).length = 10 := by
  simp only [dateText, List.length_append, length_padDigits]
  rfl

theorem length_clockText (second : Nat) : (clockText second).length = 8 := by
  simp only [clockText, List.length_append, length_padDigits]
  rfl

/-- A later date has a later text. -/
theorem dateText_lt (a b : Nat × Nat × Nat) (hyear : b.1 < 10000) (hmonth : b.2.1 ≤ 12)
    (hday : b.2.2 ≤ 31) (h : DateLt a b) : dateText a < dateText b := by
  unfold dateText
  simp only [List.append_assoc]
  refine padDigits_append_lt 4 _ _ _ _ hyear (h.imp_right (And.imp_right fun h => ?_))
  refine List.append_left_lt (padDigits_append_lt 2 _ _ _ _ (by omega) ?_)
  refine h.imp_right (And.imp_right fun h => ?_)
  exact List.append_left_lt (padDigits_lt 2 _ _ (by omega) h)

/-- A later second of a day has a later text. -/
theorem clockText_lt (n m : Nat) (hm : m < 86400) (h : n < m) : clockText n < clockText m := by
  unfold clockText
  simp only [List.append_assoc]
  -- Hours, minutes and seconds are the parts of the second.
  have hparts : n / 3600 < m / 3600 ∨ n / 3600 = m / 3600 ∧
      (n / 60 % 60 < m / 60 % 60 ∨ n / 60 % 60 = m / 60 % 60 ∧ n % 60 < m % 60) := by omega
  refine padDigits_append_lt 2 _ _ _ _ (by omega) (hparts.imp_right (And.imp_right fun h => ?_))
  refine List.append_left_lt (padDigits_append_lt 2 _ _ _ _ (by omega) ?_)
  refine h.imp_right (And.imp_right fun h => ?_)
  exact List.append_left_lt (padDigits_lt 2 _ _ (by omega) h)

/-- A time is a second and a part of one. -/
theorem second_lt (t u : Time) (ht : Calendric t) (h : t < u) :
    absoluteSecond t < absoluteSecond u ∨
      absoluteSecond t = absoluteSecond u ∧ nanosecond t < nanosecond u := by
  have hparts : ∀ i j : Int, -62135596800 * 1000000000 ≤ i → i < j →
      (i / 1000000000 + 62135596800).toNat < (j / 1000000000 + 62135596800).toNat ∨
        (i / 1000000000 + 62135596800).toNat = (j / 1000000000 + 62135596800).toNat ∧
          (i % 1000000000).toNat < (j % 1000000000).toNat := by
    omega
  exact hparts t u ht.1 h

/-- The date of a calendric time has four digits for the year. -/
theorem year_lt (t : Time) (ht : Calendric t) :
    (civil (absoluteSecond t / 86400)).1 < 10000 := by
  have hday : ∀ i : Int, i < (86400 * 3652059 - 62135596800) * 1000000000 →
      (i / 1000000000 + 62135596800).toNat / 86400 < 3652059 := by
    omega
  -- The first day of the year 10000 comes later, and no day comes before it in
  -- its year.
  have hfirst : yearDay 3652059 = (10000, 0) := by decide
  have hyear := yearDay_lt _ _ (hday t ht.2)
  rw [hfirst] at hyear
  rcases hyear with h | ⟨_, h⟩
  · exact h
  · exact absurd h (Nat.not_lt_zero _)

/-- A later time has a later text. -/
theorem timeText_lt (t u : Time) (ht : Calendric t) (hu : Calendric u) (h : t < u) :
    timeText t < timeText u := by
  unfold timeText
  simp only [List.append_assoc]
  rcases second_lt t u ht h with hsecond | ⟨hsecond, hnano⟩
  · refine append_lt_append _ _ _ _ (by simp only [length_dateText]) ?_
    rcases div_mod_lt 86400 _ _ hsecond with hday | ⟨hday, hclock⟩
    · have hbounds := civil_bounds (absoluteSecond u / 86400)
      exact Or.inl (dateText_lt _ _ (year_lt u hu) hbounds.1 hbounds.2 (civil_lt _ _ hday))
    · refine Or.inr ⟨by rw [hday], List.append_left_lt ?_⟩
      refine append_lt_append _ _ _ _ (by simp only [length_clockText]) (Or.inl ?_)
      exact clockText_lt _ _ (Nat.mod_lt _ (by omega)) hclock
  · -- Date and clock are the same.
    rw [hsecond]
    refine List.append_left_lt (List.append_left_lt (List.append_left_lt ?_))
    refine fraction_lt _ _ _ ?_ hnano
    have hmod := Int.emod_lt_of_pos u (show (0 : Int) < perSecond by decide)
    simp only [nanosecond, perSecond] at hmod ⊢
    omega

/-- The order of texts is the order of times. -/
theorem timeText_lt_iff (t u : Time) (ht : Calendric t) (hu : Calendric u) :
    timeText t < timeText u ↔ t < u := by
  refine ⟨fun h => ?_, timeText_lt t u ht hu⟩
  by_cases heq : t = u
  · rw [heq] at h
    exact absurd h (List.lt_irrefl _)
  · by_contra hnot
    have hlt : u < t := Int.lt_iff_le_and_ne.mpr ⟨Int.not_lt.mp hnot, Ne.symm heq⟩
    exact List.lt_asymm h (timeText_lt u t hu ht hlt)

/-- Different times have different texts. -/
theorem timeText_inj (t u : Time) (ht : Calendric t) (hu : Calendric u)
    (h : timeText t = timeText u) : t = u := by
  by_contra hne
  rcases Int.lt_or_gt_of_ne hne with hlt | hlt
  · exact List.lt_irrefl _ (h ▸ timeText_lt t u ht hu hlt)
  · exact List.lt_irrefl _ (h ▸ timeText_lt u t hu ht hlt)

example : timeText 1767225625750000000 = "2026-01-01 00:00:25.75 +0000 UTC" ∧
    timeText 1767225625000000000 = "2026-01-01 00:00:25 +0000 UTC" := by decide +kernel

end Bop
