import Bop.Text.Timestamp

/-!
# Times in RFC 3339

The text that `Time.MarshalJSON` makes of a time in UTC. It differs from
`Time.String` in what follows the fraction of a second: a `Z` and not a blank.
A `Z` comes after the period and after every digit, so a fraction that ends
sorts behind every fraction that goes on. Texts are in the order of their
times only as long as no fraction begins another one.

Days are counted from the epoch, and a calendar of four centuries repeats in
both directions, so every day has a date.

## Main definitions

* `civilDate`: The date of a day.
* `Marshals`: The times that have a text, those of the years 0 to 9999.
* `rfc3339Nano`: The text.
* `FractionBegins`: One time's fraction begins the fraction of another time of
  the same second.

## Theorems

* `civilDate_lt`: A later day has a later date.
* `trimZeros_zone_lt`: The order of digits that are followed by a `Z`.
* `rfc3339Nano_lt`: The text of a later time comes later, unless the fraction
  of the earlier one begins its own, and then it comes earlier.
-/

namespace Bop

/-- Seconds in a day. -/
def secondsPerDay : Int := 86400

/-- The day of a time, counted from the epoch. -/
def dayOf (t : Time) : Int := t / perSecond / secondsPerDay

/-- The second of its day a time is in. -/
def secondOfDay (t : Time) : Nat := (t / perSecond % secondsPerDay).toNat

/-- Year, month and day of a day counted from the epoch. -/
def civilDate (day : Int) : Int × Nat × Nat :=
  let date := civil ((day + 719162) % 146097).toNat
  (date.1 + 400 * ((day + 719162) / 146097), date.2)

/-- `MarshalJSON` accepts the time: its year has four digits. -/
def Marshals (t : Time) : Prop := 0 ≤ (civilDate (dayOf t)).1 ∧ (civilDate (dayOf t)).1 ≤ 9999

instance (t : Time) : Decidable (Marshals t) := inferInstanceAs (Decidable (_ ∧ _))

/-- A date of a year that is not before 0, under the layout `2006-01-02`. -/
def isoDate (date : Int × Nat × Nat) : Bytes := dateText (date.1.toNat, date.2)

/-- The layout `2006-01-02T15:04:05.999999999Z07:00` in UTC. -/
def rfc3339Nano (t : Time) : Bytes :=
  isoDate (civilDate (dayOf t)) ++ "T" ++ clockText (secondOfDay t) ++
    fraction (nanosecond t) ++ "Z"

/-- Two times of one second, where what is written of the fraction of the first
    begins what is written of the fraction of the second. -/
def FractionBegins (t u : Time) : Prop :=
  t / perSecond = u / perSecond ∧
    trimZeros (padDigits 9 (nanosecond t)) <+: trimZeros (padDigits 9 (nanosecond u))

instance (t u : Time) : Decidable (FractionBegins t u) := inferInstanceAs (Decidable (_ ∧ _))

/-! ### Dates of days -/

/-- The first four centuries have the years 1 to 400. -/
theorem year_of_cycle (n : Nat) (h : n < 146097) : 1 ≤ (civil n).1 ∧ (civil n).1 ≤ 400 := by
  -- The next cycle begins with a year of its own.
  have hfirst : yearDay 146097 = (401, 0) := by decide
  have hyear := yearDay_lt n 146097 h
  rw [hfirst] at hyear
  refine ⟨Nat.le_add_left 1 _, ?_⟩
  rcases hyear with h | ⟨_, h⟩
  · exact Nat.le_of_lt_succ h
  · exact absurd h (Nat.not_lt_zero _)

/-- A later day has a later date. -/
theorem civilDate_lt (d e : Int) (h : d < e) :
    (civilDate d).1 < (civilDate e).1 ∨ (civilDate d).1 = (civilDate e).1 ∧
      ((civilDate d).2.1 < (civilDate e).2.1 ∨
        (civilDate d).2.1 = (civilDate e).2.1 ∧ (civilDate d).2.2 < (civilDate e).2.2) := by
  have hd := Int.emod_lt_of_pos (d + 719162) (show (0 : Int) < 146097 by decide)
  have he := Int.emod_lt_of_pos (e + 719162) (show (0 : Int) < 146097 by decide)
  have hd₀ := Int.emod_nonneg (d + 719162) (show (146097 : Int) ≠ 0 by decide)
  have he₀ := Int.emod_nonneg (e + 719162) (show (146097 : Int) ≠ 0 by decide)
  have hdyear := year_of_cycle ((d + 719162) % 146097).toNat (by omega)
  have heyear := year_of_cycle ((e + 719162) % 146097).toNat (by omega)
  unfold civilDate
  by_cases hcycle : (d + 719162) / 146097 = (e + 719162) / 146097
  · -- The same four centuries, where the dates of days are ordered already.
    rcases civil_lt ((d + 719162) % 146097).toNat ((e + 719162) % 146097).toNat (by omega) with
      hyear | ⟨hyear, hrest⟩
    · left
      dsimp only
      omega
    · right
      refine ⟨?_, hrest⟩
      dsimp only
      omega
  · -- A later cycle of four centuries has later years only.
    left
    have hlt : (d + 719162) / 146097 < (e + 719162) / 146097 := by omega
    dsimp only
    omega

/-- The month and the day are those of a calendar. -/
theorem civilDate_bounds (d : Int) : (civilDate d).2.1 ≤ 12 ∧ (civilDate d).2.2 ≤ 31 :=
  civil_bounds _

/-- The text of a later day comes later. -/
theorem isoDate_lt (d e : Int) (hd : 0 ≤ (civilDate d).1) (he : (civilDate e).1 ≤ 9999)
    (h : d < e) : isoDate (civilDate d) < isoDate (civilDate e) := by
  have hbounds := civilDate_bounds e
  refine dateText_lt _ _ ?_ hbounds.1 hbounds.2 ?_
  · dsimp only
    omega
  · refine (civilDate_lt d e h).imp (fun hyear => ?_) (And.imp_left fun hyear => ?_)
    · dsimp only
      omega
    · exact congrArg Int.toNat hyear

/-! ### Fractions before a `Z` -/

theorem isDigit_padDigits (width n : Nat) : ∀ b ∈ padDigits width n, Json.isDigit b = true := by
  induction width generalizing n with
  | zero => exact fun b hb => absurd hb List.not_mem_nil
  | succ width ih =>
      -- Each byte is a digit of its own.
      have hbyte : ∀ i < 10, Json.isDigit (UInt8.ofNat (48 + i)) = true := by decide
      intro b hb
      rcases List.mem_append.mp hb with hb | hb
      · exact ih (n / 10) b hb
      · rw [List.mem_singleton.mp hb]
        exact hbyte _ (Nat.mod_lt n (by omega))

theorem mem_of_mem_trimZeros (s : Bytes) (b : UInt8) (h : b ∈ trimZeros s) : b ∈ s := by
  induction s with
  | nil => exact h
  | cons c s ih =>
      unfold trimZeros at h
      split at h
      · exact absurd h List.not_mem_nil
      · rcases List.mem_cons.mp h with rfl | h
        · exact List.mem_cons_self
        · exact List.mem_cons_of_mem c (ih h)

theorem digit_lt_zone (b : UInt8) (h : Json.isDigit b = true) : b < 90 := by
  unfold Json.isDigit at h
  exact UInt8.lt_of_le_of_lt (of_decide_eq_true h).2 (by decide)

/-- Digits that are followed by a `Z` keep their order when the zeros at their
    ends are left out, unless what is left of the earlier ones begins what is
    left of the later ones. -/
theorem trimZeros_zone_lt (a b : Bytes) (ha : ∀ c ∈ a, Json.isDigit c = true)
    (hb : ∀ c ∈ b, Json.isDigit c = true) (hlen : a.length = b.length) (h : a < b) :
    trimZeros b ≠ [] ∧
      (trimZeros a <+: trimZeros b → trimZeros b ++ [90] < trimZeros a ++ [90]) ∧
      (¬ trimZeros a <+: trimZeros b → trimZeros a ++ [90] < trimZeros b ++ [90]) := by
  -- Along the digits, up to the first that differs.
  induction a generalizing b with
  | nil =>
      cases List.eq_nil_of_length_eq_zero hlen.symm
      exact absurd h (List.lt_irrefl _)
  | cons c a ih => cases b with
    | nil => cases hlen
    | cons d b =>
        have hdz := digit_lt_zone d (hb d List.mem_cons_self)
        have hc : (48 : UInt8) ≤ c := (of_decide_eq_true (ha c List.mem_cons_self)).1
        rw [List.cons_lt_cons_iff] at h
        rcases h with h | ⟨rfl, h⟩
        · -- The later digit is not a zero, so it is written.
          have hd : d ≠ 48 := by
            rintro rfl
            exact absurd h (UInt8.not_lt.mpr hc)
          have hb' : trimZeros (d :: b) = d :: trimZeros b := if_neg (fun hzero => hd hzero.1)
          rw [hb']
          refine ⟨List.cons_ne_nil _ _, ?_⟩
          by_cases hzero : c = 48 ∧ trimZeros a = []
          · -- Nothing is left of the earlier digits, and the `Z` comes later.
            have ha' : trimZeros (c :: a) = [] := if_pos hzero
            rw [ha']
            refine ⟨fun _ => ?_, fun hnot => absurd (List.nil_prefix) hnot⟩
            rw [List.cons_append, List.nil_append, List.cons_lt_cons_iff]
            exact Or.inl hdz
          · have ha' : trimZeros (c :: a) = c :: trimZeros a := if_neg hzero
            rw [ha', List.cons_prefix_cons]
            refine ⟨fun hcd => absurd (hcd.1 ▸ h) (UInt8.lt_irrefl _), fun _ => ?_⟩
            rw [List.cons_append, List.cons_append, List.cons_lt_cons_iff]
            exact Or.inl h
        · rcases ih b (fun e he => ha e (List.mem_cons_of_mem c he))
            (fun e he => hb e (List.mem_cons_of_mem c he)) (Nat.succ.inj hlen) h with
            ⟨hne, hbegins, hdiffer⟩
          have hb' : trimZeros (c :: b) = c :: trimZeros b := if_neg (fun hzero => hne hzero.2)
          rw [hb']
          refine ⟨List.cons_ne_nil _ _, ?_⟩
          by_cases hzero : c = 48 ∧ trimZeros a = []
          · have ha' : trimZeros (c :: a) = [] := if_pos hzero
            rw [ha']
            refine ⟨fun _ => ?_, fun hnot => absurd (List.nil_prefix) hnot⟩
            rw [List.cons_append, List.nil_append, List.cons_lt_cons_iff]
            exact Or.inl hdz
          · have ha' : trimZeros (c :: a) = c :: trimZeros a := if_neg hzero
            rw [ha', List.cons_prefix_cons]
            refine ⟨fun hprefix => ?_, fun hnot => ?_⟩
            · rw [List.cons_append, List.cons_append, List.cons_lt_cons_iff]
              exact Or.inr ⟨rfl, hbegins hprefix.2⟩
            · rw [List.cons_append, List.cons_append, List.cons_lt_cons_iff]
              exact Or.inr ⟨rfl, hdiffer (fun hprefix => hnot ⟨rfl, hprefix⟩)⟩

/-- A later fraction of a second comes later before a `Z`, unless the earlier
    one begins it. -/
theorem fraction_zone_lt (n m : Nat) (hm : m < 10 ^ 9) (h : n < m) :
    (trimZeros (padDigits 9 n) <+: trimZeros (padDigits 9 m) →
      fraction m ++ "Z" < fraction n ++ "Z") ∧
    (¬ trimZeros (padDigits 9 n) <+: trimZeros (padDigits 9 m) →
      fraction n ++ "Z" < fraction m ++ "Z") := by
  rcases trimZeros_zone_lt _ _ (isDigit_padDigits 9 n) (isDigit_padDigits 9 m)
    (by simp only [length_padDigits]) (padDigits_lt 9 n m hm h) with ⟨hne, hbegins, hdiffer⟩
  have hlater : fraction m = 46 :: trimZeros (padDigits 9 m) := if_neg hne
  rw [hlater]
  by_cases hnone : trimZeros (padDigits 9 n) = []
  · -- The earlier fraction is not written, and the `Z` comes after the period.
    have hearlier : fraction n = [] := if_pos hnone
    rw [hearlier, hnone]
    refine ⟨fun _ => ?_, fun hnot => absurd (List.nil_prefix) hnot⟩
    rw [List.cons_append, List.nil_append]
    exact List.cons_lt_cons_iff.mpr (Or.inl (by decide))
  · have hearlier : fraction n = 46 :: trimZeros (padDigits 9 n) := if_neg hnone
    rw [hearlier]
    refine ⟨fun hprefix => ?_, fun hnot => ?_⟩
    · rw [List.cons_append, List.cons_append, List.cons_lt_cons_iff]
      exact Or.inr ⟨rfl, hbegins hprefix⟩
    · rw [List.cons_append, List.cons_append, List.cons_lt_cons_iff]
      exact Or.inr ⟨rfl, hdiffer hnot⟩

/-! ### The order of texts -/

theorem length_isoDate (date : Int × Nat × Nat) : (isoDate date).length = 10 := length_dateText _

theorem nanosecond_lt (t : Time) : nanosecond t < 10 ^ 9 := by
  have hmod := Int.emod_lt_of_pos t (show (0 : Int) < perSecond by decide)
  simp only [nanosecond, perSecond] at hmod ⊢
  omega

/-- A later time is in a later day, in a later second of the same day, or in a
    later part of the same second. -/
theorem day_lt (t u : Time) (h : t < u) :
    t / perSecond ≠ u / perSecond ∧ (dayOf t < dayOf u ∨
        dayOf t = dayOf u ∧ secondOfDay t < secondOfDay u) ∨
      t / perSecond = u / perSecond ∧ nanosecond t < nanosecond u := by
  have hparts : ∀ i j : Int, i < j →
      i / 1000000000 ≠ j / 1000000000 ∧
        (i / 1000000000 / 86400 < j / 1000000000 / 86400 ∨
          i / 1000000000 / 86400 = j / 1000000000 / 86400 ∧
            (i / 1000000000 % 86400).toNat < (j / 1000000000 % 86400).toNat) ∨
      i / 1000000000 = j / 1000000000 ∧ (i % 1000000000).toNat < (j % 1000000000).toNat := by
    omega
  exact hparts t u h

theorem secondOfDay_lt (t : Time) : secondOfDay t < 86400 := by
  have hmod := Int.emod_lt_of_pos (t / perSecond) (show (0 : Int) < secondsPerDay by decide)
  simp only [secondOfDay, secondsPerDay] at hmod ⊢
  omega

/-- The text of a later time comes later, unless the fraction of the earlier
    one begins its own, and then it comes earlier. -/
theorem rfc3339Nano_lt (t u : Time) (ht : Marshals t) (hu : Marshals u) (h : t < u) :
    (FractionBegins t u → rfc3339Nano u < rfc3339Nano t) ∧
      (¬ FractionBegins t u → rfc3339Nano t < rfc3339Nano u) := by
  unfold rfc3339Nano
  simp only [List.append_assoc]
  rcases day_lt t u h with ⟨hsecond, hlater⟩ | ⟨hsecond, hnano⟩
  · refine ⟨fun hbegins => absurd hbegins.1 hsecond, fun _ => ?_⟩
    refine append_lt_append _ _ _ _ (by simp only [length_isoDate]) ?_
    rcases hlater with hday | ⟨hday, hclock⟩
    · exact Or.inl (isoDate_lt _ _ ht.1 hu.2 hday)
    · refine Or.inr ⟨by rw [hday], List.append_left_lt ?_⟩
      refine append_lt_append _ _ _ _ (by simp only [length_clockText]) (Or.inl ?_)
      exact clockText_lt _ _ (secondOfDay_lt u) hclock
  · -- Date and clock are the same.
    have hday : dayOf t = dayOf u := by rw [dayOf, hsecond, ← dayOf]
    have hclock : secondOfDay t = secondOfDay u := by rw [secondOfDay, hsecond, ← secondOfDay]
    have hfraction := fraction_zone_lt _ _ (nanosecond_lt u) hnano
    rw [hday, hclock]
    refine ⟨fun hbegins => ?_, fun hnot => ?_⟩
    · exact List.append_left_lt (List.append_left_lt (List.append_left_lt (hfraction.1 hbegins.2)))
    · refine List.append_left_lt (List.append_left_lt (List.append_left_lt (hfraction.2 ?_)))
      exact fun hprefix => hnot ⟨hsecond, hprefix⟩

example : rfc3339Nano 1767225625750000000 = "2026-01-01T00:00:25.75Z" ∧
    rfc3339Nano 1767225625000000000 = "2026-01-01T00:00:25Z" := by decide +kernel

end Bop
