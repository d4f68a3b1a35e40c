import Bop.Text.Url

/-!
# Percent Encoding

A text in which some bytes stand for themselves and every other one is written
as a percent sign and two digits. Reading it back needs only that the percent
sign itself is not kept, and in a query the plus sign, which stands for a blank
there.

What is written consists of kept bytes and of what escapes are made of. So a
second encoder that keeps all of these leaves the text alone.

## Main definitions

* `percentEncode`: Writing a text, with what is kept as a parameter.
* `EscapeByte`: What escapes are made of.

## Theorems

* `unescape_percentEncode`: Reading it back.
* `percentEncode_inj`: Different texts are written differently.
* `mem_percentEncode`: What a written text consists of.
* `percentEncode_of_kept`: A text that is kept.
-/

namespace Bop

namespace Url

/-- A byte as an escape. -/
def percentByte (c : UInt8) : Bytes := [37, upperHex (c.toNat / 16), upperHex (c.toNat % 16)]

/-- A text of which the bytes that are not kept are escaped. -/
def percentEncode (keep : UInt8 → Bool) (s : Bytes) : Bytes :=
  s.flatMap fun c => if keep c then [c] else percentByte c

/-- What escapes are made of: the percent sign and the upper hexadecimal digits. -/
def EscapeByte (b : UInt8) : Prop := b = 37 ∨ (48 ≤ b ∧ b ≤ 57) ∨ (65 ≤ b ∧ b ≤ 70)

/-- A part in which an escape is read as its byte, whatever byte it is. -/
def Encoding.Free (mode : Encoding) : Prop := mode ≠ .host ∧ mode ≠ .zone

/-- What can be checked of every byte. -/
theorem forall_byte {P : UInt8 → Prop} (h : ∀ n < 256, P (UInt8.ofNat n)) (b : UInt8) : P b := by
  have hb := h b.toNat b.toNat_lt
  rwa [UInt8.ofNat_toNat] at hb

variable {keep : UInt8 → Bool}

theorem percentEncode_nil : percentEncode keep [] = [] := rfl

theorem percentEncode_cons (c : UInt8) (s : Bytes) :
    percentEncode keep (c :: s) =
      (if keep c then [c] else percentByte c) ++ percentEncode keep s := List.flatMap_cons

/-- A digit is read back, and is none of the marks of a URL. -/
theorem hexValue_upperHex : ∀ n < 16,
    Json.hexValue (upperHex n) = some n ∧ EscapeByte (upperHex n) := by
  unfold EscapeByte
  decide

/-- An escape is read as its byte. -/
theorem unescape_percentByte (mode : Encoding) (hmode : mode.Free) (c : UInt8) (rest : Bytes) :
    unescape mode (percentByte c ++ rest) = (unescape mode rest).map (c :: ·) := by
  have hlt := c.toNat_lt
  have hhigh := (hexValue_upperHex (c.toNat / 16) (by omega)).1
  have hlow := (hexValue_upperHex (c.toNat % 16) (by omega)).1
  have hvalue : UInt8.ofNat (16 * (c.toNat / 16) + c.toNat % 16) = c := by
    rw [Nat.div_add_mod]
    exact UInt8.ofNat_toNat
  change unescape mode (37 :: upperHex (c.toNat / 16) :: upperHex (c.toNat % 16) :: rest) = _
  rw [unescape, if_pos rfl]
  simp only [hhigh, hlow, hvalue, Option.bind_eq_bind, Option.bind_some]
  rw [if_neg (fun h => hmode.1 h.1), if_neg (fun h => hmode.2 h.1)]

/-- A byte that is no mark of its part is read as itself. -/
theorem unescape_byte (mode : Encoding) (hmode : mode.Free) (c : UInt8) (rest : Bytes)
    (hpercent : c ≠ 37) (hplus : mode = .queryComponent → c ≠ 43) :
    unescape mode (c :: rest) = (unescape mode rest).map (c :: ·) := by
  rw [unescape.eq_def]
  dsimp only
  rw [if_neg hpercent, if_neg (fun h => h.1.elim hmode.1 hmode.2), if_neg (fun h => hplus h.2 h.1)]

/-- What was written is read back. -/
theorem unescape_percentEncode (mode : Encoding) (hmode : mode.Free)
    (hpercent : keep 37 = false) (hplus : mode = .queryComponent → keep 43 = false)
    (s : Bytes) : unescape mode (percentEncode keep s) = some s := by
  induction s with
  | nil => exact unescape.eq_1 mode
  | cons c s ih =>
      rw [percentEncode_cons]
      by_cases hc : keep c = true
      · rw [if_pos hc, List.singleton_append, unescape_byte mode hmode c, ih]
        · rfl
        · rintro rfl
          rw [hpercent] at hc
          cases hc
        · rintro hm rfl
          rw [hplus hm] at hc
          cases hc
      · rw [if_neg hc, unescape_percentByte mode hmode c, ih]
        rfl

/-- A text that can be read, and what is behind it. -/
theorem unescape_append (mode : Encoding) (s t rest : Bytes) (h : unescape mode s = some t) :
    unescape mode (s ++ rest) = (unescape mode rest).map (t ++ ·) := by
  -- By the recursion of the reader: an escape, one that is cut off, and a byte of each kind.
  induction s using unescape.induct mode generalizing t with
  | case1 =>
      cases h
      exact Option.map_id'.symm
  | case2 d₁ d₂ s ih =>
      rw [unescape, if_pos rfl] at h
      rw [List.cons_append, List.cons_append, List.cons_append, unescape, if_pos rfl]
      cases hhigh : Json.hexValue d₁ with
      | none =>
          rw [hhigh] at h
          cases h
      | some high =>
          cases hlow : Json.hexValue d₂ with
          | none =>
              rw [hhigh, hlow] at h
              cases h
          | some low =>
              rw [hhigh, hlow] at h
              simp only [Option.bind_eq_bind, Option.bind_some] at h ⊢
              split at h
              · cases h
              · next hhost =>
                  split at h
                  · cases h
                  · next hzone =>
                      rcases Option.map_eq_some_iff.mp h with ⟨t, ht, rfl⟩
                      rw [if_neg hhost, if_neg hzone, ih t ht, Option.map_map]
                      rfl
  | case3 s hcut =>
      rw [unescape.eq_def] at h
      dsimp only at h
      rw [if_pos rfl] at h
      split at h
      · exact absurd rfl (hcut _ _ _)
      · cases h
  | case4 b s hb hhost =>
      rw [unescape.eq_def] at h
      dsimp only at h
      rw [if_neg hb, if_pos hhost] at h
      cases h
  | case5 b s hb hhost hplus ih =>
      rw [unescape.eq_def] at h ⊢
      dsimp only [List.cons_append] at h ⊢
      rw [if_neg hb, if_neg hhost, if_pos hplus] at h ⊢
      rcases Option.map_eq_some_iff.mp h with ⟨t, ht, rfl⟩
      rw [ih t ht, Option.map_map]
      rfl
  | case6 b s hb hhost hplus ih =>
      rw [unescape.eq_def] at h ⊢
      dsimp only [List.cons_append] at h ⊢
      rw [if_neg hb, if_neg hhost, if_neg hplus] at h ⊢
      rcases Option.map_eq_some_iff.mp h with ⟨t, ht, rfl⟩
      rw [ih t ht, Option.map_map]
      rfl

/-- Different texts are written differently. -/
theorem percentEncode_inj (hpercent : keep 37 = false) (s t : Bytes) :
    percentEncode keep s = percentEncode keep t ↔ s = t := by
  have hread := unescape_percentEncode .path ⟨by decide, by decide⟩ hpercent fun h => by cases h
  refine ⟨fun h => Option.some.inj ?_, fun h => h ▸ rfl⟩
  rw [← hread s, ← hread t, h]

/-- What a written text consists of. -/
theorem mem_percentEncode (s : Bytes) (b : UInt8) (h : b ∈ percentEncode keep s) :
    (b ∈ s ∧ keep b = true) ∨ EscapeByte b := by
  rcases List.mem_flatMap.mp h with ⟨c, hmem, hb⟩
  have hlt := c.toNat_lt
  by_cases hc : keep c = true
  · rw [if_pos hc, List.mem_singleton] at hb
    rw [hb]
    exact Or.inl ⟨hmem, hc⟩
  · rw [if_neg hc, percentByte] at hb
    simp only [List.mem_cons, List.not_mem_nil, or_false] at hb
    rcases hb with rfl | rfl | rfl
    · exact Or.inr (Or.inl rfl)
    · exact Or.inr (hexValue_upperHex _ (by omega)).2
    · exact Or.inr (hexValue_upperHex _ (by omega)).2

/-- A text of kept bytes is left as it is. -/
theorem percentEncode_of_kept (s : Bytes) (h : ∀ b ∈ s, keep b = true) :
    percentEncode keep s = s := by
  induction s with
  | nil => rfl
  | cons c s ih =>
      rw [percentEncode_cons, if_pos (h c List.mem_cons_self),
        ih fun b hb => h b (List.mem_cons_of_mem c hb), List.singleton_append]

theorem percentEncode_append (s t : Bytes) :
    percentEncode keep (s ++ t) = percentEncode keep s ++ percentEncode keep t :=
  List.flatMap_append

/-- A second encoder that keeps escapes escapes what it does not keep. -/
theorem percentEncode_percentEncode (keep' : UInt8 → Bool)
    (hescape : ∀ b, EscapeByte b → keep' b = true) (s : Bytes) :
    percentEncode keep' (percentEncode keep s) =
      percentEncode (fun b => keep b && keep' b) s := by
  induction s with
  | nil => rfl
  | cons c s ih =>
      have hlt := c.toNat_lt
      have hbyte : percentEncode keep' (percentByte c) = percentByte c := by
        refine percentEncode_of_kept _ fun b hb => hescape b ?_
        simp only [percentByte, List.mem_cons, List.not_mem_nil, or_false] at hb
        rcases hb with rfl | rfl | rfl
        · exact Or.inl rfl
        · exact (hexValue_upperHex _ (by omega)).2
        · exact (hexValue_upperHex _ (by omega)).2
      rw [percentEncode_cons, percentEncode_append, ih, percentEncode_cons]
      by_cases hc : keep c = true
      · rw [if_pos hc, percentEncode_cons, percentEncode_nil, List.append_nil, hc, Bool.true_and]
      · rw [if_neg hc, hbyte, if_neg fun h => hc (Bool.and_eq_true_iff.mp h).1]

/-- How `net/url` writes a path. -/
theorem escape_path (s : Bytes) :
    escape .path s = percentEncode (fun c => !shouldEscape c .path) s := by
  refine congrArg (s.flatMap ·) (funext fun c => ?_)
  have hblank : ¬ (c = 32 ∧ Encoding.path = .queryComponent) := fun h => by cases h.2
  have hkeep : (!shouldEscape c .path) = true ↔ shouldEscape c .path = false :=
    Bool.not_eq_eq_eq_not
  rw [if_neg hblank]
  by_cases hc : shouldEscape c .path = false
  · rw [if_pos hc, if_pos (hkeep.mpr hc)]
  · rw [if_neg hc, if_neg fun h => hc (hkeep.mp h)]
    rfl

end Url

end Bop
