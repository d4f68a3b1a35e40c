import Bop.Text.Bytes

/-!
# Base64

`encoding/base64`'s `StdEncoding`, which is how `encoding/json` writes a byte
slice: groups of three bytes become four digits, the last group is padded
with `=`, and the decoder ignores line breaks wherever they stand.

## Main definitions

* `digit`: The character of a six-bit value.
* `value`: The six-bit value of a character.
* `encode`: The padded encoding.
* `decode`: Its inverse, or `none` on malformed input.

## Theorems

* `value_digit`: A digit has the value it was made from.
* `digit_plain`: A digit is a letter, a figure, `+` or `/`.
* `forall_mem_encode`: What an encoding is made of.
* `decode_encode`: Decoding an encoding gives the bytes back.
-/

namespace Bop

namespace Base64

/-- The character of a six-bit value. -/
def digit (n : Nat) : UInt8 :=
  if n < 26 then UInt8.ofNat (65 + n)
  else if n < 52 then UInt8.ofNat (71 + n)
  else if n < 62 then UInt8.ofNat (n - 4)
  else if n = 62 then 43 else 47

/-- The six-bit value of a character of the alphabet. -/
def value (b : UInt8) : Option Nat :=
  if 65 ≤ b ∧ b ≤ 90 then some (b.toNat - 65)
  else if 97 ≤ b ∧ b ≤ 122 then some (b.toNat - 71)
  else if 48 ≤ b ∧ b ≤ 57 then some (b.toNat + 4)
  else if b = 43 then some 62
  else if b = 47 then some 63
  else none

/-- The padding character. -/
def pad : UInt8 := 61

/-- `StdEncoding.EncodeToString`. -/
def encode : Bytes → Bytes
  | [] => []
  | [a] => [digit (a.toNat / 4), digit (a.toNat % 4 * 16), pad, pad]
  | [a, b] =>
      [digit (a.toNat / 4), digit (a.toNat % 4 * 16 + b.toNat / 16),
        digit (b.toNat % 16 * 4), pad]
  | a :: b :: c :: rest =>
      digit (a.toNat / 4) :: digit (a.toNat % 4 * 16 + b.toNat / 16) ::
        digit (b.toNat % 16 * 4 + c.toNat / 64) :: digit (c.toNat % 64) :: encode rest

/-- The first byte of a group, from its first two digits. -/
def first (w x : Nat) : UInt8 := UInt8.ofNat (w * 4 + x / 16)

/-- The second byte of a group. -/
def second (x y : Nat) : UInt8 := UInt8.ofNat (x % 16 * 16 + y / 4)

/-- The third byte of a group. -/
def third (y z : Nat) : UInt8 := UInt8.ofNat (y % 4 * 64 + z)

/-- Decoding groups of four digits. Padding ends the input. -/
def decodeGroups : Bytes → Option Bytes
  | [] => some []
  | w :: x :: y :: z :: rest =>
      if z = pad then
        if rest ≠ [] then none
        else if y = pad then do
          let w ← value w
          let x ← value x
          return [first w x]
        else do
          let w ← value w
          let x ← value x
          let y ← value y
          return [first w x, second x y]
      else do
        let w ← value w
        let x ← value x
        let y ← value y
        let z ← value z
        let rest ← decodeGroups rest
        return first w x :: second x y :: third y z :: rest
  | _ => none

/-- `StdEncoding.DecodeString`, which skips line breaks. -/
def decode (s : Bytes) : Option Bytes := decodeGroups (s.filter (fun b => b ≠ 10 ∧ b ≠ 13))

/-- A digit has the value it was made from. -/
theorem value_digit : ∀ n < 64, value (digit n) = some n := by decide

/-- A digit is neither padding nor a line break. -/
theorem digit_plain : ∀ n < 64, digit n ≠ pad ∧ digit n ≠ 10 ∧ digit n ≠ 13 := by decide

section Group

variable (a b c : UInt8)

theorem first_lt : a.toNat / 4 < 64 := by have := a.toNat_lt; omega

theorem second_lt : a.toNat % 4 * 16 + b.toNat / 16 < 64 := by have := b.toNat_lt; omega

theorem third_lt : b.toNat % 16 * 4 + c.toNat / 64 < 64 := by have := c.toNat_lt; omega

/-- The low bits of the second digit do not disturb the first byte. -/
theorem first_eq (r : Nat) (h : r < 16) : first (a.toNat / 4) (a.toNat % 4 * 16 + r) = a := by
  have hval : a.toNat / 4 * 4 + (a.toNat % 4 * 16 + r) / 16 = a.toNat := by omega
  rw [first, hval, UInt8.ofNat_toNat]

/-- Neither the high bits of the second digit nor the low bits of the third
    disturb the second byte. -/
theorem second_eq (q r : Nat) (hr : r < 4) :
    second (q * 16 + b.toNat / 16) (b.toNat % 16 * 4 + r) = b := by
  have hb := b.toNat_lt
  have hval : (q * 16 + b.toNat / 16) % 16 * 16 + (b.toNat % 16 * 4 + r) / 4 = b.toNat := by omega
  rw [second, hval, UInt8.ofNat_toNat]

theorem third_eq (q : Nat) : third (q * 4 + c.toNat / 64) (c.toNat % 64) = c := by
  have hc := c.toNat_lt
  have hval : (q * 4 + c.toNat / 64) % 4 * 64 + c.toNat % 64 = c.toNat := by omega
  rw [third, hval, UInt8.ofNat_toNat]

end Group

/-- What holds of every digit and of the padding holds of an encoding. -/
theorem forall_mem_encode (P : UInt8 → Prop) (hdigit : ∀ n < 64, P (digit n)) (hpad : P pad)
    (s : Bytes) : ∀ b ∈ encode s, P b := by
  induction s using encode.induct with
  | case1 => simp only [encode, List.not_mem_nil, false_implies, implies_true]
  | case2 a =>
      have h := second_lt a 0
      simp only [UInt8.toNat_zero, Nat.zero_div, Nat.add_zero] at h
      simp only [encode, List.forall_mem_cons]
      exact ⟨hdigit _ (first_lt a), hdigit _ h, hpad, hpad, fun _ hb => absurd hb List.not_mem_nil⟩
  | case3 a b =>
      have h := third_lt b 0
      simp only [UInt8.toNat_zero, Nat.zero_div, Nat.add_zero] at h
      simp only [encode, List.forall_mem_cons]
      exact ⟨hdigit _ (first_lt a), hdigit _ (second_lt a b), hdigit _ h, hpad,
        fun _ hb => absurd hb List.not_mem_nil⟩
  | case4 a b c rest ih =>
      simp only [encode, List.forall_mem_cons]
      exact ⟨hdigit _ (first_lt a), hdigit _ (second_lt a b), hdigit _ (third_lt b c),
        hdigit _ (Nat.mod_lt _ (by omega)), ih⟩

/-- The encoder never emits a line break. -/
theorem encode_plain (s : Bytes) : ∀ b ∈ encode s, b ≠ 10 ∧ b ≠ 13 :=
  forall_mem_encode _ (fun n hn => (digit_plain n hn).2) (by decide) s

/-- An encoding is ASCII text. -/
theorem encode_ascii (s : Bytes) : ∀ b ∈ encode s, b < 128 :=
  forall_mem_encode _ (by decide) (by decide) s

theorem decodeGroups_encode (s : Bytes) : decodeGroups (encode s) = some s := by
  -- Nothing is left, one byte, two bytes, or a group of three and more behind it.
  induction s using encode.induct with
  | case1 => rfl
  | case2 a =>
      have h := second_lt a 0
      have hfirst := first_eq a 0 (by omega)
      simp only [UInt8.toNat_zero, Nat.zero_div, Nat.add_zero] at h hfirst
      simp only [encode, decodeGroups, ne_eq, not_true_eq_false, if_false, if_true,
        value_digit _ (first_lt a), value_digit _ h, Option.bind_eq_bind, Option.bind_some,
        Option.pure_def, hfirst]
  | case3 a b =>
      have h := third_lt b 0
      have hsecond := second_eq b (a.toNat % 4) 0 (by omega)
      have hfirst := first_eq a (b.toNat / 16) (by have := b.toNat_lt; omega)
      simp only [UInt8.toNat_zero, Nat.zero_div, Nat.add_zero] at h hsecond
      simp only [encode, decodeGroups, ne_eq, not_true_eq_false, if_false, if_true,
        (digit_plain _ h).1, value_digit _ (first_lt a), value_digit _ (second_lt a b),
        value_digit _ h, Option.bind_eq_bind, Option.bind_some, Option.pure_def, hfirst, hsecond]
  | case4 a b c rest ih =>
      have hz : c.toNat % 64 < 64 := Nat.mod_lt _ (by omega)
      have hfirst := first_eq a (b.toNat / 16) (by have := b.toNat_lt; omega)
      have hsecond := second_eq b (a.toNat % 4) (c.toNat / 64) (by have := c.toNat_lt; omega)
      simp only [encode, decodeGroups, if_false, (digit_plain _ hz).1,
        value_digit _ (first_lt a), value_digit _ (second_lt a b), value_digit _ (third_lt b c),
        value_digit _ hz, ih, Option.bind_eq_bind, Option.bind_some, Option.pure_def, hfirst,
        hsecond, third_eq]

/-- Decoding an encoding gives the bytes back. -/
theorem decode_encode (s : Bytes) : decode (encode s) = some s := by
  have hfilter : (encode s).filter (fun b => b ≠ 10 ∧ b ≠ 13) = encode s := by
    rw [List.filter_eq_self]
    intro b hb
    exact decide_eq_true (encode_plain s b hb)
  rw [decode, hfilter, decodeGroups_encode]

end Base64

end Bop
