import Bop.Text.Bytes

/-!
# UTF-8

Go strings hold bytes, and the packages that care about characters decode
them as they go. `runes` is that decoding: each character of the text, and
`none` for every byte that starts no valid encoding, which is what
`utf8.DecodeRune` reports as a replacement character of width one.

Core Lean already has a decoder of one character and its inverse law. What is
added here is the walk over a whole byte string. It is written with a count
of continuation bytes still to skip rather than by dropping them, so that it
recurses on the list and evaluates.

## Main definitions

* `decodeRune`: The character at the start of a byte string, if there is one.
* `encode`: The UTF-8 encoding of a text.
* `runes`: A byte string as characters and stray bytes.
* `validString`: A byte string without stray bytes.
* `sanitize`: Every stray byte replaced by U+FFFD.
* `trimSpace`: `strings.TrimSpace`.

## Theorems

* `decodeRune_encode`: Decoding finds the encoded character.
* `runes_encode`: Decoding an encoding gives the text back.
* `sanitize_encode`: Valid text has nothing to replace.
* `sanitize_ascii`: Neither has ASCII text.
* `sanitize_eq_of_ascii`: Nor has text that is ASCII when it is replaced.
-/

namespace Bop

namespace Utf8

/-- The character whose encoding starts the byte string, if one does. -/
def decodeRune (s : Bytes) : Option Char := ByteArray.utf8DecodeChar? ⟨⟨s⟩⟩ 0

/-- The UTF-8 encoding of a text. -/
def encode (cs : List Char) : Bytes := cs.flatMap String.utf8EncodeChar

/-- Decoding with `skip` bytes of the current character still to pass over. -/
def runesFrom : Nat → Bytes → List (Option Char)
  | _, [] => []
  | skip + 1, _ :: rest => runesFrom skip rest
  | 0, b :: rest => match decodeRune (b :: rest) with
    | some c => some c :: runesFrom (c.utf8Size - 1) rest
    | none => none :: runesFrom 0 rest

/-- The characters of a byte string, with `none` for each stray byte. -/
def runes (s : Bytes) : List (Option Char) := runesFrom 0 s

/-- `utf8.ValidString`. -/
def validString (s : Bytes) : Bool := (runes s).all Option.isSome

/-- U+FFFD, which stands for a stray byte. -/
def replacement : Char := '\uFFFD'

/-- The byte string with every stray byte replaced. -/
def sanitize (s : Bytes) : Bytes :=
  encode ((runes s).map (fun r => r.getD replacement))

/-- `unicode.IsSpace`. -/
def isSpace (c : Char) : Bool :=
  let n := c.toNat
  (9 ≤ n && n ≤ 13) || n = 0x20 || n = 0x85 || n = 0xA0 || n = 0x1680 ||
    (0x2000 ≤ n && n ≤ 0x200A) || n = 0x2028 || n = 0x2029 || n = 0x202F || n = 0x205F ||
    n = 0x3000

/-- For each byte whether it belongs to a white space character, with `skip`
    bytes of the current one, which is as `space` says, still to pass over. -/
def spaceMask : Nat → Bool → Bytes → List (UInt8 × Bool)
  | _, _, [] => []
  | skip + 1, space, b :: rest => (b, space) :: spaceMask skip space rest
  | 0, _, b :: rest => match decodeRune (b :: rest) with
    | some c => (b, isSpace c) :: spaceMask (c.utf8Size - 1) (isSpace c) rest
    | none => (b, false) :: spaceMask 0 false rest

/-- `strings.TrimSpace`. -/
def trimSpace (s : Bytes) : Bytes :=
  let left := (spaceMask 0 false s).dropWhile Prod.snd
  (left.reverse.dropWhile Prod.snd).reverse.map Prod.fst

theorem encode_cons (c : Char) (cs : List Char) :
    encode (c :: cs) = String.utf8EncodeChar c ++ encode cs := rfl

/-- Decoding finds the encoded character. -/
theorem decodeRune_encode (c : Char) (s : Bytes) :
    decodeRune (String.utf8EncodeChar c ++ s) = some c := by
  have h : (⟨⟨String.utf8EncodeChar c ++ s⟩⟩ : ByteArray) =
      (String.utf8EncodeChar c).toByteArray ++ (⟨⟨s⟩⟩ : ByteArray) := by
    ext1
    simp only [ByteArray.data_append, List.data_toByteArray, List.append_toArray]
  rw [decodeRune, h]
  exact ByteArray.utf8DecodeChar?_utf8EncodeChar_append

/-- Skipping passes over exactly that many bytes. -/
theorem runesFrom_skip (s t : Bytes) : runesFrom s.length (s ++ t) = runesFrom 0 t := by
  induction s with
  | nil => rfl
  | cons b s ih => exact ih

/-- Decoding takes an encoded character off the front. -/
theorem runes_encodeChar (c : Char) (s : Bytes) :
    runes (String.utf8EncodeChar c ++ s) = some c :: runes s := by
  have hlen : (String.utf8EncodeChar c).length = c.utf8Size := String.length_utf8EncodeChar c
  have hdec := decodeRune_encode c s
  cases henc : String.utf8EncodeChar c with
  | nil => exact absurd henc String.utf8EncodeChar_ne_nil
  | cons b rest =>
      have hrest : c.utf8Size - 1 = rest.length := by
        rw [← hlen, henc, List.length_cons, Nat.add_sub_cancel]
      rw [henc, List.cons_append] at hdec
      simp only [runes, List.cons_append, runesFrom, hdec, hrest, runesFrom_skip]

/-- Decoding an encoding gives the text back. -/
theorem runes_encode (cs : List Char) : runes (encode cs) = cs.map some := by
  induction cs with
  | nil => rfl
  | cons c cs ih => rw [encode_cons, runes_encodeChar, ih, List.map_cons]

/-- Valid text has nothing to replace. -/
theorem sanitize_encode (cs : List Char) : sanitize (encode cs) = encode cs := by
  simp only [sanitize, runes_encode, List.map_map, Function.comp_def, Option.getD_some,
    List.map_id']

/-- Text with its stray bytes replaced has none. -/
theorem sanitize_idem (s : Bytes) : sanitize (sanitize s) = sanitize s := sanitize_encode _

/-- ASCII text is valid. -/
theorem encode_ascii (s : Bytes) (h : ∀ b ∈ s, b < 128) :
    encode (s.map (fun b => Char.ofNat b.toNat)) = s := by
  have hchar : ∀ n < 128, String.utf8EncodeChar (Char.ofNat n) = [UInt8.ofNat n] := by decide
  induction s with
  | nil => rfl
  | cons b s ih =>
      rcases List.forall_mem_cons.mp h with ⟨hb, hs⟩
      rw [List.map_cons, encode_cons, ih hs, hchar b.toNat (UInt8.lt_iff_toNat_lt.mp hb),
        UInt8.ofNat_toNat]
      rfl

theorem sanitize_ascii (s : Bytes) (h : ∀ b ∈ s, b < 128) : sanitize s = s := by
  rw [← encode_ascii s h, sanitize_encode]

/-- What is decoded stands at the start. -/
theorem exists_of_decodeRune (s : Bytes) (c : Char) (h : decodeRune s = some c) :
    ∃ rest, s = String.utf8EncodeChar c ++ rest := by
  rcases ByteArray.exists_of_utf8DecodeChar?_eq_some h with ⟨l, hl⟩
  refine ⟨l.data.toList, ?_⟩
  have hlist := congrArg (fun b => b.data.toList) hl
  simpa only [ByteArray.data_append, Array.toList_append, List.data_toByteArray] using hlist

/-- A stray byte at the front is replaced. -/
theorem sanitize_stray (b : UInt8) (rest : Bytes) (h : decodeRune (b :: rest) = none) :
    sanitize (b :: rest) = String.utf8EncodeChar replacement ++ sanitize rest := by
  simp only [sanitize, runes, runesFrom, h, List.map_cons, Option.getD_none, encode_cons]

/-- A character at the front is kept. -/
theorem sanitize_encodeChar (c : Char) (s : Bytes) :
    sanitize (String.utf8EncodeChar c ++ s) = String.utf8EncodeChar c ++ sanitize s := by
  simp only [sanitize, runes_encodeChar, List.map_cons, Option.getD_some, encode_cons]

/-- Text that is ASCII once its stray bytes are replaced had none. -/
theorem sanitize_eq_of_ascii (s : Bytes) (h : ∀ b ∈ sanitize s, b < 128) : sanitize s = s := by
  -- The induction is on a bound of the length: a character may take several bytes.
  have hbound : ∀ (n : Nat) (s : Bytes), s.length ≤ n → (∀ b ∈ sanitize s, b < 128) →
      sanitize s = s := by
    intro n
    induction n with
    | zero =>
        intro s hn _
        rw [List.length_eq_zero_iff.mp (Nat.le_zero.mp hn)]
        rfl
    | succ n ih =>
        intro s hn h
        cases s with
        | nil => rfl
        | cons b rest =>
            cases hdec : decodeRune (b :: rest) with
            | none =>
                rw [sanitize_stray b rest hdec] at h
                exact absurd (h 239 (List.mem_append_left _ (by decide))) (by decide)
            | some c =>
                rcases exists_of_decodeRune _ c hdec with ⟨tail, htail⟩
                have htailLen : tail.length ≤ n := by
                  have hpos := List.length_pos_of_ne_nil (String.utf8EncodeChar_ne_nil (c := c))
                  rw [htail, List.length_append] at hn
                  omega
                rw [htail, sanitize_encodeChar] at h ⊢
                rw [ih tail htailLen fun b hb => h b (List.mem_append_right _ hb)]
  exact hbound s.length s (Nat.le_refl _) h

example : trimSpace [0xC2, 0xA0, 0x20, 0x61, 0x20, 0x62, 0xE2, 0x80, 0x83] =
    [0x61, 0x20, 0x62] := by decide

example : runes [0x61, 0xFF, 0xC3, 0xA9] = [some 'a', none, some 'é'] := by decide

end Utf8

end Bop
