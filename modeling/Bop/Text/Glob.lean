import Bop.Text.Utf8

/-!
# Patterns of Paths

`path.Match` of Go. A pattern is cut at its stars into chunks, and a chunk says
byte by byte and character by character what it matches. What stands for a star
is the shortest text behind which the next chunk matches, and there is no going
back on that. A star and a question mark do not match a slash.

A chunk that is malformed is an error, and whether one is does not depend on
what the pattern is matched with.

## Main definitions

* `chunks`: A pattern cut at its stars.
* `Item`, `parseItems`: What a chunk matches.
* `parsePattern`: A pattern that is not malformed.
* `matchItems`, `seek`, `matchChunks`: Matching.
* `pathMatch`: `path.Match`.

## Theorems

* `parseRanges_fuel`, `parseItems_fuel`: A chunk is read to its end.
* `pathMatch_eq_error_iff`: A pattern that is an error is one for every text.
-/

namespace Bop

/-- A pattern cut at its stars, given what is read of the first chunk: whether a
    star is in front of it, its bytes, whether a bracket is open and whether the
    next byte is escaped. -/
def chunksFrom (star : Bool) (chunk : Bytes) (inrange escaped : Bool) :
    Bytes → List (Bool × Bytes)
  | [] => [(star, chunk)]
  | b :: rest =>
      -- A star that is escaped, or in a class, is a byte like any other.
      if escaped then chunksFrom star (chunk ++ [b]) inrange false rest
      else if b = 42 ∧ inrange = false then
        if chunk = [] then chunksFrom true [] false false rest
        else (star, chunk) :: chunksFrom true [] false false rest
      else chunksFrom star (chunk ++ [b]) (b = 91 ∨ b ≠ 93 ∧ inrange = true) (b = 92) rest

/-- A pattern cut at its stars. -/
def chunks (pattern : Bytes) : List (Bool × Bytes) :=
  if pattern = [] then [] else chunksFrom false [] false false pattern

/-- What a chunk matches: a byte, any character, or one of a class. -/
inductive Item
  | byte (b : UInt8)
  | any
  | oneOf (negated : Bool) (ranges : List (Nat × Nat))
deriving DecidableEq

/-- `getEsc`: a character of a class, which may be escaped and is not the last
    byte of its chunk. -/
def getEsc : Bytes → Option (Nat × Bytes)
  | [] => none
  | b :: rest =>
      if b = 45 ∨ b = 93 then none
      else
        let chunk := if b = 92 then rest else b :: rest
        (Utf8.decodeRune chunk).bind fun c =>
          -- A class has to be closed, so something follows its last character.
          let nchunk := chunk.drop c.utf8Size
          if nchunk = [] then none else some (c.toNat, nchunk)

/-- A range of a class: two characters with a hyphen between them, or one. -/
def parseRange (chunk : Bytes) : Option ((Nat × Nat) × Bytes) :=
  (getEsc chunk).bind fun lo =>
    if lo.2.head? = some 45 then (getEsc lo.2.tail).map fun hi => ((lo.1, hi.1), hi.2)
    else some ((lo.1, lo.1), lo.2)

/-- The ranges of a class up to its bracket, of which there is at least one. -/
def parseRanges : Nat → Bytes → Option (List (Nat × Nat) × Bytes)
  | 0, _ => none
  | fuel + 1, chunk => (parseRange chunk).bind fun r =>
      if r.2.head? = some 93 then some ([r.1], r.2.tail)
      else (parseRanges fuel r.2).map fun more => (r.1 :: more.1, more.2)

/-- What a chunk matches, unless it is malformed. -/
def parseItems : Nat → Bytes → Option (List Item)
  | _, [] => some []
  | 0, _ :: _ => none
  | fuel + 1, b :: rest =>
      -- A class, with a caret if it is negated.
      if b = 91 then
        let negated : Bool := rest.head? = some 94
        (parseRanges rest.length (if negated then rest.tail else rest)).bind fun r =>
          (parseItems fuel r.2).map (.oneOf negated r.1 :: ·)
      else if b = 63 then (parseItems fuel rest).map (.any :: ·)
      -- A backslash at the end of a pattern escapes nothing.
      else if b = 92 then rest.head?.bind fun c =>
        (parseItems fuel rest.tail).map (.byte c :: ·)
      else (parseItems fuel rest).map (.byte b :: ·)

/-- A pattern, unless it is malformed. -/
def parsePattern (pattern : Bytes) : Option (List (Bool × List Item)) :=
  (chunks pattern).mapM fun c => (parseItems c.2.length c.2).map fun items => (c.1, items)

/-- `utf8.DecodeRuneInString` of a text that is not empty. -/
def firstRune (s : Bytes) : Nat × Nat :=
  match Utf8.decodeRune s with
  | some c => (c.toNat, c.utf8Size)
  | none => (Utf8.replacement.toNat, 1)

/-- `matchChunk`: what is left of a text that begins as the chunk says. -/
def matchItems : List Item → Bytes → Option Bytes
  | [], s => some s
  | _ :: _, [] => none
  | .byte c :: items, b :: s => if b = c then matchItems items s else none
  | .any :: items, b :: s =>
      if b = 47 then none else matchItems items ((b :: s).drop (firstRune (b :: s)).2)
  | .oneOf negated ranges :: items, b :: s =>
      -- A class may match a slash, unlike the mark for any character.
      let r := firstRune (b :: s)
      if ranges.any (fun x => x.1 ≤ r.1 ∧ r.1 ≤ x.2) = negated then none
      else matchItems items ((b :: s).drop r.2)

/-- The first place behind the start of a text where a chunk matches, which no
    slash is in front of. The last chunk has to match up to the end. -/
def seek (items : List Item) (last : Bool) : Bytes → Option Bytes
  | [] => none
  | b :: s =>
      -- No star goes over a slash.
      if b = 47 then none
      else match matchItems items s with
        | some t => if last = true ∧ t ≠ [] then seek items last s else some t
        | none => seek items last s

/-- `Match`, for a pattern that is not malformed. -/
def matchChunks : List (Bool × List Item) → Bytes → Bool
  | [], name => name = []
  | (star, items) :: rest, name =>
      -- A star at the end takes what is left.
      if star = true ∧ items = [] then (47 : UInt8) ∉ name
      else
        -- The first place that fits is taken, and is not given up later.
        let here := (matchItems items name).filter fun t => t = [] ∨ rest ≠ []
        let there := if star then seek items (rest = []) name else none
        match here.or there with
        | some t => matchChunks rest t
        | none => false

/-- `ErrBadPattern`. -/
def errBadPattern : Bytes := "syntax error in pattern"

/-- `path.Match`. -/
def pathMatch (pattern name : Bytes) : Except Bytes Bool :=
  match parsePattern pattern with
  | none => .error errBadPattern
  | some cs => .ok (matchChunks cs name)

/-! ### A chunk is read to its end -/

/-- A character of a class takes something off the chunk. -/
theorem getEsc_length (chunk rest : Bytes) (r : Nat) (h : getEsc chunk = some (r, rest)) :
    rest.length < chunk.length := by
  have hdrop : ∀ (c : Char) (s : Bytes), s.drop c.utf8Size ≠ [] →
      (s.drop c.utf8Size).length < s.length := by
    intro c s hne
    have hpos := c.utf8Size_pos
    have hlen := List.length_pos_iff.mpr hne
    rw [List.length_drop] at hlen ⊢
    omega
  cases chunk with
  | nil => cases h
  | cons b chunk =>
      rw [getEsc] at h
      split at h
      · cases h
      · -- A character has at least one byte, and something is left behind it.
        rcases Option.bind_eq_some_iff.mp h with ⟨c, _, hc⟩
        rcases Option.ite_none_left_eq_some.mp hc with ⟨hne, hrest⟩
        cases hrest
        refine (hdrop c _ hne).trans_le ?_
        split
        · exact Nat.le_succ _
        · exact le_refl _

/-- So does a range. -/
theorem parseRange_length (chunk rest : Bytes) (r : Nat × Nat)
    (h : parseRange chunk = some (r, rest)) : rest.length < chunk.length := by
  rcases Option.bind_eq_some_iff.mp h with ⟨lo, hlo, h⟩
  have hlen := getEsc_length chunk lo.2 lo.1 hlo
  split at h
  · rcases Option.map_eq_some_iff.mp h with ⟨hi, hhi, heq⟩
    cases heq
    -- Two characters and a hyphen are longer than one.
    have hlen' := getEsc_length _ hi.2 hi.1 hhi
    rw [List.length_tail] at hlen'
    omega
  · cases h
    exact hlen

theorem parseRanges_length (fuel : Nat) (chunk rest : Bytes) (ranges : List (Nat × Nat))
    (h : parseRanges fuel chunk = some (ranges, rest)) : rest.length < chunk.length := by
  induction fuel generalizing chunk ranges with
  | zero => cases h
  | succ fuel ih =>
      rcases Option.bind_eq_some_iff.mp h with ⟨r, hr, h⟩
      have hlen := parseRange_length chunk r.2 r.1 hr
      split at h
      · cases h
        rw [List.length_tail]
        omega
      · rcases Option.map_eq_some_iff.mp h with ⟨more, hmore, heq⟩
        cases heq
        exact (ih r.2 more.1 hmore).trans hlen

/-- Ranges are read with as much fuel as there are bytes. -/
theorem parseRanges_fuel (fuel : Nat) (chunk : Bytes) (h : chunk.length ≤ fuel) :
    parseRanges (fuel + 1) chunk = parseRanges fuel chunk := by
  induction fuel generalizing chunk with
  | zero =>
      cases List.eq_nil_of_length_eq_zero (Nat.le_zero.mp h)
      rfl
  | succ fuel ih =>
      rw [parseRanges, parseRanges]
      refine Option.bind_congr fun r hr => ?_
      have hlen := parseRange_length chunk r.2 r.1 hr
      rw [ih r.2 (by omega)]

/-- A chunk is read with as much fuel as it has bytes. -/
theorem parseItems_fuel (fuel : Nat) (chunk : Bytes) (h : chunk.length ≤ fuel) :
    parseItems (fuel + 1) chunk = parseItems fuel chunk := by
  induction fuel generalizing chunk with
  | zero =>
      cases List.eq_nil_of_length_eq_zero (Nat.le_zero.mp h)
      rfl
  | succ fuel ih => cases chunk with
    | nil => rfl
    | cons b rest =>
        rw [List.length_cons] at h
        rw [parseItems, parseItems]
        split
        · refine Option.bind_congr fun r hr => ?_
          have hlen := parseRanges_length _ _ _ _ hr
          -- The caret of a negated class takes a byte, too.
          have htail : ∀ negated : Bool, (if negated then rest.tail else rest).length ≤
              rest.length := by
            intro negated
            split
            · exact List.length_tail ▸ Nat.sub_le _ _
            · exact le_refl _
          have := htail (rest.head? = some 94)
          rw [ih r.2 (by omega)]
        · split
          · rw [ih rest (by omega)]
          · split
            · rw [ih rest.tail (by rw [List.length_tail]; omega)]
            · rw [ih rest (by omega)]

/-! ### Errors -/

/-- A pattern that is an error is one for every text. -/
theorem pathMatch_eq_error_iff (pattern name err : Bytes) :
    pathMatch pattern name = .error err ↔ parsePattern pattern = none ∧ err = errBadPattern := by
  unfold pathMatch
  cases parsePattern pattern with
  | none =>
      exact ⟨fun h => ⟨rfl, (Except.error.inj h).symm⟩, fun h => congrArg Except.error h.2.symm⟩
  | some cs => exact ⟨fun h => (nomatch h), fun h => (nomatch h.1)⟩

/-- A pattern that is none for one text is none for any other. -/
theorem pathMatch_ok (pattern name : Bytes) (b : Bool) (h : pathMatch pattern name = .ok b)
    (name' : Bytes) : ∃ b', pathMatch pattern name' = .ok b' := by
  cases hmatch : pathMatch pattern name' with
  | ok b' => exact ⟨b', rfl⟩
  | error err =>
      -- It would be an error for the first text, too.
      rw [pathMatch_eq_error_iff] at hmatch
      rw [(pathMatch_eq_error_iff pattern name errBadPattern).mpr ⟨hmatch.1, rfl⟩] at h
      cases h

example : pathMatch "informix-*" "informix-ac" = .ok true ∧ pathMatch "[a-c]?" "bz" = .ok true ∧
    pathMatch "a*b*c" "axbybzc" = .ok true ∧ pathMatch "a[" "b" = .error errBadPattern := by
  decide +kernel

end Bop
