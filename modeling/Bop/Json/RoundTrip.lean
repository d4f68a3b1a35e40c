import Bop.Json.Scan

/-!
# Reading Back What Was Written

The scanner undoes the writer: parsing the text of a value gives the value
back, with the stray bytes of its strings replaced as the writer replaced
them. The only thing that can go wrong is nesting, which the scanner bounds.

The proof follows the text from left to right. A string literal is followed
character by character, with `pieces` naming what the scanner has collected
after each. A value is followed by `Reads`, which says that the scanner has
either pushed the value or is still inside the number that it is; the byte
that comes next, a comma or a bracket, makes the two the same.

## Main definitions

* `pieces`: What the scanner collects from one written character.
* `Reads`: The scanner has just passed a value.

## Theorems

* `unquote_pieces`: The collected pieces denote the sanitized string.
* `run_quote`: The scanner reads a string literal.
* `run_render`: The scanner reads a written value.
* `parse_render`: Parsing a written value gives it back.
* `render_plain`: A written value has no control characters.
-/

namespace Bop

namespace Json

/-! ### String literals -/

/-- What the scanner collects from one written character. -/
def pieces : Option Char → List Piece
  | none => [.unit 0xFFFD]
  | some c => match shortEscape c with
    | some _ => [.byte (UInt8.ofNat c.toNat)]
    | none =>
        if escapesUnit c then [.unit c.toNat] else (String.utf8EncodeChar c).map .byte

/-- The letter of a short escape is read back as the character. -/
theorem escapeByte_shortEscape (c : Char) (b : UInt8) (h : shortEscape c = some b) :
    b ≠ 117 ∧ escapeByte b = some (UInt8.ofNat c.toNat) ∧ c.toNat < 128 := by
  unfold shortEscape at h
  split_ifs at h <;> cases h <;> subst_vars <;> decide

/-- A character written as a unit fits one, and is no surrogate. -/
theorem escapesUnit_lt (c : Char) (h : escapesUnit c = true) : c.toNat < 0xD800 := by
  simp only [escapesUnit, Bool.or_eq_true, decide_eq_true_eq] at h
  rcases h with ((((h | rfl) | rfl) | rfl) | rfl) | rfl
  · omega
  all_goals decide

/-- A character written raw leaves the scanner inside the string. -/
theorem rawBytes (c : Char) (hs : shortEscape c = none) (hu : escapesUnit c = false) :
    ∀ b ∈ String.utf8EncodeChar c, b ≠ 34 ∧ b ≠ 92 ∧ ¬ b < 32 := by
  -- The bytes of a character above ASCII are all above it themselves.
  have hhigh : ∀ n : Nat, 0x80 ≤ n → n < 256 →
      UInt8.ofNat n ≠ 34 ∧ UInt8.ofNat n ≠ 92 ∧ ¬ UInt8.ofNat n < 32 := by
    intro n h1 h2
    have hn : (UInt8.ofNat n).toNat = n := by
      rw [UInt8.toNat_ofNat']
      omega
    refine ⟨?_, ?_, ?_⟩
    · intro h
      rw [h] at hn
      exact absurd hn (by change ¬ (34 = n); omega)
    · intro h
      rw [h] at hn
      exact absurd hn (by change ¬ (92 = n); omega)
    · rw [UInt8.lt_iff_toNat_lt, hn]
      change ¬ (n < 32)
      omega
  -- One of ASCII that needs no escape is none of the special ones.
  have hlow : c.toNat < 128 → 32 ≤ c.toNat ∧ c.toNat ≠ 34 ∧ c.toNat ≠ 92 := by
    intro _
    have hc : ∀ d : Char, c.toNat = d.toNat → c = d := fun d hd => Char.toNat_inj.mp hd
    refine ⟨?_, ?_, ?_⟩
    · by_contra hlt
      simp only [escapesUnit, Bool.or_eq_false_iff, decide_eq_false_iff_not] at hu
      omega
    · intro h
      rw [hc '"' h] at hs
      exact absurd hs (by decide)
    · intro h
      rw [hc '\\' h] at hs
      exact absurd hs (by decide)
  have hmax : c.val.toNat < 0x110000 := by
    have := c.valid
    rcases this with h | h
    · have : c.val.toNat < 0xD800 := h
      omega
    · exact h.2
  intro b hb
  unfold String.utf8EncodeChar at hb
  simp only at hb
  -- One byte, two, three or four.
  split_ifs at hb with h1 h2 h3
  · rcases hlow (by change c.val.toNat < 128; omega) with ⟨hge, hq, hbs⟩
    rw [List.mem_singleton] at hb
    subst hb
    have hn : (UInt8.ofNat c.val.toNat).toNat = c.val.toNat := by
      rw [UInt8.toNat_ofNat']
      omega
    change c.val.toNat ≠ 34 at hq
    change c.val.toNat ≠ 92 at hbs
    change 32 ≤ c.val.toNat at hge
    refine ⟨?_, ?_, ?_⟩
    · intro h
      rw [h] at hn
      exact hq hn.symm
    · intro h
      rw [h] at hn
      exact hbs hn.symm
    · rw [UInt8.lt_iff_toNat_lt, hn]
      change ¬ (c.val.toNat < 32)
      omega
  all_goals
    simp only [List.mem_cons, List.not_mem_nil, or_false] at hb
  · rcases hb with rfl | rfl <;> exact hhigh _ (by omega) (by omega)
  · rcases hb with rfl | rfl | rfl <;> exact hhigh _ (by omega) (by omega)
  · rcases hb with rfl | rfl | rfl | rfl <;> exact hhigh _ (by omega) (by omega)

theorem hexValue_hexDigit : ∀ d < 16, hexValue (hexDigit d) = some d := by decide

/-- The scanner reads a unit back from its escape. -/
theorem run_unitEscape (st : List Frame) (ps : List Piece) (n : Nat) (h : n < 65536) :
    run (.run st (.str ps)) (unitEscape n) = .run st (.str (ps ++ [.unit n])) := by
  have hval : ((n / 4096 % 16 * 16 + n / 256 % 16) * 16 + n / 16 % 16) * 16 + n % 16 = n := by
    omega
  change run (.run st (.hex ps 0 0)) [_, _, _, _] = _
  simp only [run, List.foldl_cons, List.foldl_nil, step, stepSettled,
    hexValue_hexDigit _ (Nat.mod_lt _ (by decide : 0 < 16)), Nat.zero_mul, Nat.zero_add,
    reduceCtorEq, if_false, if_true, Nat.reduceAdd, Nat.reduceEqDiff]
  rw [hval]

/-- Bytes that mean nothing inside a string are collected as they are. -/
theorem run_bytes (st : List Frame) (ps : List Piece) (bs : Bytes)
    (h : ∀ b ∈ bs, b ≠ 34 ∧ b ≠ 92 ∧ ¬ b < 32) :
    run (.run st (.str ps)) bs = .run st (.str (ps ++ bs.map .byte)) := by
  induction bs generalizing ps with
  | nil => rw [run_nil, List.map_nil, List.append_nil]
  | cons b bs ih =>
      rcases h b List.mem_cons_self with ⟨hq, hbs, hlt⟩
      rw [run_cons]
      simp only [step, stepSettled, if_neg hq, if_neg hbs, if_neg hlt]
      rw [ih (ps ++ [Piece.byte b]) (fun b' hb' => h b' (List.mem_cons_of_mem b hb')),
        List.append_assoc, List.map_cons, List.singleton_append]

/-- The scanner collects the pieces of a written character. -/
theorem run_escapeRune (st : List Frame) (ps : List Piece) (r : Option Char) :
    run (.run st (.str ps)) (escapeRune r) = .run st (.str (ps ++ pieces r)) := by
  cases r with
  | none => exact run_unitEscape st ps 0xFFFD (by omega)
  | some c =>
      simp only [escapeRune, pieces]
      cases hs : shortEscape c with
      | some b =>
          rcases escapeByte_shortEscape c b hs with ⟨hne, hb, _⟩
          change stepSettled (.run st (.esc ps)) b = _
          simp only [stepSettled, if_neg hne, hb]
      | none =>
          cases hu : escapesUnit c with
          | true =>
              exact run_unitEscape st ps c.toNat (by have := escapesUnit_lt c hu; omega)
          | false => exact run_bytes st ps _ (rawBytes c hs hu)

/-- The scanner collects the pieces of a whole literal. -/
theorem run_escapeRunes (st : List Frame) (ps : List Piece) (rs : List (Option Char)) :
    run (.run st (.str ps)) (rs.flatMap escapeRune) =
      .run st (.str (ps ++ rs.flatMap pieces)) := by
  induction rs generalizing ps with
  | nil => rw [List.flatMap_nil, List.flatMap_nil, run_nil, List.append_nil]
  | cons r rs ih =>
      rw [List.flatMap_cons, run_append, run_escapeRune, ih, List.append_assoc,
        List.flatMap_cons]

/-- A unit that is no surrogate stands for itself. -/
theorem joinPieces_unit (n : Nat) (h : n < 0xD800 ∨ 0xE000 ≤ n) (rest : List Piece) :
    joinPieces (.unit n :: rest) = String.utf8EncodeChar (Char.ofNat n) ++ joinPieces rest := by
  have hchar : unitChar n = Char.ofNat n := if_neg (by omega)
  cases rest with
  | nil => rw [joinPieces, joinPieces, hchar, List.append_nil]
  | cons p rest =>
      cases p with
      | byte b => rw [joinPieces, joinPieces, hchar]
      | unit lo => rw [joinPieces, if_neg (by omega), hchar]

theorem joinPieces_bytes (bs : Bytes) (rest : List Piece) :
    joinPieces (bs.map .byte ++ rest) = bs ++ joinPieces rest := by
  induction bs with
  | nil => rfl
  | cons b bs ih => rw [List.map_cons, List.cons_append, joinPieces, ih, List.cons_append]

/-- The pieces of a written character denote the character. -/
theorem joinPieces_pieces (r : Option Char) (rest : List Piece) :
    joinPieces (pieces r ++ rest) =
      String.utf8EncodeChar (r.getD Utf8.replacement) ++ joinPieces rest := by
  cases r with
  | none => exact joinPieces_unit 0xFFFD (by omega) rest
  | some c =>
      have hofNat : Char.ofNat c.toNat = c := Char.ofNat_toNat c
      simp only [pieces, Option.getD_some]
      cases hs : shortEscape c with
      | some b =>
          -- A character with a short escape is of ASCII, so its byte is its code.
          have hlt := (escapeByte_shortEscape c b hs).2.2
          have hle : c.val.toNat ≤ 0x7f := by
            change c.val.toNat < 128 at hlt
            omega
          have henc : String.utf8EncodeChar c = [UInt8.ofNat c.toNat] := by
            unfold String.utf8EncodeChar
            exact if_pos hle
          rw [henc]
          rfl
      | none =>
          cases hu : escapesUnit c with
          | true =>
              have := joinPieces_unit c.toNat (Or.inl (escapesUnit_lt c hu)) rest
              rw [hofNat] at this
              exact this
          | false => exact joinPieces_bytes _ rest

/-- The collected pieces denote the sanitized string. -/
theorem unquote_pieces (s : Bytes) :
    unquote ((Utf8.runes s).flatMap pieces) = Utf8.sanitize s := by
  have hjoin : ∀ rs : List (Option Char), joinPieces (rs.flatMap pieces) =
      Utf8.encode (rs.map (fun r => r.getD Utf8.replacement)) := by
    intro rs
    induction rs with
    | nil => rfl
    | cons r rs ih =>
        rw [List.flatMap_cons, joinPieces_pieces, ih, List.map_cons, Utf8.encode_cons]
  rw [unquote, hjoin, Utf8.sanitize_encode]
  rfl

/-- The scanner reads a string literal, as a key or as a value. -/
theorem run_quote (st : List Frame) (mode : Mode) (s : Bytes)
    (h : stepSettled (.run st mode) 34 = .run st (.str []))
    (hnum : ∀ text, mode ≠ .num text) :
    run (.run st mode) (quote s) =
      closeString ((Utf8.runes s).flatMap pieces) st := by
  have hstep : step (.run st mode) 34 = .run st (.str []) := by
    rw [step_of_not_num, h]
    intro st' text heq
    cases heq
    exact hnum text rfl
  rw [quote, List.cons_append, run_cons, hstep, run_append, run_escapeRunes, List.nil_append,
    run_cons, run_nil]
  rfl

/-! ### Values -/

/-- The scanner has just passed a value, or is still inside it. -/
def Reads (s : State) (v : Json) (st : List Frame) : Prop :=
  s = pushValue v st ∨ ∃ n, v = .num n ∧ s = .run st (.num n.text)

theorem pushValue_not_num (v : Json) (st st' : List Frame) (text : Bytes) :
    pushValue v st ≠ .run st' (.num text) := by
  cases st with
  | nil => exact State.noConfusion
  | cons f st =>
      cases f with
      | obj done => exact State.noConfusion
      | _ =>
          intro h
          cases h

/-- A byte no number goes on with finishes the value before it is read. -/
theorem step_reads (s : State) (v : Json) (st : List Frame) (c : UInt8) (h : Reads s v st)
    (hc : ∀ q, numStep q c = none) : step s c = stepSettled (pushValue v st) c := by
  rcases h with rfl | ⟨n, rfl, rfl⟩
  · exact step_of_not_num _ _ (fun st' text => pushValue_not_num v st st' text)
  · have hnone : numRun (n.text ++ [c]) = none := by
      rw [numRun_append]
      cases numRun n.text with
      | none => rfl
      | some q =>
          simp only [Option.bind_some, List.foldlM_cons, List.foldlM_nil, hc q,
            Option.bind_eq_bind, Option.bind_none]
    simp only [step, hnone, Option.isSome_none, Bool.false_eq_true, if_false, settle, n.valid,
      dif_pos]

theorem settle_reads (s : State) (v : Json) (st : List Frame) (h : Reads s v st) :
    settle s = pushValue v st := by
  rcases h with rfl | ⟨n, rfl, rfl⟩
  · cases hp : pushValue v st with
    | run st' mode =>
        cases mode with
        | num text => exact absurd hp (pushValue_not_num v st st' text)
        | _ => rfl
    | _ => rfl
  · simp only [settle, n.valid, dif_pos]

/-- A comma and the closing brackets end a number. -/
theorem numStep_end (c : UInt8) (h : c = 44 ∨ c = 93 ∨ c = 125) :
    ∀ q, numStep q c = none := by
  rcases h with rfl | rfl | rfl <;> intro q <;> cases q <;> decide

/-- The scanner walks through the rest of a number. -/
theorem run_num (st : List Frame) (text rest : Bytes) (h : (numRun (text ++ rest)).isSome) :
    run (.run st (.num text)) rest = .run st (.num (text ++ rest)) := by
  induction rest generalizing text with
  | nil => rw [run_nil, List.append_nil]
  | cons c rest ih =>
      have hassoc : text ++ c :: rest = (text ++ [c]) ++ rest := by
        rw [List.append_assoc, List.singleton_append]
      rw [hassoc] at h ⊢
      have hfirst : (numRun (text ++ [c])).isSome := by
        rw [numRun_append] at h
        cases hr : numRun (text ++ [c]) with
        | none =>
            rw [hr] at h
            exact h
        | some q => rfl
      rw [run_cons, step, if_pos hfirst]
      exact ih (text ++ [c]) h

/-- The scanner reads a number. -/
theorem run_number (st : List Frame) (orEmpty : Bool) (n : Number) :
    run (.run st (.value orEmpty)) n.text = .run st (.num n.text) := by
  have hsome : (numRun n.text).isSome := by
    have hv := n.valid
    rw [isNumber] at hv
    cases hr : numRun n.text with
    | none =>
        rw [hr] at hv
        exact absurd hv Bool.false_ne_true
    | some q => rfl
  cases htext : n.text with
  | nil =>
      have hv := n.valid
      rw [htext] at hv
      exact absurd hv (by decide)
  | cons c rest =>
      rw [htext] at hsome
      -- The number begins with a byte that begins numbers, so none of the other values is taken up.
      have hfirst : (numStep .start c).isSome := by
        rw [numRun, List.foldlM_cons] at hsome
        cases hr : numStep .start c with
        | none =>
            rw [hr] at hsome
            exact hsome
        | some q => rfl
      have hplain : ∀ b : UInt8, numStep .start b = none → c ≠ b := by
        rintro b hb rfl
        rw [hb] at hfirst
        exact Bool.false_ne_true hfirst
      have hspace : isSpace c = false := by
        simp only [isSpace, Bool.or_eq_false_iff, decide_eq_false_iff_not]
        exact ⟨⟨⟨hplain 32 (by decide), hplain 9 (by decide)⟩, hplain 10 (by decide)⟩,
          hplain 13 (by decide)⟩
      have hstep : step (.run st (.value orEmpty)) c = .run st (.num [c]) := by
        simp only [step, stepSettled, hspace, Bool.false_eq_true, if_false,
          if_neg (fun h => hplain 93 (by decide) h.2 : ¬ (orEmpty = true ∧ c = 93)), beginValue,
          if_neg (hplain 123 (by decide)), if_neg (hplain 91 (by decide)),
          if_neg (hplain 34 (by decide)), hfirst, if_true]
      rw [run_cons, hstep]
      exact run_num st [c] rest hsome

/-- A literal is pushed as the string it denotes, where a value is due. -/
theorem closeString_value (s : Bytes) (st : List Frame)
    (h : ∀ done st', st ≠ .obj done :: st') :
    closeString ((Utf8.runes s).flatMap pieces) st =
      pushValue (.str (Utf8.sanitize s)) st := by
  rw [← unquote_pieces]
  cases st with
  | nil => rfl
  | cons f st =>
      cases f with
      | obj done => exact absurd rfl (h done st)
      | _ => rfl

/-- An open array or a member whose value is due. -/
def awaitsValue : List Frame → Prop
  | .obj _ :: _ => False
  | _ => True

mutual

/-- The scanner reads a written value. -/
theorem run_render (v : Json) (st : List Frame) (orEmpty : Bool)
    (h : st.length + depth v ≤ maxNestingDepth) (hst : awaitsValue st) :
    Reads (run (.run st (.value orEmpty)) (render v)) (sanitize v) st := by
  match v with
  | .null => cases orEmpty <;> exact Or.inl rfl
  | .bool true => cases orEmpty <;> exact Or.inl rfl
  | .bool false => cases orEmpty <;> exact Or.inl rfl
  | .num n =>
      rw [render, run_number]
      exact Or.inr ⟨n, rfl, rfl⟩
  | .str s =>
      rw [render, run_quote st _ s (by cases orEmpty <;> rfl) (fun _ => Mode.noConfusion)]
      left
      refine closeString_value s st ?_
      rintro done st' rfl
      exact hst
  | .arr [] =>
      left
      rw [depth, depthElements] at h
      have hopen : openFrame (.arr []) (.value true) st = .run (.arr [] :: st) (.value true) :=
        if_pos h
      have hstep : step (.run st (.value orEmpty)) 91 = .run (.arr [] :: st) (.value true) := by
        rw [← hopen]
        cases orEmpty <;> rfl
      change run (step (.run st (.value orEmpty)) 91) [93] = _
      rw [hstep]
      rfl
  | .arr (x :: xs) =>
      left
      rw [depth, depthElements] at h
      have hopen : openFrame (.arr []) (.value true) st = .run (.arr [] :: st) (.value true) :=
        if_pos (by omega)
      have hstep : step (.run st (.value orEmpty)) 91 = .run (.arr [] :: st) (.value true) := by
        rw [← hopen]
        cases orEmpty <;> rfl
      -- The elements are read below the bracket, the first one without a comma.
      have hx := run_render x (.arr [] :: st) true (by rw [List.length_cons]; omega) trivial
      have hxs := run_renderElements xs st [] _ _ hx (by omega)
      change run (step (.run st (.value orEmpty)) 91) (render x ++ renderElements xs ++ [93]) = _
      rw [hstep, List.append_assoc, run_append, hxs]
      rfl
  | .obj [] =>
      left
      rw [depth, depthMembers] at h
      have hopen : openFrame (.obj []) (.key true) st = .run (.obj [] :: st) (.key true) :=
        if_pos h
      have hstep : step (.run st (.value orEmpty)) 123 = .run (.obj [] :: st) (.key true) := by
        rw [← hopen]
        cases orEmpty <;> rfl
      change run (step (.run st (.value orEmpty)) 123) [125] = _
      rw [hstep]
      rfl
  | .obj ((k, v) :: ms) =>
      left
      rw [depth, depthMembers] at h
      have hopen : openFrame (.obj []) (.key true) st = .run (.obj [] :: st) (.key true) :=
        if_pos (by omega)
      have hstep : step (.run st (.value orEmpty)) 123 = .run (.obj [] :: st) (.key true) := by
        rw [← hopen]
        cases orEmpty <;> rfl
      -- The key is read below the brace, then its value below the key.
      have hv := run_render v (.member [] (Utf8.sanitize k) :: st) false
        (by rw [List.length_cons]; omega) trivial
      have hms := run_renderMembers ms st [] _ _ _ hv (by omega)
      change run (step (.run st (.value orEmpty)) 123)
        (quote k ++ [58] ++ render v ++ renderMembers ms ++ [125]) = _
      rw [hstep]
      simp only [List.append_assoc, List.singleton_append]
      rw [run_append, run_quote _ _ k rfl (fun _ => Mode.noConfusion), closeString,
        unquote_pieces, List.cons_append, run_cons, run_append]
      exact hms

/-- The scanner reads the rest of an array. -/
theorem run_renderElements (xs : List Json) (st : List Frame) (done : List Json) (last : Json)
    (s : State) (hs : Reads s last (.arr done :: st))
    (h : st.length + 1 + depthElements xs ≤ maxNestingDepth) :
    run s (renderElements xs ++ [93]) =
      pushValue (.arr (done ++ [last] ++ sanitizeElements xs)) st := by
  match xs with
  | [] =>
      rw [sanitizeElements, List.append_nil]
      exact step_reads s last _ 93 hs (numStep_end 93 (by decide))
  | x :: xs =>
      rw [depthElements] at h
      have hx := run_render x (.arr (done ++ [last]) :: st) false
        (by rw [List.length_cons]; omega) trivial
      have hxs := run_renderElements xs st (done ++ [last]) (sanitize x) _ hx (by omega)
      have hdone : done ++ [last] ++ sanitizeElements (x :: xs) =
          done ++ [last] ++ [sanitize x] ++ sanitizeElements xs := by
        rw [sanitizeElements, List.append_assoc (done ++ [last]), List.singleton_append]
      change run (step s 44) ((render x ++ renderElements xs) ++ [93]) = _
      rw [step_reads s last _ 44 hs (numStep_end 44 (by decide)), List.append_assoc, run_append,
        hdone]
      exact hxs

/-- The scanner reads the rest of an object. -/
theorem run_renderMembers (ms : List (Bytes × Json)) (st : List Frame)
    (done : List (Bytes × Json)) (key : Bytes) (last : Json)
    (s : State) (hs : Reads s last (.member done key :: st))
    (h : st.length + 1 + depthMembers ms ≤ maxNestingDepth) :
    run s (renderMembers ms ++ [125]) =
      pushValue (.obj (done ++ [(key, last)] ++ sanitizeMembers ms)) st := by
  match ms with
  | [] =>
      rw [sanitizeMembers, List.append_nil]
      exact step_reads s last _ 125 hs (numStep_end 125 (by decide))
  | (k, v) :: ms =>
      rw [depthMembers] at h
      have hv := run_render v (.member (done ++ [(key, last)]) (Utf8.sanitize k) :: st) false
        (by rw [List.length_cons]; omega) trivial
      have hms := run_renderMembers ms st (done ++ [(key, last)]) (Utf8.sanitize k) (sanitize v) _
        hv (by omega)
      -- The comma puts away the member before it.
      have hdone : done ++ [(key, last)] ++ sanitizeMembers ((k, v) :: ms) =
          done ++ [(key, last)] ++ [(Utf8.sanitize k, sanitize v)] ++ sanitizeMembers ms := by
        rw [sanitizeMembers, List.append_assoc (done ++ [(key, last)]), List.singleton_append]
      change run (step s 44) ((quote k ++ [58] ++ render v ++ renderMembers ms) ++ [125]) = _
      rw [step_reads s last _ 44 hs (numStep_end 44 (by decide)), hdone]
      rw [List.append_assoc, List.append_assoc, List.append_assoc, run_append]
      change run (run (.run (.obj (done ++ [(key, last)]) :: st) (.key false)) (quote k)) _ = _
      rw [run_quote _ _ k rfl (fun _ => Mode.noConfusion), closeString, unquote_pieces,
        List.singleton_append, run_cons, run_append]
      exact hms

end

/-- Parsing a written value gives it back, its strings sanitized. -/
theorem parse_render (v : Json) (h : depth v ≤ maxNestingDepth) :
    parse (render v) = some (sanitize v) := by
  have hr := run_render v [] false (by rw [List.length_nil]; omega) trivial
  have hs := settle_reads _ _ _ hr
  simp only [parse, start, hs, pushValue]

/-! ### Arrays and objects as lists -/

theorem sanitizeElements_eq (xs : List Json) : sanitizeElements xs = xs.map sanitize := by
  induction xs with
  | nil => rfl
  | cons x xs ih => rw [sanitizeElements, ih, List.map_cons]

theorem sanitizeMembers_append (ms ns : List (Bytes × Json)) :
    sanitizeMembers (ms ++ ns) = sanitizeMembers ms ++ sanitizeMembers ns := by
  induction ms with
  | nil => rfl
  | cons m ms ih =>
      rcases m with ⟨k, v⟩
      rw [List.cons_append, sanitizeMembers, sanitizeMembers, ih, List.cons_append]

theorem depthElements_le (n : Nat) (xs : List Json) (h : ∀ x ∈ xs, depth x ≤ n) :
    depthElements xs ≤ n := by
  induction xs with
  | nil => exact Nat.zero_le n
  | cons x xs ih =>
      rcases List.forall_mem_cons.mp h with ⟨hx, hxs⟩
      rw [depthElements]
      exact Nat.max_le.mpr ⟨hx, ih hxs⟩

theorem depthMembers_le (n : Nat) (ms : List (Bytes × Json)) (h : ∀ m ∈ ms, depth m.2 ≤ n) :
    depthMembers ms ≤ n := by
  induction ms with
  | nil => exact Nat.zero_le n
  | cons m ms ih =>
      rcases List.forall_mem_cons.mp h with ⟨hm, hms⟩
      rcases m with ⟨k, v⟩
      rw [depthMembers]
      exact Nat.max_le.mpr ⟨hm, ih hms⟩

/-! ### A written value is one line -/

/-- A number has no control characters. -/
theorem numRun_plain (text : Bytes) (h : (numRun text).isSome) : ∀ b ∈ text, ¬ b < 32 := by
  have hnone : ∀ q, ∀ n < 32, numStep q (UInt8.ofNat n) = none := by
    intro q
    cases q <;> decide
  intro b hb hlt
  rcases List.append_of_mem hb with ⟨s, t, rfl⟩
  have hstep : ∀ q, numStep q b = none := by
    intro q
    have := hnone q b.toNat (UInt8.lt_iff_toNat_lt.mp hlt)
    rwa [UInt8.ofNat_toNat] at this
  rw [numRun_append] at h
  cases hs : numRun s with
  | none =>
      rw [hs] at h
      exact absurd h Bool.false_ne_true
  | some q =>
      rw [hs, Option.bind_some, List.foldlM_cons, hstep q] at h
      exact absurd h Bool.false_ne_true

/-- Nothing a string literal is written with is a control character. -/
theorem escapeRune_plain (r : Option Char) : ∀ b ∈ escapeRune r, ¬ b < 32 := by
  have hhex : ∀ d < 16, ¬ hexDigit d < 32 := by decide
  -- An escape is a backslash, a letter and four hexadecimal digits.
  have hunit : ∀ n, ∀ b ∈ unitEscape n, ¬ b < 32 := by
    intro n
    change ∀ b ∈ [92, 117, _, _, _, _], ¬ b < 32
    simp only [List.forall_mem_cons]
    exact ⟨by decide, by decide, hhex _ (Nat.mod_lt _ (by decide)),
      hhex _ (Nat.mod_lt _ (by decide)), hhex _ (Nat.mod_lt _ (by decide)),
      hhex _ (Nat.mod_lt _ (by decide)), fun _ hb => absurd hb List.not_mem_nil⟩
  cases r with
  | none => exact hunit _
  | some c =>
      simp only [escapeRune]
      cases hs : shortEscape c with
      | some b =>
          have hb : ¬ b < 32 := by
            unfold shortEscape at hs
            split_ifs at hs <;> cases hs <;> decide
          simp only [List.forall_mem_cons]
          exact ⟨by decide, hb, fun _ hb => absurd hb List.not_mem_nil⟩
      | none =>
          simp only
          split
          · exact hunit _
          · next hu =>
              exact fun b hb => (rawBytes c hs (Bool.eq_false_iff.mpr hu) b hb).2.2

theorem quote_plain (s : Bytes) : ∀ b ∈ quote s, ¬ b < 32 := by
  intro b hb
  rcases List.mem_append.mp hb with hb | hb
  · rcases List.mem_cons.mp hb with rfl | hb
    · decide
    · rcases List.mem_flatMap.mp hb with ⟨r, _, hr⟩
      exact escapeRune_plain r b hr
  · rw [List.mem_singleton.mp hb]
    decide

/-- The punctuation of a value has none: a literal is checked byte by byte. -/
theorem plain_of_all {s : Bytes} (h : s.all (fun b => !decide (b < 32))) :
    ∀ b ∈ s, ¬ b < 32 := by
  intro b hb
  simpa using List.all_eq_true.mp h b hb

theorem plain_append (s t : Bytes) (hs : ∀ b ∈ s, ¬ b < 32) (ht : ∀ b ∈ t, ¬ b < 32) :
    ∀ b ∈ s ++ t, ¬ b < 32 := fun b hb => (List.mem_append.mp hb).elim (hs b) (ht b)

mutual

/-- A written value has no control characters. -/
theorem render_plain (v : Json) : ∀ b ∈ render v, ¬ b < 32 := by
  match v with
  | .null => exact plain_of_all (by decide)
  | .bool true => exact plain_of_all (by decide)
  | .bool false => exact plain_of_all (by decide)
  | .num n =>
      refine numRun_plain n.text ?_
      have hv := n.valid
      rw [isNumber] at hv
      split at hv
      · next hr => rw [hr]; rfl
      · cases hv
  | .str s => exact quote_plain s
  | .arr [] => exact plain_of_all (by decide)
  | .arr (x :: xs) =>
      exact plain_append _ _ (plain_append _ _ (plain_append _ _ (plain_of_all (by decide))
        (render_plain x)) (renderElements_plain xs)) (plain_of_all (by decide))
  | .obj [] => exact plain_of_all (by decide)
  | .obj ((k, v) :: ms) =>
      exact plain_append _ _ (plain_append _ _ (plain_append _ _ (plain_append _ _
        (plain_append _ _ (plain_of_all (by decide)) (quote_plain k)) (plain_of_all (by decide)))
        (render_plain v)) (renderMembers_plain ms)) (plain_of_all (by decide))

theorem renderElements_plain (xs : List Json) : ∀ b ∈ renderElements xs, ¬ b < 32 := by
  match xs with
  | [] => exact fun b hb => absurd hb List.not_mem_nil
  | x :: xs =>
      exact plain_append _ _ (plain_append _ _ (plain_of_all (by decide)) (render_plain x))
        (renderElements_plain xs)

theorem renderMembers_plain (ms : List (Bytes × Json)) : ∀ b ∈ renderMembers ms, ¬ b < 32 := by
  match ms with
  | [] => exact fun b hb => absurd hb List.not_mem_nil
  | (k, v) :: ms =>
      exact plain_append _ _ (plain_append _ _ (plain_append _ _ (plain_append _ _
        (plain_of_all (by decide)) (quote_plain k)) (plain_of_all (by decide))) (render_plain v))
        (renderMembers_plain ms)

end

end Json

end Bop
