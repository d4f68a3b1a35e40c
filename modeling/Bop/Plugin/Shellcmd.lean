import Bop.Shell.Launch

/-!
# Building Command Lines

Every remote command is built as an argument list and turned into one line by
`build`, which quotes each argument and joins them with spaces. The remote
shell reads that line back. What has to hold is that it reads back the same
arguments and nothing else.

The lexer enters an argument at its opening quote and is meant to be outside
every quote again at the space after it. An embedded quote leaves the quoted
state for the three bytes that spell it, and `run_quote_body` carries the
induction across that detour: whatever the argument holds, the word in
progress grows by exactly its bytes, all of them quoted.

## Main definitions

* `quote`: One argument in single quotes.
* `build`: The command line of an argument list.

## Theorems

* `build_cancel`: Lines are told apart by their last arguments.
* `run_quote`: Reading a quoted argument appends it to the word in progress.
* `run_build`: Reading a built line completes every word but the last.
* `lex_build`: A built line is exactly its arguments' words.
* `parse_build`: A built line is one simple command.
* `lex_build_and`: Two built lines joined by `&&` are their words around the
  operator.
* `parse_build_and`: Two built lines joined by `&&` are two simple commands.
* `nulFree_build_iff`: A line holds a zero byte when an argument does.
* `launch_build`: A built line starts what its arguments say.
* `andList_build_iff`, `andList_build_and_iff`: A built line runs its command, or
  its two.
-/

namespace Bop

namespace Shellcmd

open Shell

/-- Wraps an argument in single quotes, spelling an embedded quote by closing
    the quotes, escaping it and opening them again. -/
def quote (s : Bytes) : Bytes := "'" ++ replaceByte 39 "'\\''" s ++ "'"

/-- Quotes each argument and joins them into one command line. -/
def build (args : List Bytes) : Bytes := join " " (args.map quote)

/-- Lines that differ in their last argument differ in its quoted text. -/
theorem build_cancel (args : List Bytes) (x y : Bytes)
    (h : build (args ++ [x]) = build (args ++ [y])) : quote x = quote y := by
  induction args with
  | nil => exact h
  | cons a args ih =>
      have hcons : ∀ z, build (a :: args ++ [z]) = quote a ++ " " ++ build (args ++ [z]) := by
        intro z
        rcases hmore : args ++ [z] with _ | ⟨b, more⟩
        · exact absurd (List.append_eq_nil_iff.mp hmore).2 (List.cons_ne_nil _ _)
        · rw [List.cons_append, hmore]
          rfl
      rw [hcons, hcons] at h
      exact ih (List.append_cancel_left h)

/-- The quoted text of an argument, read from inside the quotes. -/
theorem run_quote_body (s : Bytes) (hnul : NulFree s) (w : Word) (rest : Bytes) :
    run (.single w) (replaceByte 39 "'\\''" s ++ rest) =
      run (.single (w ++ quotedWord s)) rest := by
  induction s generalizing w with
  | nil => simp only [replaceByte, List.flatMap_nil, List.nil_append, quotedWord,
      List.map_nil, List.append_nil]
  | cons b s ih =>
      simp only [NulFree, List.mem_cons, not_or] at hnul
      have hsplit : replaceByte 39 "'\\''" (b :: s)
          = (if b = 39 then ("'\\''" : Bytes) else [b]) ++ replaceByte 39 "'\\''" s := by
        rw [replaceByte, List.flatMap_cons]
        rfl
      have hword : w ++ quotedWord (b :: s) = (w ++ [.lit true b]) ++ quotedWord s := by
        simp only [quotedWord, List.map_cons, List.append_assoc, List.cons_append,
          List.nil_append]
      rw [hsplit, hword, ← ih hnul.2, List.append_assoc]
      by_cases hb : b = 39
      · -- The quote closes, a backslash escapes one byte, and the quote reopens.
        have hesc : run (.single w) ("'\\''" : Bytes)
            = some ([], .single (w ++ [.lit true 39])) := rfl
        rw [if_pos hb, hb, run_append _ _ _ _ _ hesc]
        simp only [List.nil_append, Option.map_id']
      · rw [if_neg hb]
        exact run_single [b] (by simpa only [NulFree, List.mem_singleton] using hnul.1)
          (by simpa only [List.mem_singleton] using Ne.symm hb) w _

/-- Reading a quoted argument appends it to the word in progress. -/
theorem run_quote (s : Bytes) (hnul : NulFree s) (cur : Option Word) (rest : Bytes) :
    run (.plain cur) (quote s ++ rest) =
      run (.plain (some (cur.getD [] ++ quotedWord s))) rest := by
  have hopen : ∀ t, run (.plain cur) (("'" : Bytes) ++ t) = run (.single (cur.getD [])) t := by
    intro t
    exact run_cons_nil _ _ 39 t (by
      simp only [step, plainStep]
      rfl)
  have hclose : ∀ w t, run (.single w) (("'" : Bytes) ++ t) = run (.plain (some w)) t := by
    intro w t
    exact run_cons_nil _ _ 39 t rfl
  rw [quote, List.append_assoc, List.append_assoc, hopen, run_quote_body s hnul, hclose]

/-- Reading a built line completes every word but the last, which is still in
    progress at the end of it. -/
theorem run_build (args : List Bytes) (last : Bytes) (hnul : ∀ a ∈ args ++ [last], NulFree a)
    (rest : Bytes) :
    run (.plain none) (build (args ++ [last]) ++ rest) =
      (run (.plain (some (quotedWord last))) rest).map
        (fun r => (args.map (fun a => .word (quotedWord a)) ++ r.1, r.2)) := by
  induction args with
  | nil =>
      simp only [List.nil_append, build, List.map_cons, List.map_nil, join, Option.map_id']
      rw [run_quote last (hnul last (by simp only [List.nil_append, List.mem_singleton]))]
      rfl
  | cons a args ih =>
      have hne : ∃ b more, args ++ [last] = b :: more := by
        cases args with
        | nil => exact ⟨last, [], rfl⟩
        | cons b more => exact ⟨b, more ++ [last], rfl⟩
      rcases hne with ⟨b, more, hcons⟩
      have hjoin : build (a :: args ++ [last]) = quote a ++ " " ++ build (args ++ [last]) := by
        rw [build, List.cons_append, hcons, List.map_cons, List.map_cons, join_cons_cons, build,
          List.map_cons]
      have ha : NulFree a := hnul a (by simp only [List.cons_append, List.mem_cons, true_or])
      have hih := ih (fun x hx => hnul x (by
        rw [List.cons_append]
        exact List.mem_cons_of_mem a hx))
      -- The space flushes the argument, and the rest is read between words.
      have hspace : ∀ w t, run (.plain (some w)) ((" " : Bytes) ++ t)
          = (run (.plain none) t).map (fun r => (Token.word w :: r.1, r.2)) :=
        fun w t => run_blank (some w) t
      rw [hjoin, List.append_assoc, List.append_assoc, run_quote a ha, hspace, hih,
        Option.map_map]
      rfl

/-- A built line is exactly its arguments' words, every byte of them quoted. -/
theorem lex_build (args : List Bytes) (hne : args ≠ []) (hnul : ∀ a ∈ args, NulFree a) :
    lex (build args) = some (args.map (fun a => .word (quotedWord a))) := by
  rcases List.eq_nil_or_concat args with rfl | ⟨init, last, rfl⟩
  · exact absurd rfl hne
  · rw [List.concat_eq_append] at hnul ⊢
    have h := run_build init last hnul []
    rw [List.append_nil] at h
    simp only [lex, h, run, Option.map_some, finish, flush, List.append_nil, List.map_append,
      List.map_cons, List.map_nil]

/-- A built line is one simple command. -/
theorem parse_build (args : List Bytes) (hne : args ≠ []) (hnul : ∀ a ∈ args, NulFree a) :
    parse (build args) = some { first := quotedCommand args, rest := [] } := by
  have hseg := segments_words (args.map quotedWord) []
  rw [List.append_nil, List.map_map] at hseg
  simp only [parse, lex_build args hne hnul]
  rw [show (args.map fun a => Token.word (quotedWord a)) = args.map (Token.word ∘ quotedWord)
    from rfl]
  simp only [Option.bind_eq_bind, Option.bind_some, hseg, segments, Option.map_some,
    List.append_nil, simpleCommand_quoted args hne]
  rfl

/-- Two built lines joined by an unquoted `&&` are their words around it. -/
theorem lex_build_and (args args' : List Bytes) (hne : args ≠ []) (hne' : args' ≠ [])
    (hnul : ∀ a ∈ args, NulFree a) (hnul' : ∀ a ∈ args', NulFree a) :
    lex (build args ++ " && " ++ build args') =
      some (args.map (fun a => .word (quotedWord a)) ++
        .op "&&" :: args'.map (fun a => .word (quotedWord a))) := by
  rcases List.eq_nil_or_concat args with rfl | ⟨init, last, rfl⟩
  · exact absurd rfl hne
  rcases List.eq_nil_or_concat args' with rfl | ⟨init', last', rfl⟩
  · exact absurd rfl hne'
  rw [List.concat_eq_append] at hnul
  rw [List.concat_eq_append] at hnul'
  -- The space ends the last word, and the next space ends the operator.
  have hand : run (.plain (some (quotedWord last))) (" && " : Bytes)
      = some ([.word (quotedWord last), .op "&&"], .plain none) := rfl
  have hright := run_build init' last' hnul' []
  rw [List.append_nil] at hright
  have hleft := run_build init last hnul ((" && " : Bytes) ++ build (init' ++ [last']))
  rw [run_append _ _ _ _ _ hand, hright] at hleft
  simp only [List.concat_eq_append, List.append_assoc, lex, hleft, run, Option.map_some, finish,
    flush, List.append_nil, List.map_append, List.map_cons, List.map_nil, List.cons_append,
    List.nil_append]

/-- Two built lines joined by an unquoted `&&` are two simple commands. -/
theorem parse_build_and (args args' : List Bytes) (hne : args ≠ []) (hne' : args' ≠ [])
    (hnul : ∀ a ∈ args, NulFree a) (hnul' : ∀ a ∈ args', NulFree a) :
    parse (build args ++ " && " ++ build args') =
      some { first := quotedCommand args, rest := [("&&", quotedCommand args')] } := by
  have hright := segments_words (args'.map quotedWord) []
  have hleft := segments_words (args.map quotedWord)
    (.op "&&" :: ((args'.map quotedWord).map Token.word ++ []))
  rw [segments, if_pos (by decide), hright] at hleft
  simp only [segments, Option.map_some, List.append_nil, List.map_map] at hleft
  simp only [parse, lex_build_and args args' hne hne' hnul hnul']
  rw [show (args.map fun a => Token.word (quotedWord a)) = args.map (Token.word ∘ quotedWord)
    from rfl, show (args'.map fun a => Token.word (quotedWord a))
      = args'.map (Token.word ∘ quotedWord) from rfl]
  simp only [Option.bind_eq_bind, Option.bind_some, hleft, simpleCommand_quoted args hne,
    List.mapM_cons, List.mapM_nil, simpleCommand_quoted args' hne', Option.map_some]
  rfl

/-- Quoting neither adds a zero byte nor hides one. -/
theorem nulFree_quote_iff (s : Bytes) : NulFree (quote s) ↔ NulFree s := by
  have hbody : (0 : UInt8) ∈ replaceByte 39 "'\\''" s ↔ (0 : UInt8) ∈ s := by
    unfold replaceByte
    rw [List.mem_flatMap]
    constructor
    · rintro ⟨b, hb, h⟩
      by_cases hq : b = 39
      · rw [if_pos hq] at h
        exact absurd h (by decide)
      · rw [if_neg hq, List.mem_singleton] at h
        rwa [h]
    · intro h
      exact ⟨0, h, by simp⟩
  have hmark : (0 : UInt8) ∉ ("'" : Bytes) := by decide
  simp [NulFree, quote, List.mem_append, hbody, hmark]

/-- A line holds a zero byte when an argument does. -/
theorem nulFree_build_iff (args : List Bytes) :
    NulFree (build args) ↔ ∀ a ∈ args, NulFree a := by
  have hsep : NulFree " " := by
    unfold NulFree
    decide
  unfold build
  induction args with
  | nil => simp [join, NulFree]
  | cons a args ih =>
      cases args with
      | nil => simp [join, nulFree_quote_iff]
      | cons b args =>
          have hjoin : join " " ((a :: b :: args).map quote) =
              quote a ++ " " ++ join " " ((b :: args).map quote) := rfl
          rw [hjoin, nulFree_append, nulFree_append, nulFree_quote_iff, List.forall_mem_cons,
            and_assoc, iff_true_intro hsep, true_and]
          exact and_congr_right fun _ => ih

/-- A built line starts what its arguments say. -/
theorem launch_build (containerEnv : Bytes → Bytes → Bytes) (args : List Bytes) (hne : args ≠ [])
    (hnul : ∀ a ∈ args, NulFree a) :
    launch containerEnv (build args) = start containerEnv args :=
  launch_single containerEnv _ args ((nulFree_build_iff args).mpr hnul)
    (parse_build args hne hnul)

/-- A built line runs the command it was built from, unless it holds a zero byte. -/
theorem andList_build_iff (args : List Bytes) (hne : args ≠ []) (calls : List (List Bytes)) :
    andList (build args) = some calls ↔ (∀ a ∈ args, NulFree a) ∧ calls = [args] := by
  by_cases hnul : ∀ a ∈ args, NulFree a
  · rw [andList_quoted (build args) ((nulFree_build_iff args).mpr hnul) args []
      (parse_build args hne hnul), Option.some_inj, eq_comm]
    exact (and_iff_right hnul).symm
  · refine iff_of_false (fun h => hnul ((nulFree_build_iff args).mp ?_)) fun h => hnul h.1
    intro hzero
    rw [andList, if_pos hzero] at h
    cases h

/-- Two built lines joined by `&&` run one command and then the other. -/
theorem andList_build_and_iff (args args' : List Bytes) (hne : args ≠ []) (hne' : args' ≠ [])
    (calls : List (List Bytes)) :
    andList (build args ++ " && " ++ build args') = some calls ↔
      ((∀ a ∈ args, NulFree a) ∧ ∀ a ∈ args', NulFree a) ∧ calls = [args, args'] := by
  have hline : NulFree (build args ++ " && " ++ build args') ↔
      (∀ a ∈ args, NulFree a) ∧ ∀ a ∈ args', NulFree a := by
    have hand : NulFree " && " := by
      unfold NulFree
      decide
    rw [nulFree_append, nulFree_append, nulFree_build_iff, nulFree_build_iff,
      and_iff_left hand]
  by_cases hnul : NulFree (build args ++ " && " ++ build args')
  · rcases hline.mp hnul with ⟨hfirst, hsecond⟩
    rw [andList_quoted _ hnul args [args']
      (parse_build_and args args' hne hne' hfirst hsecond), Option.some_inj, eq_comm]
    exact (and_iff_right ⟨hfirst, hsecond⟩).symm
  · refine iff_of_false (fun h => hnul fun hzero => ?_) fun h => hnul (hline.mpr h.1)
    rw [andList, if_pos hzero] at h
    cases h

example : build ["tar", "czf", "-", "/some path"] = "'tar' 'czf' '-' '/some path'" := by decide

end Shellcmd

end Bop
