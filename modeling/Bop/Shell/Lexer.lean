import Bop.Text.Bytes
import Mathlib.Tactic.SplitIfs

/-!
# POSIX Shell Tokens

How a POSIX shell cuts a command line into tokens, as a byte-driven machine.
The shell reads one byte at a time in one of a handful of quoting states, and
the state alone decides whether the byte is data or syntax. `step` is that
transition, `run` iterates it, and `lex` starts between tokens and demands an
end outside every quote.

A word is kept as pieces rather than as the bytes it will become. A piece
says whether its byte was quoted, because that is what the shell consults
later: an unquoted `*` is a pattern, an unquoted `~` at the front a home
directory, an unquoted `NAME=` an assignment, and the same bytes quoted are
only themselves. A word all of whose pieces are quoted literals is therefore
one the shell passes through unchanged, and `quotedWord` is its shape.

The machine stops, returning `none`, on an unterminated quote, on a NUL byte
and on a command substitution, whose inside it does not read. So a line it
accepts holds none of them.

## Main definitions

* `Piece`: One byte or one parameter expansion of a word.
* `Token`: A word, an operator or a comment.
* `LexState`: The quoting state between two bytes.
* `step`: Reading one byte.
* `run`: Reading a line from a given state.
* `lex`: The tokens of a whole line.
* `quotedWord`: The word that is these bytes and nothing else.

## Theorems

* `run_append`: Reading a concatenation is reading its halves in turn.
* `run_single`: Quoted text is taken as it stands, up to the closing quote.
* `run_variable`: A variable between double quotes ends at the closing quote.
-/

namespace Bop

namespace Shell

/-- A part of a word: a byte, with whether a quote made it literal, or the
    expansion of a parameter, with whether it stood inside double quotes. -/
inductive Piece
  | lit (quoted : Bool) (b : UInt8)
  | param (quoted : Bool) (name : Bytes)
deriving DecidableEq, Repr

/-- A word before expansion and quote removal. -/
abbrev Word := List Piece

/-- What the lexer hands the grammar. -/
inductive Token
  | word (w : Word)
  | op (o : Bytes)
  | comment (text : Bytes)
deriving DecidableEq, Repr

/-- The state between two bytes. `cur` is the word being read, absent between
    tokens; a word can be present and empty, as after `''`. -/
inductive LexState
  | plain (cur : Option Word)
  | escape (cur : Option Word)
  | single (w : Word)
  | double (w : Word)
  | doubleEscape (w : Word)
  | dollar (quoted : Bool) (w : Word)
  | name (quoted : Bool) (n : Bytes) (w : Word)
  | op (o : Bytes)
  | comment (text : Bytes)
deriving DecidableEq, Repr

/-- The token a word in progress becomes when it is cut off. -/
def flush : Option Word → List Token
  | none => []
  | some w => [.word w]

/-- Back inside or outside double quotes, with the word so far. -/
def resume (quoted : Bool) (w : Word) : LexState :=
  if quoted then .double w else .plain (some w)

/-- A space or a tab. -/
def isBlank (b : UInt8) : Bool := b = 32 ∨ b = 9

/-- The bytes an operator can begin with: `& | ; < > ( )` and newline. -/
def isOperator (b : UInt8) : Bool :=
  b = 38 ∨ b = 124 ∨ b = 59 ∨ b = 60 ∨ b = 62 ∨ b = 40 ∨ b = 41 ∨ b = 10

/-- Whether an operator read so far goes on with this byte: `&&`, `||`, `;;`,
    `<<`, `>>`, `<&`, `>&`, `<>`, `>|` and `<<-`. -/
def continues (o : Bytes) (b : UInt8) : Bool :=
  o ++ [b] ∈ ["&&", "||", ";;", "<<", ">>", "<&", ">&", "<>", ">|", "<<-"].map Bytes.ofString

/-- A letter or an underscore, which a parameter name begins with. -/
def isNameStart (b : UInt8) : Bool :=
  (65 ≤ b ∧ b ≤ 90) ∨ (97 ≤ b ∧ b ≤ 122) ∨ b = 95

/-- A byte of a parameter name after the first. -/
def isNameByte (b : UInt8) : Bool := isNameStart b ∨ (48 ≤ b ∧ b ≤ 57)

/-- The one-byte parameters: `@ * # ? - $ !` and the digits. -/
def isSpecialParam (b : UInt8) : Bool :=
  b = 64 ∨ b = 42 ∨ b = 35 ∨ b = 63 ∨ b = 45 ∨ b = 36 ∨ b = 33 ∨ (48 ≤ b ∧ b ≤ 57)

/-- A byte read outside every quote. -/
def plainStep (cur : Option Word) (b : UInt8) : Option (List Token × LexState) :=
  if b = 0 ∨ b = 96 then none
  else if isBlank b then some (flush cur, .plain none)
  else if isOperator b then some (flush cur, .op [b])
  else if b = 35 ∧ cur = none then some ([], .comment [])
  else if b = 39 then some ([], .single (cur.getD []))
  else if b = 34 then some ([], .double (cur.getD []))
  else if b = 92 then some ([], .escape cur)
  else if b = 36 then some ([], .dollar false (cur.getD []))
  else some ([], .plain (some (cur.getD [] ++ [.lit false b])))

/-- A byte read inside double quotes. -/
def doubleStep (w : Word) (b : UInt8) : Option (List Token × LexState) :=
  if b = 0 ∨ b = 96 then none
  else if b = 34 then some ([], .plain (some w))
  else if b = 92 then some ([], .doubleEscape w)
  else if b = 36 then some ([], .dollar true w)
  else some ([], .double (w ++ [.lit true b]))

/-- A byte read where a `$` or a name has just ended. -/
def resumeStep (quoted : Bool) (w : Word) (b : UInt8) : Option (List Token × LexState) :=
  if quoted then doubleStep w b else plainStep (some w) b

/-- Reading one byte: the tokens it completes and the state after it. -/
def step : LexState → UInt8 → Option (List Token × LexState)
  | .plain cur, b => plainStep cur b
  | .escape cur, b =>
      if b = 0 then none
      else if b = 10 then some ([], .plain cur)
      else some ([], .plain (some (cur.getD [] ++ [.lit true b])))
  | .single w, b =>
      if b = 0 then none
      else if b = 39 then some ([], .plain (some w))
      else some ([], .single (w ++ [.lit true b]))
  | .double w, b => doubleStep w b
  -- Inside double quotes a backslash is special before four bytes only.
  | .doubleEscape w, b =>
      if b = 0 then none
      else if b = 10 then some ([], .double w)
      else if b = 36 ∨ b = 96 ∨ b = 34 ∨ b = 92 then some ([], .double (w ++ [.lit true b]))
      else some ([], .double (w ++ [.lit true 92, .lit true b]))
  -- A dollar that no name follows is a dollar. Braces and parentheses are left out.
  | .dollar q w, b =>
      if isNameStart b then some ([], .name q [b] w)
      else if isSpecialParam b then some ([], resume q (w ++ [.param q [b]]))
      else if b = 123 ∨ b = 40 then none
      else resumeStep q (w ++ [.lit q 36]) b
  | .name q n w, b =>
      if isNameByte b then some ([], .name q (n ++ [b]) w)
      else resumeStep q (w ++ [.param q n]) b
  -- An operator is as long as it can be.
  | .op o, b =>
      if continues o b then some ([], .op (o ++ [b]))
      else (plainStep none b).map (fun r => (.op o :: r.1, r.2))
  | .comment text, b =>
      if b = 10 then some ([.comment text], .op [10])
      else some ([], .comment (text ++ [b]))

/-- The end of the line. -/
def finish : LexState → Option (List Token)
  | .plain cur => some (flush cur)
  | .escape cur => some (flush (some (cur.getD [] ++ [.lit false 92])))
  | .dollar false w => some [.word (w ++ [.lit false 36])]
  | .name false n w => some [.word (w ++ [.param false n])]
  | .op o => some [.op o]
  | .comment text => some [.comment text]
  | .single _ | .double _ | .doubleEscape _ | .dollar true _ | .name true _ _ => none

/-- Reading a line from a given state. -/
def run : LexState → Bytes → Option (List Token × LexState)
  | st, [] => some ([], st)
  | st, b :: rest => match step st b with
    | none => none
    | some (done, st') => (run st' rest).map (fun r => (done ++ r.1, r.2))

/-- The tokens of a whole line. -/
def lex (line : Bytes) : Option (List Token) :=
  match run (.plain none) line with
  | none => none
  | some (done, st) => (finish st).map (fun last => done ++ last)

/-- The word that is these bytes, each of them quoted. -/
def quotedWord (s : Bytes) : Word := s.map (.lit true)

/-- Reading one byte and then the rest. -/
theorem run_cons (st st' : LexState) (b : UInt8) (rest : Bytes) (done : List Token)
    (h : step st b = some (done, st')) :
    run st (b :: rest) = (run st' rest).map (fun r => (done ++ r.1, r.2)) := by
  simp only [run, h]

/-- Reading one byte that completes no token. -/
theorem run_cons_nil (st st' : LexState) (b : UInt8) (rest : Bytes)
    (h : step st b = some ([], st')) : run st (b :: rest) = run st' rest := by
  rw [run_cons st st' b rest [] h]
  simp only [List.nil_append, Option.map_id']

/-- Reading a concatenation is reading its halves in turn. -/
theorem run_append (st st' : LexState) (s t : Bytes) (done : List Token)
    (h : run st s = some (done, st')) :
    run st (s ++ t) = (run st' t).map (fun r => (done ++ r.1, r.2)) := by
  induction s generalizing st done with
  | nil =>
      simp only [run, Option.some.injEq, Prod.mk.injEq] at h
      rw [← h.1, ← h.2]
      simp only [List.nil_append, Option.map_id']
  | cons b rest ih =>
      rw [run] at h
      cases hstep : step st b with
      | none =>
          rw [hstep] at h
          exact absurd h (by simp only [reduceCtorEq, not_false_eq_true])
      | some r =>
          rw [hstep, Option.map_eq_some_iff] at h
          rcases h with ⟨r', hrun, heq⟩
          simp only [Prod.mk.injEq] at heq
          rw [List.cons_append, run_cons st r.2 b (rest ++ t) r.1 hstep,
            ih r.2 r'.1 (by rw [hrun, ← heq.2]), Option.map_map, ← heq.1]
          simp only [Function.comp_def, List.append_assoc]

/-- Inside single quotes every byte but the quote itself is data. -/
theorem run_single (s : Bytes) (hnul : NulFree s) (hq : (39 : UInt8) ∉ s) (w : Word)
    (rest : Bytes) :
    run (.single w) (s ++ rest) = run (.single (w ++ quotedWord s)) rest := by
  induction s generalizing w with
  | nil => simp only [quotedWord, List.map_nil, List.append_nil, List.nil_append]
  | cons b s ih =>
      simp only [NulFree, List.mem_cons, not_or] at hnul hq
      have hstep : step (.single w) b = some ([], .single (w ++ [.lit true b])) := by
        simp only [step, if_neg (Ne.symm hnul.1), if_neg (Ne.symm hq.1)]
      rw [List.cons_append, run_cons_nil _ _ _ _ hstep, ih hnul.2 hq.2]
      simp only [quotedWord, List.map_cons, List.append_assoc, List.cons_append, List.nil_append]

/-- The bytes of a name join the name being read. -/
theorem run_nameBytes (q : Bool) (s : Bytes) (hs : s.all isNameByte = true) (n : Bytes) (w : Word)
    (rest : Bytes) : run (.name q n w) (s ++ rest) = run (.name q (n ++ s) w) rest := by
  induction s generalizing n with
  | nil => simp
  | cons b s ih =>
      simp only [List.all_cons, Bool.and_eq_true] at hs
      have hstep : step (.name q n w) b = some ([], .name q (n ++ [b]) w) := by
        simp [step, hs.1]
      rw [List.cons_append, run_cons_nil _ _ _ _ hstep, ih hs.2]
      simp

/-- A variable between double quotes ends at the closing quote. -/
theorem run_variable (b : UInt8) (n : Bytes) (hb : isNameStart b = true)
    (hn : n.all isNameByte = true) (w : Word) (rest : Bytes) :
    run (.dollar true w) (b :: n ++ 34 :: rest) =
      run (.plain (some (w ++ [.param true (b :: n)]))) rest := by
  have hopen : step (.dollar true w) b = some ([], .name true [b] w) := by
    simp [step, hb]
  rw [List.cons_append, run_cons_nil _ _ _ _ hopen, run_nameBytes true n hn]
  exact run_cons_nil _ _ 34 rest rfl

/-- A blank between two words ends the first. -/
theorem run_blank (cur : Option Word) (rest : Bytes) :
    run (.plain cur) (32 :: rest) =
      (run (.plain none) rest).map (fun r => (flush cur ++ r.1, r.2)) :=
  run_cons _ _ _ _ _ (by
    show plainStep cur 32 = _
    simp only [plainStep, isBlank]
    rfl)

example : lex "a 'b c'\"$X\"\\d # e" = some [.word [.lit false 97],
    .word [.lit true 98, .lit true 32, .lit true 99, .param true [88], .lit true 100],
    .comment " e"] := by decide

end Shell

end Bop
