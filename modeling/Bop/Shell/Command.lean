import Bop.Shell.Lexer
import Mathlib.Data.List.Forall2
import Mathlib.Tactic.SplitIfs

/-!
# POSIX Shell Commands

The grammar above the tokens, as far as a line of simple commands needs it.
The tokens are cut at the control operators, each stretch of words between
two of them is a simple command, and its leading `NAME=value` words are
assignments rather than arguments.

Redirections, subshells and compound commands are outside this fragment, and
`parse` refuses a line that has one. So when it does return a list of
commands, those commands are all the line says.

A word is `verbatim` when every piece of it is a quoted byte. No expansion
applies to such a word: not a parameter's, a home directory's or a file name
pattern's, and field splitting does not cut it either. Its argument is its
bytes.

## Main definitions

* `SimpleCommand`: Assignments and words.
* `CommandList`: Simple commands joined by control operators.
* `segments`: Cutting tokens at the control operators.
* `parse`: The commands of a line.
* `verbatim`: The argument a fully quoted word stands for.
* `SimpleCommand.argv`: The arguments of a fully quoted simple command.

## Theorems

* `verbatim_quotedWord`: A quoted word stands for its own bytes.
* `argv_quoted`: Quoted words are the arguments they quote.
* `simpleCommand_quoted`: Quoted words make a simple command, none of them an
  assignment or a reserved word.
* `segments_words`: Tokens without an operator are one stretch of words.
-/

namespace Bop

namespace Shell

/-- A simple command: the assignments in front and the words after them. -/
structure SimpleCommand where
  assignments : List Word
  words : List Word
deriving DecidableEq, Repr

/-- Simple commands, each after the first behind the operator that joins it. -/
structure CommandList where
  first : SimpleCommand
  rest : List (Bytes × SimpleCommand)
deriving DecidableEq, Repr

/-- The operators that join one simple command to the next. -/
def isControl (o : Bytes) : Bool := o ∈ ["&&", "||", ";", "&", "\n"].map Bytes.ofString

/-- The words the grammar reads as keywords when no piece of them is quoted. -/
def reservedWords : List Bytes :=
  ["!", "\x7b", "\x7d", "case", "do", "done", "elif", "else", "esac", "fi", "for", "if", "in",
    "then", "until", "while"].map Bytes.ofString

/-- A reserved word: unquoted bytes that spell a keyword. -/
def isReserved (w : Word) : Bool := w ∈ reservedWords.map (List.map (.lit false))

/-- The unquoted bytes a word begins with. -/
def barePart : Word → Bytes
  | .lit false b :: w => b :: barePart w
  | _ => []

/-- An assignment: an unquoted name and an unquoted `=` in front. -/
def isAssignment (w : Word) : Bool :=
  match (barePart w).span (· ≠ 61) with
  | (b :: n, 61 :: _) => isNameStart b && n.all isNameByte
  | _ => false

/-- The words up to the first control operator, and the stretches after it. -/
def segments : List Token → Option (List Word × List (Bytes × List Word))
  | [] => some ([], [])
  | .comment _ :: ts => segments ts
  | .word w :: ts => (segments ts).map (fun r => (w :: r.1, r.2))
  | .op o :: ts =>
      if isControl o then (segments ts).map (fun r => ([], (o, r.1) :: r.2)) else none

/-- A stretch of words as a simple command. -/
def simpleCommand (ws : List Word) : Option SimpleCommand :=
  let words := ws.dropWhile isAssignment
  if ws = [] ∨ words.head?.any isReserved then none
  else some { assignments := ws.takeWhile isAssignment, words := words }

/-- The simple commands of a line. -/
def parse (line : Bytes) : Option CommandList := do
  let tokens ← lex line
  let (ws, more) ← segments tokens
  let first ← simpleCommand ws
  let rest ← more.mapM (fun s => (simpleCommand s.2).map (fun c => (s.1, c)))
  pure { first := first, rest := rest }

/-- The argument a word stands for when all of it is quoted. -/
def verbatim : Word → Option Bytes
  | [] => some []
  | .lit true b :: w => (verbatim w).map (b :: ·)
  | _ => none

/-- The arguments of a simple command whose words are all quoted. -/
def SimpleCommand.argv (c : SimpleCommand) : Option (List Bytes) :=
  if c.assignments = [] then c.words.mapM verbatim else none

/-- The simple command with these arguments and nothing else. -/
def quotedCommand (args : List Bytes) : SimpleCommand :=
  { assignments := [], words := args.map quotedWord }

theorem verbatim_quotedWord (s : Bytes) : verbatim (quotedWord s) = some s := by
  induction s with
  | nil => rfl
  | cons b s ih =>
      rw [quotedWord, List.map_cons, verbatim, ← quotedWord, ih]
      rfl

/-- Quoted words are the arguments they quote. -/
theorem argv_quoted (args : List Bytes) : (quotedCommand args).argv = some args := by
  rw [SimpleCommand.argv, quotedCommand, if_pos rfl]
  induction args with
  | nil => rfl
  | cons a args ih =>
      rw [List.map_cons, List.mapM_cons, verbatim_quotedWord, ih]
      rfl

/-- Quoting the first byte is enough to keep a word from being an
    assignment, and an empty word names nothing. -/
theorem isAssignment_quotedWord (s : Bytes) : isAssignment (quotedWord s) = false := by
  cases s <;> rfl

/-- A quoted word is never a keyword. -/
theorem isReserved_quotedWord (s : Bytes) : isReserved (quotedWord s) = false := by
  rw [isReserved, decide_eq_false_iff_not, List.mem_map]
  rintro ⟨r, hr, hw⟩
  cases s with
  | nil =>
      -- No keyword is empty.
      have hnil : r = [] := by
        simpa only [quotedWord, List.map_nil, List.map_eq_nil_iff] using hw
      rw [hnil] at hr
      exact absurd hr (by decide)
  | cons b s =>
      cases r with
      | nil => simp only [quotedWord, List.map_nil, List.map_cons, reduceCtorEq] at hw
      | cons c r =>
          simp only [quotedWord, List.map_cons, List.cons.injEq, Piece.lit.injEq,
            Bool.false_eq_true, false_and] at hw

/-- Quoted words make a simple command that is only those words. -/
theorem simpleCommand_quoted (args : List Bytes) (hne : args ≠ []) :
    simpleCommand (args.map quotedWord) = some (quotedCommand args) := by
  rcases List.exists_cons_of_ne_nil hne with ⟨a, rest, rfl⟩
  have hdrop : ((a :: rest).map quotedWord).dropWhile isAssignment
      = (a :: rest).map quotedWord := by
    rw [List.map_cons, List.dropWhile_cons_of_neg]
    rw [isAssignment_quotedWord]
    exact Bool.false_ne_true
  have htake : ((a :: rest).map quotedWord).takeWhile isAssignment = [] := by
    rw [List.map_cons, List.takeWhile_cons_of_neg]
    rw [isAssignment_quotedWord]
    exact Bool.false_ne_true
  simp only [simpleCommand, hdrop, htake]
  rw [if_neg]
  · rfl
  · simp only [List.map_cons, reduceCtorEq, List.head?_cons, Option.any_some,
      isReserved_quotedWord, Bool.false_eq_true, or_self, not_false_eq_true]

/-- Words in front of a stretch join it. -/
theorem segments_words (ws : List Word) (ts : List Token) :
    segments (ws.map .word ++ ts) = (segments ts).map (fun r => (ws ++ r.1, r.2)) := by
  induction ws with
  | nil => simp only [List.map_nil, List.nil_append, Option.map_id']
  | cons w ws ih =>
      rw [List.map_cons, List.cons_append, segments, ih, Option.map_map]
      rfl

end Shell

end Bop
