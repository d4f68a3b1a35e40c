import Bop.Shell.Lexer

/-!
# SQL Tokens

How a server cuts a statement into tokens, as far as keywords and quoted
identifiers go. A dialect is its identifier quote: double quotes in PostgreSQL,
backticks in MariaDB. Inside an identifier every byte is part of the name, and
a quote is written by doubling it. What is neither a word nor an identifier is
a token of its own, byte by byte, so a statement that says more than it should
has more tokens than it should.

It is a byte-driven machine. After a quote inside an identifier it does not
know yet whether the identifier has ended, which is a state of its own.

## Main definitions

* `SqlToken`, `SqlState`: The tokens, and where the lexer is.
* `sqlStep`, `sqlRun`, `sqlLex`: Reading a byte, a text and a whole statement.
* `double`: A name with its quotes doubled.

## Theorems

* `sqlRun_append`: A text is read part by part.
* `sqlRun_double`: Reading a doubled name collects the name.
* `sqlLex_identifier`: A quoted name is the last token, and it is the name.
-/

namespace Bop

namespace Sql

open Shell (isNameStart isNameByte)

/-- A token of a statement. -/
inductive SqlToken
  | word (w : Bytes)
  | identifier (name : Bytes)
  | other (b : UInt8)
  deriving DecidableEq

/-- Where the lexer is. -/
inductive SqlState
  | between
  | word (w : Bytes)
  | identifier (name : Bytes)
  /-- After a quote inside an identifier. -/
  | quote (name : Bytes)
  deriving DecidableEq

/-- White space between tokens. -/
def isSqlSpace (b : UInt8) : Bool := b = 32 ∨ (9 ≤ b ∧ b ≤ 13)

/-- A byte where a token may begin. -/
def sqlBegin (q b : UInt8) : List SqlToken × SqlState :=
  if isSqlSpace b then ([], .between)
  else if b = q then ([], .identifier [])
  else if isNameStart b then ([], .word [b])
  else ([.other b], .between)

/-- Reading one byte: the tokens it completes and the state after it. -/
def sqlStep (q : UInt8) : SqlState → UInt8 → List SqlToken × SqlState
  | .between, b => sqlBegin q b
  | .word w, b =>
      if isNameByte b then ([], .word (w ++ [b]))
      else (.word w :: (sqlBegin q b).1, (sqlBegin q b).2)
  | .identifier name, b =>
      if b = q then ([], .quote name) else ([], .identifier (name ++ [b]))
  | .quote name, b =>
      if b = q then ([], .identifier (name ++ [q]))
      else (.identifier name :: (sqlBegin q b).1, (sqlBegin q b).2)

/-- Reading a text from a state. -/
def sqlRun (q : UInt8) : SqlState → Bytes → List SqlToken × SqlState
  | st, [] => ([], st)
  | st, b :: rest =>
      ((sqlStep q st b).1 ++ (sqlRun q (sqlStep q st b).2 rest).1,
        (sqlRun q (sqlStep q st b).2 rest).2)

/-- The end of the statement. An identifier that is still open is an error. -/
def sqlFinish : SqlState → Option (List SqlToken)
  | .between => some []
  | .word w => some [.word w]
  | .identifier _ => none
  | .quote name => some [.identifier name]

/-- The tokens of a statement. -/
def sqlLex (q : UInt8) (sql : Bytes) : Option (List SqlToken) :=
  (sqlFinish (sqlRun q .between sql).2).map ((sqlRun q .between sql).1 ++ ·)

/-- A name with its quotes doubled. -/
def double (q : UInt8) (name : Bytes) : Bytes := replaceByte q [q, q] name

/-- A text is read part by part. -/
theorem sqlRun_append (q : UInt8) (s t : Bytes) (st : SqlState) :
    sqlRun q st (s ++ t) =
      ((sqlRun q st s).1 ++ (sqlRun q (sqlRun q st s).2 t).1,
        (sqlRun q (sqlRun q st s).2 t).2) := by
  induction s generalizing st with
  | nil => simp only [List.nil_append, sqlRun]
  | cons b s ih => simp only [List.cons_append, sqlRun, ih, List.append_assoc]

/-- Reading a doubled name collects the name. -/
theorem sqlRun_double (q : UInt8) (name acc : Bytes) :
    sqlRun q (.identifier acc) (double q name) = ([], .identifier (acc ++ name)) := by
  unfold double
  induction name generalizing acc with
  | nil => simp only [replaceByte, List.flatMap_nil, sqlRun, List.append_nil]
  | cons b name ih =>
      have hcons : replaceByte q [q, q] (b :: name) =
          (if b = q then [q, q] else [b]) ++ replaceByte q [q, q] name := by
        rw [replaceByte, List.flatMap_cons]
        rfl
      have hacc : acc ++ b :: name = (acc ++ [b]) ++ name := by
        rw [List.append_assoc, List.singleton_append]
      rw [hcons, hacc, sqlRun_append, ← ih (acc ++ [b])]
      by_cases hb : b = q
      · -- The first quote may end the identifier, and the second says it does not.
        subst hb
        simp only [if_true, sqlRun, sqlStep, List.append_nil, List.nil_append]
      · simp only [if_neg hb, sqlRun, sqlStep, List.append_nil, List.nil_append]

/-- A quoted name at the end of a statement is the last token, and it is the
    name, whatever bytes the name has. -/
theorem sqlLex_identifier (q : UInt8) (start name : Bytes) (tokens : List SqlToken)
    (hstart : sqlRun q .between start = (tokens, .between)) (hq : isSqlSpace q = false) :
    sqlLex q (start ++ (q :: double q name ++ [q])) = some (tokens ++ [.identifier name]) := by
  have hopen : sqlRun q .between (q :: double q name) = ([], .identifier name) := by
    simp only [sqlRun, sqlStep, sqlBegin, hq, Bool.false_eq_true, if_false, if_true,
      sqlRun_double, List.nil_append]
  have hclose : sqlRun q (.identifier name) [q] = ([], .quote name) := by
    simp only [sqlRun, sqlStep, if_true, List.append_nil]
  have hrun : sqlRun q .between (start ++ (q :: double q name ++ [q])) = (tokens, .quote name) := by
    rw [sqlRun_append, hstart, sqlRun_append]
    simp only [hopen, hclose, List.append_nil]
  rw [sqlLex, hrun]
  rfl

end Sql

end Bop
