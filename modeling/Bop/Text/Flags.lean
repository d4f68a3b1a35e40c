import Bop.Text.Bytes

/-!
# Options among Arguments

How a program that takes its options in the GNU style reads the arguments it
is run with. Options and operands may be mixed. A long option has its value
behind an equals sign or as the next argument, a letter has it attached, behind
an equals sign or as the next argument, and an option that may stand alone
takes no argument after it. Behind two hyphens everything is an operand.

Which options there are, which of them may stand alone and which values they
accept is a table. A list with an option that is not in it is refused as a
whole.

Arguments are read one after the other, so a list whose last option is complete
can be followed by any other: what is read of the two together is what is read
of the one and then of the other.

## Main definitions

* `FlagTable`: The options of a program.
* `Given`: What a list of arguments says.
* `Arg`: What an argument looks like.
* `FlagTable.scan`, `FlagTable.parse`: Reading a list.
* `Given.values`, `Given.last`: The values an option has, and the one that
  counts where only one can.

## Theorems

* `scan_append`, `scan_after`: Reading goes on where it stopped.
* `parse_append`: A list behind a complete one.
* `scan_valued`, `scan_alone`, `scan_operand`: Reading one option or operand.
-/

namespace Bop

/-- The options of a program, by their long names. -/
structure FlagTable where
  /-- The options there are, each with the value it has where it stands alone,
      if it may. -/
  entry : Bytes → Option (Option Bytes)
  /-- The option a letter stands for. -/
  short : UInt8 → Option Bytes
  /-- The values an option accepts. -/
  accepts : Bytes → Bytes → Bool

/-- What a list of arguments says: its options with their values, and its
    operands. -/
structure Given where
  flags : List (Bytes × Bytes)
  operands : List Bytes
deriving DecidableEq

namespace Given

/-- Nothing. -/
def empty : Given := ⟨[], []⟩

/-- What is said by one list and then by another. -/
def append (g h : Given) : Given := ⟨g.flags ++ h.flags, g.operands ++ h.operands⟩

/-- The values an option is given. -/
def values (g : Given) (name : Bytes) : List Bytes :=
  (g.flags.filter (fun kv => kv.1 = name)).map Prod.snd

/-- The last of them, which counts where an option has one value. -/
def last (g : Given) (name : Bytes) : Option Bytes := (g.values name).getLast?

@[simp] theorem values_append (g h : Given) (name : Bytes) :
    (g.append h).values name = g.values name ++ h.values name := by
  simp only [values, append, List.filter_append, List.map_append]

@[simp] theorem last_append (g h : Given) (name : Bytes) :
    (g.append h).last name = (h.last name).or (g.last name) := by
  simp only [last, values_append, List.getLast?_append]

theorem append_assoc (g h k : Given) : (g.append h).append k = g.append (h.append k) := by
  simp only [append, List.append_assoc]

theorem append_empty (g : Given) : g.append empty = g := by
  simp only [append, empty, List.append_nil]

/-- An option that is not given has no value. -/
theorem values_eq_nil (g : Given) (name : Bytes) (h : ∀ kv ∈ g.flags, kv.1 ≠ name) :
    g.values name = [] := by
  have hnone : g.flags.filter (fun kv => kv.1 = name) = [] :=
    List.filter_eq_nil_iff.mpr fun kv hkv heq => h kv hkv (of_decide_eq_true heq)
  rw [values, hnone, List.map_nil]

/-- An option that is given once has one value, where every option is. -/
theorem values_eq_singleton (g : Given) (hnodup : (g.flags.map Prod.fst).Nodup)
    (name value : Bytes) (h : (name, value) ∈ g.flags) : g.values name = [value] := by
  rcases g with ⟨flags, operands⟩
  change (flags.filter _).map _ = _
  change (flags.map Prod.fst).Nodup at hnodup
  induction flags with
  | nil => cases h
  | cons kv flags ih =>
      rw [List.map_cons, List.nodup_cons] at hnodup
      rcases List.mem_cons.mp h with rfl | h
      · have hrest : flags.filter (fun kv => kv.1 = name) = [] :=
          List.filter_eq_nil_iff.mpr fun kv hkv heq =>
            hnodup.1 (List.mem_map.mpr ⟨kv, hkv, of_decide_eq_true heq⟩)
        rw [List.filter_cons, if_pos (decide_eq_true rfl), hrest, List.map_singleton]
      · have hne : kv.1 ≠ name := fun heq => hnodup.1 (List.mem_map.mpr ⟨_, h, heq.symm⟩)
        rw [List.filter_cons_of_neg (by simpa using hne), ih h hnodup.2]

end Given

/-- What an argument looks like. -/
inductive Arg
  | operand
  | ending
  | long (name : Bytes) (value : Option Bytes)
  | letters (body : Bytes)
  | malformed
deriving DecidableEq

/-- Hyphens make an option, but for one that stands alone. -/
def Arg.of : Bytes → Arg
  | 45 :: 45 :: body =>
      if body = [] then .ending
      else if body.head? = some 45 ∨ body.head? = some 61 then .malformed
      else .long (45 :: 45 :: body.takeWhile (· ≠ 61))
        (if 61 ∈ body then some (body.dropWhile (· ≠ 61)).tail else none)
  | 45 :: b :: body => .letters (b :: body)
  | _ => .operand

theorem Arg.of_operand (arg : Bytes) (h : arg.head? ≠ some 45) : Arg.of arg = .operand := by
  unfold Arg.of
  split
  · exact absurd rfl h
  · exact absurd rfl h
  · rfl

/-- How far a list is read: what it says so far, the option that waits for its
    value, and whether only operands follow. -/
structure ArgScan where
  given : Given
  wants : Option Bytes
  ended : Bool
deriving DecidableEq

/-- Reading on behind what is given. -/
abbrev ArgScan.onward (given : Given) : ArgScan := ⟨given, none, false⟩

/-- The same behind what was said before. -/
def ArgScan.after (g : Given) (s : ArgScan) : ArgScan := { s with given := g.append s.given }

namespace FlagTable

variable (t : FlagTable)

/-- The options of letters that stand together, and the one that waits for its
    value. -/
def letters : Bytes → Option (List (Bytes × Bytes) × Option Bytes)
  | [] => some ([], none)
  | b :: rest =>
      (t.short b).bind fun name => (t.entry name).bind fun alone =>
      match rest, alone with
      | 61 :: c :: value, _ => some ([(name, c :: value)], none)
      | _, some value => (letters rest).map fun r => ((name, value) :: r.1, r.2)
      | [], none => some ([], some name)
      | c :: value, none => some ([(name, c :: value)], none)

/-- The options an argument gives, and the one that waits for its value. -/
def flagsOf : Arg → Option (List (Bytes × Bytes) × Option Bytes)
  | .long name value => (t.entry name).map fun alone =>
      match value, alone with
      | some v, _ => ([(name, v)], none)
      | none, some v => ([(name, v)], none)
      | none, none => ([], some name)
  | .letters body => t.letters body
  | _ => none

/-- One more argument. -/
def read (s : ArgScan) (arg : Bytes) : Option ArgScan :=
  if s.ended = true then some { s with given := s.given.append ⟨[], [arg]⟩ }
  else match s.wants with
    | some name =>
        if t.accepts name arg = true then
          some { s with given := s.given.append ⟨[(name, arg)], []⟩, wants := none }
        else none
    | none => match Arg.of arg with
      | .operand => some { s with given := s.given.append ⟨[], [arg]⟩ }
      | .ending => some { s with ended := true }
      | a => (t.flagsOf a).bind fun r =>
          if r.1.all (fun kv => t.accepts kv.1 kv.2) then
            some { s with given := s.given.append ⟨r.1, []⟩, wants := r.2 }
          else none

/-- Some arguments more. -/
def scan (s : ArgScan) : List Bytes → Option ArgScan
  | [] => some s
  | arg :: rest => (t.read s arg).bind fun s => scan s rest

/-- What a list of arguments says, if the program takes it. -/
def parse (args : List Bytes) : Option Given :=
  (t.scan (ArgScan.onward .empty) args).bind fun s => if s.wants = none then some s.given else none

/-- The option takes this value, and has to be given one. -/
def Takes (name value : Bytes) : Prop := t.entry name = some none ∧ t.accepts name value = true

/-- The option may stand alone and then has this value. -/
def StandsFor (name value : Bytes) : Prop :=
  t.entry name = some (some value) ∧ t.accepts name value = true

variable {t}

/-- Reading goes on where it stopped. -/
theorem scan_append (s : ArgScan) (as bs : List Bytes) :
    t.scan s (as ++ bs) = (t.scan s as).bind fun s => t.scan s bs := by
  induction as generalizing s with
  | nil => rfl
  | cons arg as ih =>
      simp only [List.cons_append, scan, Option.bind_assoc]
      exact congrArg _ (funext fun s => ih s)

/-- What was said before is kept in front. -/
theorem read_after (g : Given) (s : ArgScan) (arg : Bytes) :
    t.read (s.after g) arg = (t.read s arg).map (ArgScan.after g) := by
  unfold read
  by_cases hended : s.ended = true
  · rw [if_pos hended, if_pos (show (s.after g).ended = true from hended), Option.map_some]
    simp only [ArgScan.after, Given.append_assoc]
  · rw [if_neg hended, if_neg (show ¬ (s.after g).ended = true from hended)]
    -- The argument is a value or an argument of its own, whatever came before.
    rcases hwants : s.wants with _ | name
    · simp only [ArgScan.after, hwants]
      cases Arg.of arg with
      | operand => simp only [Option.map_some, ArgScan.after, Given.append_assoc]
      | ending => rfl
      | _ =>
          simp only [Option.map_bind]
          refine congrArg _ (funext fun r => ?_)
          simp only [Function.comp_apply]
          split
          · simp only [Option.map_some, ArgScan.after, Given.append_assoc]
          · rfl
    · simp only [ArgScan.after, hwants]
      split
      · simp only [Option.map_some, ArgScan.after, Given.append_assoc]
      · rfl

theorem scan_after (g : Given) (s : ArgScan) (args : List Bytes) :
    t.scan (s.after g) args = (t.scan s args).map (ArgScan.after g) := by
  induction args generalizing s with
  | nil => rfl
  | cons arg args ih =>
      simp only [scan, read_after, Option.bind_map, Option.map_bind]
      exact congrArg _ (funext fun s => ih s)

/-- A list behind a complete one says what it says on its own, and is refused
    where it is refused on its own. -/
theorem parse_append (as bs : List Bytes) (g : Given)
    (h : t.scan (ArgScan.onward .empty) as = some (ArgScan.onward g)) :
    t.parse (as ++ bs) = (t.parse bs).map g.append := by
  have hstart : (ArgScan.onward .empty).after g = ArgScan.onward g := by
    simp only [ArgScan.after, Given.append_empty]
  rw [parse, scan_append, h, Option.bind_some, ← hstart, scan_after, parse]
  cases t.scan (ArgScan.onward .empty) bs with
  | none => rfl
  | some s =>
      simp only [Option.map_some, Option.bind_some, ArgScan.after]
      split <;> rfl

/-- An option and the argument with its value. -/
theorem scan_valued (g : Given) (name value : Bytes) (rest : List Bytes)
    (hname : Arg.of name = .long name none) (h : t.Takes name value) :
    t.scan (ArgScan.onward g) (name :: value :: rest) =
      t.scan (ArgScan.onward (g.append ⟨[(name, value)], []⟩)) rest := by
  have hwaits : t.read (ArgScan.onward g) name = some ⟨g, some name, false⟩ := by
    simp only [read, Bool.false_eq_true, if_false, hname, flagsOf, h.1, Option.map_some,
      Option.bind_some, List.all_nil, if_true]
    exact congrArg some (by rw [show g.append ⟨[], []⟩ = g from g.append_empty])
  have hgiven : t.read ⟨g, some name, false⟩ value =
      some (ArgScan.onward (g.append ⟨[(name, value)], []⟩)) := by
    simp only [read, Bool.false_eq_true, if_false, h.2, if_true]
  rw [scan, hwaits, Option.bind_some, scan, hgiven, Option.bind_some]

/-- An option that stands alone. -/
theorem scan_alone (g : Given) (name value : Bytes) (rest : List Bytes)
    (hname : Arg.of name = .long name none) (h : t.StandsFor name value) :
    t.scan (ArgScan.onward g) (name :: rest) =
      t.scan (ArgScan.onward (g.append ⟨[(name, value)], []⟩)) rest := by
  have hgiven : t.read (ArgScan.onward g) name =
      some (ArgScan.onward (g.append ⟨[(name, value)], []⟩)) := by
    simp only [read, Bool.false_eq_true, if_false, hname, flagsOf, h.1, Option.map_some,
      Option.bind_some, List.all_cons, List.all_nil, h.2, Bool.and_self, if_true]
  rw [scan, hgiven, Option.bind_some]

/-- An argument that is no option. -/
theorem scan_operand (g : Given) (arg : Bytes) (rest : List Bytes) (harg : arg.head? ≠ some 45) :
    t.scan (ArgScan.onward g) (arg :: rest) =
      t.scan (ArgScan.onward (g.append ⟨[], [arg]⟩)) rest := by
  have hgiven : t.read (ArgScan.onward g) arg = some (ArgScan.onward (g.append ⟨[], [arg]⟩)) := by
    simp only [read, Bool.false_eq_true, if_false, Arg.of_operand arg harg]
  rw [scan, hgiven, Option.bind_some]

end FlagTable

end Bop
