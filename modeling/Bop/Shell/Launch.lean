import Bop.Shell.Command

/-!
# What a Command Line Starts

A command line of one simple command starts one program. Which one depends on
the wrappers in front of it: `docker exec` moves into a container, `env` sets
variables, and `sh -c` reads a line of its own, with the arguments after its
script as the positional parameters. `launch` takes the wrappers off in that
order and is left with the program, its arguments and the variables set for it.

Only words whose expansion is plain are expanded: quoted bytes, bytes that mean
nothing to a shell, variables between double quotes, and `"$@"` on its own. The
variables of a container are a parameter.

Commands joined by `&&` run one after the other as long as they succeed
(`andList`).

## Main definitions

* `Process`: A program about to run.
* `fields`: The arguments a word expands to.
* `dockerExec`, `envUtility`, `shScript`: The wrappers.
* `launch`: The program a command line starts.
* `andList`: The commands of a line that run one after the other.

## Theorems

* `launch_single`: A line of one quoted command starts what its arguments say.
* `nulFree_of_launch`: A line that starts something holds no zero byte.
* `andList_quoted`: Quoted commands are those of the line.
-/

namespace Bop

namespace Shell

/-- A program about to run: where, with which variables set, and what. -/
structure Process where
  container : Option Bytes
  env : List (Bytes × Bytes)
  argv : List Bytes
deriving DecidableEq, Repr

/-- The unquoted bytes nothing is done to: the bytes of a name and `+ , - . / : =`. -/
def isOrdinary (b : UInt8) : Bool :=
  isNameByte b ∨ b = 43 ∨ b = 44 ∨ b = 45 ∨ b = 46 ∨ b = 47 ∨ b = 58 ∨ b = 61

/-- What one piece of a word expands to. A parameter that is not a variable,
    or is open to field splitting, is not expanded here. -/
def pieceText (lookup : Bytes → Bytes) : Piece → Option Bytes
  | .lit true b => some [b]
  | .lit false b => if isOrdinary b then some [b] else none
  | .param true n => if n.head?.any isNameStart then some (lookup n) else none
  | .param false _ => none

/-- What a word expands to when it stands for one argument. -/
def text (lookup : Bytes → Bytes) (w : Word) : Option Bytes :=
  (w.mapM (pieceText lookup)).map List.flatten

/-- The arguments a word expands to. `"$@"` stands for all the positional
    parameters, and every other word for one argument. -/
def fields (lookup : Bytes → Bytes) (params : List Bytes) (w : Word) : Option (List Bytes) :=
  if w = [.param true "@"] then some params else (text lookup w).map (fun s => [s])

/-- A `NAME=value` argument, cut at the sign. -/
def splitAssignment (s : Bytes) : Bytes × Bytes :=
  (s.takeWhile (· ≠ 61), (s.dropWhile (· ≠ 61)).tail)

/-- The options of `docker exec`, and what follows them. -/
def dockerOptions : List Bytes → Option (List (Bytes × Bytes) × List Bytes)
  | [] => some ([], [])
  | opt :: rest =>
      if opt = "-i" then dockerOptions rest
      else if opt = "-e" then match rest with
        | [] => none
        | v :: rest => (dockerOptions rest).map (fun r => (splitAssignment v :: r.1, r.2))
      else if opt.head? = some 45 then none
      else some ([], opt :: rest)

@[simp] theorem dockerOptions_interactive (tail : List Bytes) :
    dockerOptions ("-i" :: tail) = dockerOptions tail := by
  rw [dockerOptions.eq_def]
  simp

@[simp] theorem dockerOptions_set (v : Bytes) (tail : List Bytes) :
    dockerOptions ("-e" :: v :: tail) =
      (dockerOptions tail).map (fun r => (splitAssignment v :: r.1, r.2)) := by
  have hne : ("-e" : Bytes) ≠ "-i" := by decide
  simp [dockerOptions, hne]

/-- `docker exec [-i] [-e NAME=value] container argv`. -/
def dockerExec (p : Process) : Option Process :=
  match p.argv with
  | docker :: sub :: rest =>
      if docker = "docker" ∧ sub = "exec" then match dockerOptions rest with
        | some (env, container :: argv) =>
            some { container := some container, env := p.env ++ env, argv := argv }
        | _ => none
      else some p
  | _ => some p

/-- `env NAME=value argv`. -/
def envUtility (p : Process) : Process :=
  match p.argv with
  | [] => p
  | utility :: rest =>
      if utility = "env" then
        { p with
          env := p.env ++ (rest.takeWhile ((61 : UInt8) ∈ ·)).map splitAssignment
          argv := rest.dropWhile ((61 : UInt8) ∈ ·) }
      else p

/-- `sh -c script name params`: the one simple command of the script, started
    in place of the shell if `exec` stands in front of it. -/
def shScript (lookup : Bytes → Bytes) (p : Process) : Option Process :=
  match p.argv with
  | sh :: opt :: script :: _ :: params =>
      if sh = "sh" ∧ opt = "-c" then do
        let line ← parse script
        let sets ← line.first.assignments.mapM (text lookup)
        let argv ← (line.first.words.mapM (fields lookup params)).map List.flatten
        if line.rest ≠ [] then none
        else some { p with
          env := p.env ++ sets.map splitAssignment
          argv := if argv.head? = some "exec" then argv.tail else argv }
      else some p
  | _ => some p

/-- The program that a command line's arguments start. -/
def start (containerEnv : Bytes → Bytes → Bytes) (argv : List Bytes) : Option Process :=
  (dockerExec { container := none, env := [], argv := argv }).bind fun p =>
  shScript (containerEnv (p.container.getD [])) (envUtility p)

/-- The program a command line starts, when it is one simple command whose words
    are all quoted. A line with a zero byte cannot be handed to a shell. -/
def launch (containerEnv : Bytes → Bytes → Bytes) (line : Bytes) : Option Process :=
  if (0 : UInt8) ∈ line then none
  else (parse line).bind fun c =>
    if c.rest ≠ [] then none else c.first.argv.bind (start containerEnv)

/-- A line that starts something holds no zero byte. -/
theorem nulFree_of_launch (containerEnv : Bytes → Bytes → Bytes) (line : Bytes) (p : Process)
    (h : launch containerEnv line = some p) : NulFree line := by
  unfold launch at h
  by_cases hnul : (0 : UInt8) ∈ line
  · simp [hnul] at h
  · exact hnul

/-- The arguments of the commands of a line, when all their words are quoted and each
    runs only after the one before it succeeded. -/
def andList (line : Bytes) : Option (List (List Bytes)) :=
  if (0 : UInt8) ∈ line then none
  else (parse line).bind fun c =>
    if c.rest.all (fun r => r.1 = "&&") then
      (c.first :: c.rest.map Prod.snd).mapM SimpleCommand.argv
    else none

/-- The commands of a line that are quoted are those with their arguments. -/
theorem andList_quoted (line : Bytes) (hnul : NulFree line) (first : List Bytes)
    (rest : List (List Bytes))
    (h : parse line = some
      { first := quotedCommand first, rest := rest.map fun args => ("&&", quotedCommand args) }) :
    andList line = some (first :: rest) := by
  have hargv : ∀ calls : List (List Bytes),
      (calls.map quotedCommand).mapM SimpleCommand.argv = some calls := by
    intro calls
    induction calls with
    | nil => rfl
    | cons args calls ih =>
        rw [List.map_cons, List.mapM_cons, argv_quoted, ih]
        rfl
  have hand : (rest.map fun args => (Bytes.ofString "&&", quotedCommand args)).all
      (fun r => r.1 = "&&") = true :=
    List.all_eq_true.mpr fun r hr => by
      rcases List.mem_map.mp hr with ⟨args, -, rfl⟩
      exact decide_eq_true rfl
  unfold andList
  rw [if_neg hnul, h, Option.bind_some, if_pos hand, List.map_map]
  exact hargv (first :: rest)

/-- A line of one quoted command starts what its arguments say. -/
theorem launch_single (containerEnv : Bytes → Bytes → Bytes) (line : Bytes) (args : List Bytes)
    (hnul : NulFree line)
    (h : parse line = some { first := quotedCommand args, rest := [] }) :
    launch containerEnv line = start containerEnv args := by
  unfold launch
  rw [if_neg hnul, h]
  simp [argv_quoted]

end Shell

end Bop
