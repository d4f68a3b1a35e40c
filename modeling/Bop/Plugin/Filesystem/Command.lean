import Bop.Plugin.Filesystem.Config
import Bop.Plugin.Shellcmd
import Bop.Text.Path

/-!
# Filesystem Commands

The remote command lines of the filesystem plugin. Extraction is the one line
that is not a single `build`: the target has to exist before `tar` can change
into it, so a `mkdir` is put in front, joined by an `&&` the shell must read
as an operator. Everything else on either side of it is quoted.

## Main definitions

* `tarCommand`: Archives a directory from within its parent.
* `untarCommand`: Extracts an archive into a directory it creates.
* `removeCommand`: Deletes a directory and what is below it.

## Theorems

* `shell_round_trip`: A shell reads back exactly the arguments a line was
  built from, and exactly the two commands of an extraction.
-/

namespace Bop

namespace Filesystem

open Shell Shellcmd

/-- The directory `tar` changes into, and the operand it archives there. -/
def tarOperand (sourcePath : Bytes) : Bytes × Bytes :=
  let s := Paths.split (trimSuffix sourcePath "/")
  (if s.1 = [] then "." else s.1, s.2)

/-- The arguments of the command that archives `sourcePath`. -/
def tarArgs (cfg : Config) (sourcePath : Bytes) : List Bytes :=
  (["tar", "czf", "-", "-C", (tarOperand sourcePath).1] : List Bytes) ++
    (cfg.excludes.getD []).map (("--exclude=" : Bytes) ++ ·) ++ [(tarOperand sourcePath).2]

/-- The command that archives `sourcePath` to standard output. -/
def tarCommand (cfg : Config) (sourcePath : Bytes) : Bytes := build (tarArgs cfg sourcePath)

/-- The command that extracts the archive on standard input into
    `targetPath`, without the archive's top-level entry. -/
def untarCommand (targetPath : Bytes) : Bytes :=
  let mkdir := build ["mkdir", "-p", targetPath]
  let extract := build ["tar", "xzf", "-", "-C", targetPath, "--strip-components=1"]
  mkdir ++ " && " ++ extract

/-- The command that deletes `targetPath` recursively. -/
def removeCommand (targetPath : Bytes) : Bytes := build ["rm", "-rf", targetPath]

/-- The literal arguments around a path hold no zero byte. -/
theorem nulFree_args (before after : List Bytes) (targetPath : Bytes)
    (hlit : ∀ a ∈ before ++ after, NulFree a) (ht : NulFree targetPath) :
    ∀ a ∈ before ++ targetPath :: after, NulFree a := by
  intro a ha
  rw [List.mem_append, List.mem_cons] at ha
  rcases ha with hb | rfl | ha
  · exact hlit a (List.mem_append_left after hb)
  · exact ht
  · exact hlit a (List.mem_append_right before ha)

/-- A shell that reads a built line sees one simple command with exactly the
    arguments it was built from: every token is a word and every byte of it is
    quoted. An extraction line is read as the two commands it is made of. -/
theorem shell_round_trip :
    (∀ args : List Bytes, args ≠ [] → (∀ a ∈ args, NulFree a) →
      lex (build args) = some (args.map (fun a => .word (quotedWord a))) ∧
      ∃ c, parse (build args) = some { first := c, rest := [] } ∧ c.assignments = [] ∧
        c.argv = some args) ∧
    (∀ targetPath : Bytes, NulFree targetPath →
      ∃ mkdir extract,
        parse (untarCommand targetPath) = some { first := mkdir, rest := [("&&", extract)] } ∧
        mkdir.argv = some (["mkdir", "-p", targetPath] : List Bytes) ∧
        extract.argv =
          some (["tar", "xzf", "-", "-C", targetPath, "--strip-components=1"] : List Bytes)) := by
  refine ⟨fun args hne hnul => ⟨lex_build args hne hnul, quotedCommand args,
    parse_build args hne hnul, rfl, argv_quoted args⟩, fun targetPath ht => ?_⟩
  have hmkdir := nulFree_args ["mkdir", "-p"] [] targetPath (by
    unfold NulFree
    decide) ht
  have hextract := nulFree_args ["tar", "xzf", "-", "-C"] ["--strip-components=1"] targetPath (by
    unfold NulFree
    decide) ht
  refine ⟨quotedCommand ["mkdir", "-p", targetPath],
    quotedCommand ["tar", "xzf", "-", "-C", targetPath, "--strip-components=1"], ?_,
    argv_quoted _, argv_quoted _⟩
  exact parse_build_and _ _ (List.cons_ne_nil _ _) (List.cons_ne_nil _ _) hmkdir hextract

/-- A path with a space, a quote and a line break, and one that is empty. -/
theorem shell_round_trip_awkward :
    (∃ c, parse (build ["rm", "a b'\n", ""]) = some { first := c, rest := [] } ∧
      c.argv = some (["rm", "a b'\n", ""] : List Bytes)) ∧
    ∃ mkdir extract,
      parse (untarCommand "/x y") = some { first := mkdir, rest := [("&&", extract)] } ∧
      mkdir.argv = some (["mkdir", "-p", "/x y"] : List Bytes) := by
  rcases (shell_round_trip.1 ["rm", "a b'\n", ""] (List.cons_ne_nil _ _) (by
    unfold NulFree
    decide)).2 with ⟨c, hc, _, hargv⟩
  rcases shell_round_trip.2 "/x y" (by
    unfold NulFree
    decide) with ⟨m, e, hp, hm, _⟩
  exact ⟨⟨c, hc, hargv⟩, m, e, hp, hm⟩

end Filesystem

end Bop
