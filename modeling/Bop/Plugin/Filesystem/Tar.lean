import Bop.Text.Path

/-!
# The Tar Program

What GNU `tar` makes of its arguments, as far as archiving a directory from
within another and extracting an archive below a third go. Every argument with
a leading dash is an option, wherever it stands, and `-C` takes the one after
it. What is left names the files to archive. These names are unquoted: a
backslash begins an escape. The directory of `-C` is taken as it stands by a call
that archives, and is unquoted as well by one that extracts.

A name that leads to a symbolic link is the link's, wherever it points: nothing
of what is behind it is archived.

A member of an archive is named by the operand it was found through. Names are
made safe when they are written: everything up to the last `..` of one is
taken away. Extraction takes away more if it is told to, and leaves a member
out that has no name left.

## Main definitions

* `Call`, `readArgs`: What a command line asks for.
* `unquote`: A name without its escapes.
* `Entry`, `Tree`, `Found`: Something below a directory, a directory, and what
  is at a path that leads to one.
* `Host`: What is at which path.
* `create`, `archive`: The archive of a directory, and that of a call.
* `extract`: What an archive puts where.

## Theorems

* `unquote_eq_of_length`: A name that loses nothing has no escape.
* `extract_create`: A directory comes back out as it went in.
-/

namespace Bop

namespace Tar

open Paths

/-- What a command line asks for. -/
structure Call where
  dir : Bytes
  excludes : List Bytes
  strip : Nat
  operands : List Bytes
  deriving DecidableEq

/-- The value of an option that is given as `--name=value`. -/
def optionValue (name arg : Bytes) : Option Bytes :=
  if name.isPrefixOf arg then some (arg.drop name.length) else none

/-- A decimal number. -/
def decimal (s : Bytes) : Nat := s.foldl (fun n b => 10 * n + (b.toNat - 48)) 0

/-- One argument, ahead of those that were read already. -/
def readArg (arg : Bytes) (call : Call) : Call :=
  match optionValue "--exclude=" arg, optionValue "--strip-components=" arg with
  | some pattern, _ => { call with excludes := pattern :: call.excludes }
  | none, some n => { call with strip := decimal n }
  | none, none =>
      if arg.head? = some 45 then call else { call with operands := arg :: call.operands }

/-- The arguments of a call, after those that name the archive. -/
def readArgs : List Bytes → Option Call
  | [] => some ⟨".", [], 0, []⟩
  | [arg] => if arg = "-C" then none else (readArgs []).map (readArg arg)
  | arg :: dir :: rest =>
      if arg = "-C" then (readArgs rest).map ({ · with dir := dir })
      else (readArgs (dir :: rest)).map (readArg arg)

/-- Where the unquoting of a name stands: in no escape, behind its backslash, or
    behind some of the up to three octal digits of a byte. -/
inductive Quoting
  | plain
  | escape
  | octal (value more : Nat)

/-- The byte that a letter behind a backslash stands for. -/
def escapes : List (UInt8 × UInt8) :=
  [(92, 92), (97, 7), (98, 8), (102, 12), (110, 10), (114, 13), (116, 9), (118, 11), (63, 127)]

/-- An octal digit. -/
def isOctal (b : UInt8) : Bool := 48 ≤ b && b ≤ 55

/-- What is left of a name, without its escapes. A backslash that begins none
    stays. -/
def unquoteFrom : Quoting → Bytes → Bytes
  | .plain, [] => []
  | .plain, b :: s => if b = 92 then unquoteFrom .escape s else b :: unquoteFrom .plain s
  | .escape, [] => [92]
  | .escape, b :: s =>
      if isOctal b then unquoteFrom (.octal (b.toNat - 48) 2) s
      else match escapes.lookup b with
        | some c => c :: unquoteFrom .plain s
        | none => 92 :: b :: unquoteFrom .plain s
  | .octal value _, [] => [UInt8.ofNat value]
  | .octal value more, b :: s =>
      if more ≠ 0 ∧ isOctal b then
        unquoteFrom (.octal (8 * value + (b.toNat - 48)) (more - 1)) s
      else UInt8.ofNat value ::
        (if b = 92 then unquoteFrom .escape s else b :: unquoteFrom .plain s)

/-- A name without its escapes. A zero byte ends it. -/
def unquote (s : Bytes) : Bytes := (unquoteFrom .plain s).takeWhile (· ≠ 0)

/-- Two paths take the same steps from the same start, so they lead to the
    same file wherever links lead. -/
def SamePath (a b : Bytes) : Prop := a.head? = b.head? ∧ elems a = elems b

instance (a b : Bytes) : Decidable (SamePath a b) :=
  inferInstanceAs (Decidable (a.head? = b.head? ∧ elems a = elems b))

variable {C : Type}

/-- Something below a directory, under the names that lead to it. -/
structure Entry (C : Type) where
  names : List Bytes
  content : C
  nonempty : names ≠ []
  proper : ∀ e ∈ names, Proper e

/-- A directory and what is below it. -/
structure Tree (C : Type) where
  self : C
  entries : List (Entry C)

/-- What is at a path that leads to a directory: the directory itself, or a symbolic
    link to it. -/
inductive Found (C : Type)
  | directory (tree : Tree C)
  | link (self : C) (tree : Tree C)

/-- The directory, behind the link if there is one. -/
def Found.tree : Found C → Tree C
  | .directory tree => tree
  | .link _ tree => tree

/-- It is a link. -/
def Found.linked : Found C → Bool
  | .directory _ => false
  | .link _ _ => true

/-- What is at which path, a slash at its end aside. -/
structure Host (C : Type) where
  found : Bytes → Option (Found C)
  same : ∀ a b, SamePath a b → found a = found b

/-- A member of an archive: the elements of its name, and what it is. -/
abbrev Member (C : Type) := List Bytes × C

/-- A name without what leads up in it. -/
def safeName (es : List Bytes) : List Bytes := es.rtakeWhile (· ≠ "..")

/-- The archive of what is found under one name, given which names the patterns
    match. The directory itself is the first member. -/
def create (excluded : List Bytes → List Bytes → Bool) (patterns : List Bytes) (name : Bytes)
    (found : Found C) : List (Member C) :=
  let members : List (Member C) := match found with
    | .directory tree => (elems name, tree.self) ::
        tree.entries.map (fun e => (elems name ++ e.names, e.content))
    | .link self _ => [(elems name, self)]
  (members.filter (fun m => !excluded patterns m.1)).map (fun m => (safeName m.1, m.2))

/-- What a name leads to from a directory. -/
def Host.locate (host : Host C) (dir name : Bytes) : Option (Found C) :=
  if name = [] then none
  else if name.head? = some 47 then host.found name
  else host.found (dir ++ "/" ++ name)

/-- The archive of a call, if everything it names is there. -/
def archive (host : Host C) (excluded : List Bytes → List Bytes → Bool) (call : Call) :
    Option (List (Member C)) :=
  (call.operands.mapM fun operand => (host.locate call.dir (unquote operand)).map
    (create excluded call.excludes (unquote operand))).map List.flatten

/-- What a call puts where that extracts an archive, if it has a directory to go to. -/
def extract (call : Call) (archive : List (Member C)) : Option (List (Bytes × C)) :=
  if unquote call.dir = [] then none
  else some (archive.filterMap fun m =>
    if m.1.drop call.strip = [] then none
    else some (unquote call.dir ++ descent (m.1.drop call.strip), m.2))

/-- An escape is shorter than what it was written as. -/
theorem unquoteFrom_length (s : Bytes) :
    ((unquoteFrom .plain s).length ≤ s.length ∧
      ((unquoteFrom .plain s).length = s.length → unquoteFrom .plain s = s)) ∧
    ((unquoteFrom .escape s).length ≤ s.length + 1 ∧
      ((unquoteFrom .escape s).length = s.length + 1 → unquoteFrom .escape s = 92 :: s)) ∧
    ∀ value more, (unquoteFrom (.octal value more) s).length ≤ s.length + 1 := by
  induction s with
  | nil =>
      refine ⟨⟨Nat.le_refl _, fun _ => rfl⟩, ⟨Nat.le_refl _, fun _ => rfl⟩, fun value more => ?_⟩
      exact Nat.le_refl _
  | cons b s ih =>
      rcases ih with ⟨⟨hplain, hplainEq⟩, ⟨hescape, hescapeEq⟩, hoctal⟩
      have hbyte : (if b = 92 then unquoteFrom .escape s else b :: unquoteFrom .plain s).length ≤
          s.length + 1 ∧
          ((if b = 92 then unquoteFrom .escape s else b :: unquoteFrom .plain s).length =
            s.length + 1 →
          (if b = 92 then unquoteFrom .escape s else b :: unquoteFrom .plain s) = b :: s) := by
        split
        · next hb => exact ⟨hescape, fun h => by rw [hescapeEq h, hb]⟩
        · rw [List.length_cons, Nat.add_right_cancel_iff]
          exact ⟨Nat.succ_le_succ hplain, fun h => by rw [hplainEq h]⟩
      refine ⟨?_, ?_, fun value more => ?_⟩
      · rw [unquoteFrom, List.length_cons]
        exact hbyte
      · rw [unquoteFrom, List.length_cons]
        split
        · -- A first digit makes the escape a byte of two or more.
          have hle := hoctal (b.toNat - 48) 2
          exact ⟨by omega, fun h => by omega⟩
        · split
          · rw [List.length_cons]
            exact ⟨by omega, fun h => by omega⟩
          · rw [List.length_cons, List.length_cons]
            refine ⟨by omega, fun h => ?_⟩
            rw [hplainEq (by omega)]
      · rw [unquoteFrom, List.length_cons]
        split
        · have hle := hoctal (8 * value + (b.toNat - 48)) (more - 1)
          omega
        · rw [List.length_cons]
          exact Nat.succ_le_succ hbyte.1

/-- A name that loses nothing when it is unquoted has no escape. -/
theorem unquote_eq_of_length (s : Bytes) (h : s.length ≤ (unquote s).length) : unquote s = s := by
  rcases (unquoteFrom_length s).1 with ⟨hle, heq⟩
  have hleading := List.takeWhile_prefix (l := unquoteFrom .plain s) (fun b : UInt8 => b ≠ 0)
  have hlen := hleading.length_le
  rw [unquote] at h ⊢
  rw [hleading.eq_of_length (by omega), heq (by omega)]

/-- A name in which nothing leads up is safe. -/
theorem safeName_eq (es : List Bytes) (h : (".." : Bytes) ∉ es) : safeName es = es := by
  refine List.rtakeWhile_eq_self_iff.mpr (fun e he => ?_)
  rw [decide_eq_true_eq]
  rintro rfl
  exact h he

/-- What is put where of the members of one directory. -/
theorem extract_members (excluded : List Bytes → List Bytes → Bool) (patterns : List Bytes)
    (name target : Bytes) (entries : List (Entry C)) (hup : name ≠ "..") :
    ((((entries.map (fun e => (name :: e.names, e.content))).filter
        (fun m => !excluded patterns m.1)).map (fun m => (safeName m.1, m.2))).filterMap fun m =>
      if m.1.drop 1 = [] then none else some (target ++ descent (m.1.drop 1), m.2)) =
      (entries.filter (fun e => !excluded patterns (name :: e.names))).map
        (fun e => (target ++ descent e.names, e.content)) := by
  have hsafe : ∀ e : Entry C, safeName (name :: e.names) = name :: e.names := by
    intro e
    refine safeName_eq _ (fun hmem => ?_)
    rcases List.mem_cons.mp hmem with hmem | hmem
    · exact hup hmem.symm
    · exact (e.proper _ hmem).2.2.2 rfl
  induction entries with
  | nil => rfl
  | cons e entries ih =>
      rw [List.map_cons]
      by_cases hex : excluded patterns (name :: e.names) = true
      · rw [List.filter_cons_of_neg (by simp only [hex]; decide),
          List.filter_cons_of_neg (by simp only [hex]; decide), ih]
      · rw [List.filter_cons_of_pos (by simp only [hex]; decide),
          List.filter_cons_of_pos (by simp only [hex]; decide), List.map_cons, List.map_cons, ← ih,
          List.filterMap_cons_some (by
            simp only [hsafe, List.drop_succ_cons, List.drop_zero]
            rw [if_neg e.nonempty])]

/-- A directory that is found through a single element which does not lead up
    comes back out as it went in, without that element. -/
theorem extract_create (excluded : List Bytes → List Bytes → Bool) (patterns : List Bytes)
    (name target : Bytes) (tree : Tree C) (hne : name ≠ []) (hslash : (47 : UInt8) ∉ name)
    (hup : name ≠ "..") (htarget : unquote target ≠ []) :
    extract ⟨target, [], 1, []⟩ (create excluded patterns name (.directory tree)) =
      some ((tree.entries.filter (fun e => !excluded patterns (name :: e.names))).map
        (fun e => (unquote target ++ descent e.names, e.content))) := by
  have helems : elems name = [name] := by rw [elems_name name hslash, if_neg hne]
  have hself : safeName [name] = [name] :=
    safeName_eq _ (by rw [List.mem_singleton]; exact Ne.symm hup)
  simp only [extract, if_neg htarget, create, helems, List.singleton_append]
  rw [← extract_members excluded patterns name (unquote target) tree.entries hup]
  -- The directory's own member has nothing left of its name.
  by_cases hex : excluded patterns [name] = true
  · rw [List.filter_cons_of_neg (by simp only [hex]; decide)]
  · rw [List.filter_cons_of_pos (by simp only [hex]; decide), List.map_cons,
      List.filterMap_cons_none (by simp only [hself]; rfl)]

/-- Nothing is left of a link's name, so nothing comes out of its archive. -/
theorem extract_link (excluded : List Bytes → List Bytes → Bool) (patterns : List Bytes)
    (name target : Bytes) (self : C) (tree : Tree C) (hslash : (47 : UInt8) ∉ name)
    (htarget : unquote target ≠ []) :
    extract ⟨target, [], 1, []⟩ (create excluded patterns name (.link self tree)) = some [] := by
  rw [extract, if_neg htarget, Option.some_inj, List.filterMap_eq_nil_iff]
  intro m hm
  rcases List.mem_map.mp hm with ⟨m', hm', rfl⟩
  have hname : m'.1 = elems name :=
    congrArg Prod.fst (List.mem_singleton.mp (List.mem_of_mem_filter hm'))
  have hshort : (elems name).length ≤ 1 := by
    rw [elems_name name hslash]
    split
    · exact Nat.zero_le _
    · exact Nat.le_refl _
  have hsafe : (safeName m'.1).length ≤ 1 := by
    rw [hname]
    exact (List.rtakeWhile_suffix _ _).length_le.trans hshort
  rw [if_pos (List.drop_eq_nil_of_le hsafe)]

example : readArgs ["-C", "/srv", "--exclude=*.log", "www"] =
    some ⟨"/srv", ["*.log"], 0, ["www"]⟩ := by decide

example : unquote "a\\\\b\\056c\\d" = "a\\b.c\\d" := by decide

end Tar

end Bop
