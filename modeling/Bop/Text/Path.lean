import Bop.Text.Bytes
import Mathlib.Data.List.DropRight

/-!
# Slash Paths

Go's `path` package. A path is read as the elements between its slashes, and
cleaning one is a walk over them: a name goes down, `..` takes back the last
name, and once there is no name left it goes up. Where a walk ends is how far
it went up and which names it then went down, and walks compose: the second
takes back names of the first before it goes further up.

A rooted path forgets how far the walk went up, since the root is its own
parent. Joining a path to a base does not forget it, and that is the whole
difference between a path and the same path below a base.

## Main definitions

* `elems`: The elements of a path.
* `Walk`, `walk`: Where the elements of a path lead.
* `clean`: `path.Clean`.
* `pathJoin`: `path.Join`.
* `split`: `path.Split`.
* `Proper`: An element that is a name.
* `descent`: Names one below the other.
* `StrictlyBelow`: A directory below another.

## Theorems

* `elems_append`: The elements of two paths joined by a slash.
* `walk_append`: Walks compose.
* `clean_rooted`: What a rooted path cleans to.
* `elems_rooted`: Rooted paths of names are told apart by their names.
-/

namespace Bop

namespace Paths

/-- The elements of a path, with `acc` already read of the first. -/
def elemsFrom (acc : Bytes) : Bytes → List Bytes
  | [] => if acc = [] then [] else [acc]
  | b :: rest =>
      if b = 47 then (if acc = [] then [] else [acc]) ++ elemsFrom [] rest
      else elemsFrom (acc ++ [b]) rest

/-- The elements of a path: what its slashes separate, where that is not
    empty. -/
def elems (p : Bytes) : List Bytes := elemsFrom [] p

/-- Where a walk over elements ends: so many levels up, and down again through
    these names. -/
structure Walk where
  up : Nat
  down : List Bytes
  deriving DecidableEq

/-- One element further. -/
def Walk.step (w : Walk) (e : Bytes) : Walk :=
  if e = "." then w
  else if e = ".." then
    if w.down = [] then { w with up := w.up + 1 } else { w with down := w.down.dropLast }
  else { w with down := w.down ++ [e] }

/-- Where the elements lead. -/
def walk (es : List Bytes) : Walk := es.foldl Walk.step ⟨0, []⟩

/-- One walk after another. -/
def Walk.andThen (w v : Walk) : Walk where
  up := w.up + (v.up - w.down.length)
  down := w.down.take (w.down.length - v.up) ++ v.down

/-- `path.Clean`. -/
def clean (p : Bytes) : Bytes :=
  let w := walk (elems p)
  if p.head? = some 47 then "/" ++ join "/" w.down
  else
    let es := List.replicate w.up (".." : Bytes) ++ w.down
    if es = [] then "." else join "/" es

/-- `path.Join`. -/
def pathJoin (ps : List Bytes) : Bytes :=
  if ∀ p ∈ ps, p = [] then [] else clean (join "/" (ps.dropWhile (· = [])))

/-- `path.Split`: everything up to the last slash, and what follows it. -/
def split (p : Bytes) : Bytes × Bytes := (p.rdropWhile (· ≠ 47), p.rtakeWhile (· ≠ 47))

/-- A name: an element that leads down. -/
def Proper (e : Bytes) : Prop := e ≠ [] ∧ (47 : UInt8) ∉ e ∧ e ≠ "." ∧ e ≠ ".."

/-- Names one below the other, each behind a slash. -/
def descent (names : List Bytes) : Bytes := names.flatMap (fun e => 47 :: e)

/-- The path of a directory that is below `dir` and not `dir` itself. -/
def StrictlyBelow (dir p : Bytes) : Prop :=
  ∃ names, names ≠ [] ∧ (∀ e ∈ names, Proper e) ∧ p = dir ++ descent names

section Elements

theorem elemsFrom_append (acc a b : Bytes) :
    elemsFrom acc (a ++ 47 :: b) = elemsFrom acc a ++ elemsFrom [] b := by
  induction a generalizing acc with
  | nil =>
      rw [List.nil_append, elemsFrom.eq_def acc (47 :: b), elemsFrom.eq_def acc []]
      rfl
  | cons x a ih =>
      rw [List.cons_append, elemsFrom, elemsFrom]
      by_cases hx : x = 47
      · rw [if_pos hx, if_pos hx, ih, List.append_assoc]
      · rw [if_neg hx, if_neg hx, ih]

/-- The elements of two paths joined by a slash. -/
theorem elems_append (a b : Bytes) : elems (a ++ 47 :: b) = elems a ++ elems b :=
  elemsFrom_append [] a b

theorem elemsFrom_name (acc s : Bytes) (hs : (47 : UInt8) ∉ s) :
    elemsFrom acc s = if acc ++ s = [] then [] else [acc ++ s] := by
  induction s generalizing acc with
  | nil => rw [elemsFrom, List.append_nil]
  | cons x s ih =>
      rw [List.mem_cons, not_or] at hs
      rw [elemsFrom, if_neg (Ne.symm hs.1), ih _ hs.2, List.append_assoc, List.singleton_append]

/-- Without a slash there is at most one element. -/
theorem elems_name (s : Bytes) (hs : (47 : UInt8) ∉ s) :
    elems s = if s = [] then [] else [s] := elemsFrom_name [] s hs

/-- A leading slash is no element. -/
theorem elems_slash (p : Bytes) : elems (47 :: p) = elems p := elems_append [] p

/-- Elements are not empty and hold no slash. -/
theorem elemsFrom_mem (acc p : Bytes) (hacc : (47 : UInt8) ∉ acc) :
    ∀ e ∈ elemsFrom acc p, e ≠ [] ∧ (47 : UInt8) ∉ e := by
  -- What has been gathered becomes an element unless it is empty.
  have hopen : ∀ acc : Bytes, (47 : UInt8) ∉ acc →
      ∀ e ∈ (if acc = [] then [] else [acc] : List Bytes), e ≠ [] ∧ (47 : UInt8) ∉ e := by
    intro acc hacc e he
    by_cases hnil : acc = []
    · rw [if_pos hnil] at he
      cases he
    · rw [if_neg hnil, List.mem_singleton] at he
      rw [he]
      exact ⟨hnil, hacc⟩
  induction p generalizing acc with
  | nil => exact hopen acc hacc
  | cons x p ih =>
      rw [elemsFrom]
      by_cases hx : x = 47
      · rw [if_pos hx]
        intro e he
        rcases List.mem_append.mp he with he | he
        · exact hopen acc hacc e he
        · exact ih [] List.not_mem_nil e he
      · rw [if_neg hx]
        refine ih _ ?_
        rw [List.mem_append, List.mem_singleton, not_or]
        exact ⟨hacc, Ne.symm hx⟩

/-- An element is no longer than its path. -/
theorem elemsFrom_length (acc p : Bytes) :
    ∀ e ∈ elemsFrom acc p, e.length ≤ acc.length + p.length := by
  have hopen : ∀ acc : Bytes, ∀ e ∈ (if acc = [] then [] else [acc] : List Bytes),
      e.length ≤ acc.length := by
    intro acc e he
    split at he
    · cases he
    · rw [List.mem_singleton.mp he]
  induction p generalizing acc with
  | nil => exact hopen acc
  | cons x p ih =>
      intro e he
      rw [elemsFrom] at he
      rw [List.length_cons]
      split at he
      · rcases List.mem_append.mp he with he | he
        · have hle := hopen acc e he
          omega
        · have hle := ih [] e he
          rw [List.length_nil] at hle
          omega
      · have hle := ih _ e he
        rw [List.length_append, List.length_singleton] at hle
        omega

theorem length_le_of_mem_elems (p e : Bytes) (h : e ∈ elems p) : e.length ≤ p.length := by
  have hle := elemsFrom_length [] p e h
  rwa [List.length_nil, Nat.zero_add] at hle

theorem descent_cons (e : Bytes) (names : List Bytes) :
    descent (e :: names) = 47 :: e ++ descent names := rfl

/-- The elements of a descent are its names. -/
theorem elems_descent (dir : Bytes) (names : List Bytes) (h : ∀ e ∈ names, Proper e) :
    elems (dir ++ descent names) = elems dir ++ names := by
  induction names generalizing dir with
  | nil => rw [descent, List.flatMap_nil, List.append_nil, List.append_nil]
  | cons e names ih =>
      have he := h e List.mem_cons_self
      have hstep := ih (dir ++ 47 :: e) (fun e' he' => h e' (List.mem_cons_of_mem e he'))
      rw [descent_cons, ← List.append_assoc, hstep, elems_append, elems_name e he.2.1,
        if_neg he.1, List.append_assoc, List.singleton_append]

/-- A descent from the root. -/
theorem slash_join (names : List Bytes) (hne : names ≠ []) :
    ("/" : Bytes) ++ join "/" names = descent names := by
  induction names with
  | nil => exact absurd rfl hne
  | cons e names ih =>
      cases names with
      | nil =>
          rw [descent, List.flatMap_singleton]
          rfl
      | cons e' names =>
          rw [join_cons_cons, descent_cons, ← ih (List.cons_ne_nil _ _)]
          simp only [List.append_assoc]
          rfl

/-- Rooted paths of names are told apart by their names. -/
theorem elems_rooted (names : List Bytes) (h : ∀ e ∈ names, Proper e) :
    elems ("/" ++ join "/" names) = names := by
  by_cases hne : names = []
  · rw [hne]
    decide
  · rw [slash_join names hne]
    exact elems_descent [] names h

end Elements

section Walks

/-- A second walk that goes up, and up once more, takes back a name of the first
    if one is left. -/
theorem step_up_andThen (w v : Walk) (hv : v.down = []) :
    (w.andThen v).step ".." = w.andThen { v with up := v.up + 1 } := by
  unfold Walk.step
  rw [if_neg (by decide), if_pos rfl]
  by_cases hleft : w.down.length ≤ v.up
  · have hnone : (w.andThen v).down = [] := by
      simp only [Walk.andThen, hv, List.append_nil, List.take_eq_nil_iff]
      omega
    rw [if_pos hnone]
    simp only [Walk.andThen, hv, List.append_nil, Walk.mk.injEq]
    refine ⟨by omega, ?_⟩
    congr 1
    omega
  · have hsome : (w.andThen v).down ≠ [] := by
      simp only [Walk.andThen, hv, List.append_nil, ne_eq, ← List.length_eq_zero_iff,
        List.length_take]
      omega
    rw [if_neg hsome]
    simp only [Walk.andThen, hv, List.append_nil, Walk.mk.injEq]
    refine ⟨by omega, ?_⟩
    rw [List.dropLast_eq_take, List.length_take, List.take_take]
    congr 1
    omega

/-- A step extends the second of two walks. -/
theorem step_andThen (w v : Walk) (e : Bytes) :
    (w.andThen v).step e = w.andThen (v.step e) := by
  by_cases hup : e = ".."
  · subst hup
    by_cases hv : v.down = []
    · rw [step_up_andThen w v hv, Walk.step, if_neg (by decide), if_pos rfl, if_pos hv]
    · have hsome : (w.andThen v).down ≠ [] := by
        rw [Walk.andThen]
        exact List.append_ne_nil_of_right_ne_nil _ hv
      unfold Walk.step
      have hdot : ¬ (".." : Bytes) = "." := by decide
      rw [if_neg hdot, if_neg hdot, if_pos rfl, if_pos rfl, if_neg hv, if_neg hsome]
      simp only [Walk.andThen, List.dropLast_append_of_ne_nil hv]
  · unfold Walk.step
    rw [if_neg hup, if_neg hup]
    by_cases hdot : e = "."
    · rw [if_pos hdot, if_pos hdot]
    · rw [if_neg hdot, if_neg hdot]
      simp only [Walk.andThen, List.append_assoc]

/-- Walks compose. -/
theorem walk_append (es fs : List Bytes) :
    walk (es ++ fs) = (walk es).andThen (walk fs) := by
  induction fs using List.reverseRecOn with
  | nil =>
      rw [List.append_nil]
      simp only [walk, List.foldl_nil, Walk.andThen, Nat.zero_sub, Nat.add_zero, Nat.sub_zero,
        List.take_length, List.append_nil]
  | append_singleton fs e ih =>
      have hlast : ∀ gs : List Bytes, walk (gs ++ [e]) = (walk gs).step e := by
        intro gs
        rw [walk, List.foldl_append, List.foldl_cons, List.foldl_nil, walk]
      rw [← List.append_assoc, hlast, ih, hlast, step_andThen]

/-- Names lead down and nowhere else. -/
theorem walk_names (names : List Bytes) (h : ∀ e ∈ names, Proper e) : walk names = ⟨0, names⟩ := by
  induction names using List.reverseRecOn with
  | nil => rfl
  | append_singleton names e ih =>
      have he := h e (List.mem_append_right _ (List.mem_singleton_self e))
      have hnames := ih (fun e' he' => h e' (List.mem_append_left _ he'))
      have hstep : walk (names ++ [e]) = (walk names).step e := by
        rw [walk, List.foldl_append, List.foldl_cons, List.foldl_nil, walk]
      rw [hstep, hnames, Walk.step, if_neg he.2.2.1, if_neg he.2.2.2]

/-- What a walk over elements goes down through are names. -/
theorem walk_proper (es : List Bytes) (h : ∀ e ∈ es, e ≠ [] ∧ (47 : UInt8) ∉ e) :
    ∀ e ∈ (walk es).down, Proper e := by
  -- From the end, since a walk takes its last element last.
  induction es using List.reverseRecOn with
  | nil => exact fun e he => absurd he List.not_mem_nil
  | append_singleton es x ih =>
      have hx := h x (List.mem_append_right _ (List.mem_singleton_self x))
      have hes := ih (fun e he => h e (List.mem_append_left _ he))
      rw [walk, List.foldl_append, List.foldl_cons, List.foldl_nil, ← walk, Walk.step]
      by_cases hdot : x = "."
      · rw [if_pos hdot]
        exact hes
      rw [if_neg hdot]
      by_cases hup : x = ".."
      · rw [if_pos hup]
        by_cases hdown : (walk es).down = []
        · rw [if_pos hdown]
          exact hes
        · rw [if_neg hdown]
          exact fun e he => hes e (List.mem_of_mem_dropLast he)
      · rw [if_neg hup]
        intro e he
        rcases List.mem_append.mp he with he | he
        · exact hes e he
        · rw [List.mem_singleton.mp he]
          exact ⟨hx.1, hx.2, hdot, hup⟩

/-- The names a path leads down through are names. -/
theorem walk_elems_proper (p : Bytes) : ∀ e ∈ (walk (elems p)).down, Proper e :=
  walk_proper _ (elemsFrom_mem [] p List.not_mem_nil)

/-- What a rooted path cleans to. -/
theorem clean_rooted (p : Bytes) (h : p.head? = some 47) :
    clean p = "/" ++ join "/" (walk (elems p)).down := by
  rw [clean]
  exact if_pos h

/-- Two rooted paths clean to the same if they lead down through the same
    names. -/
theorem clean_eq_iff (p q : Bytes) (hp : p.head? = some 47) (hq : q.head? = some 47) :
    clean p = clean q ↔ (walk (elems p)).down = (walk (elems q)).down := by
  rw [clean_rooted p hp, clean_rooted q hq]
  constructor
  · intro h
    have helems := congrArg elems h
    rwa [elems_rooted _ (walk_elems_proper p), elems_rooted _ (walk_elems_proper q)] at helems
  · intro h
    rw [h]

end Walks

/-- Splitting loses nothing. -/
theorem split_append (p : Bytes) : (split p).1 ++ (split p).2 = p :=
  List.rdropWhile_append_rtakeWhile

/-- What follows the last slash holds none. -/
theorem split_file (p : Bytes) : (47 : UInt8) ∉ (split p).2 := by
  intro h
  have hmem := List.mem_rtakeWhile_imp h
  simp at hmem

/-- What precedes it ends in one, if there is a slash at all. -/
theorem split_dir (p : Bytes) (h : (47 : UInt8) ∈ p) : ∃ d, (split p).1 = d ++ [47] := by
  have hne : p.rdropWhile (· ≠ 47) ≠ [] := by
    intro hnil
    have hnone := List.rdropWhile_eq_nil_iff.mp hnil 47 h
    simp at hnone
  have hlast := List.rdropWhile_last_not (· ≠ 47) p hne
  rw [decide_eq_true_eq, not_not] at hlast
  have heq := List.dropLast_append_getLast hne
  rw [hlast] at heq
  exact ⟨_, heq.symm⟩

/-- The elements of a path whose last element is made longer. -/
theorem elems_extend (p s : Bytes) (hp : (47 : UInt8) ∈ p) (hs : (47 : UInt8) ∉ s) :
    elems (p ++ s) =
      elems (split p).1 ++ if (split p).2 ++ s = [] then [] else [(split p).2 ++ s] := by
  rcases split_dir p hp with ⟨d, hd⟩
  have hname : (47 : UInt8) ∉ (split p).2 ++ s := by
    rw [List.mem_append, not_or]
    exact ⟨split_file p, hs⟩
  have heq : p ++ s = d ++ 47 :: ((split p).2 ++ s) := by
    rw [← List.singleton_append, ← List.append_assoc, ← hd, ← List.append_assoc, split_append]
  rw [heq, elems_append, elems_name _ hname, hd, elems_append, elems_name [] List.not_mem_nil,
    if_pos rfl, List.append_nil]

/-- Splitting at a last slash. -/
theorem split_slash (dir file : Bytes) (h : (47 : UInt8) ∉ file) :
    split (dir ++ 47 :: file) = (dir ++ [47], file) := by
  have hfile : ∀ x ∈ file.reverse, decide (x ≠ 47) = true := by
    intro x hx
    rw [decide_eq_true_eq]
    rintro rfl
    exact h (List.mem_reverse.mp hx)
  have hrev : (dir ++ 47 :: file).reverse = file.reverse ++ 47 :: dir.reverse := by
    simp only [List.reverse_append, List.reverse_cons, List.append_assoc, List.singleton_append]
  have hdrop : (dir ++ 47 :: file).rdropWhile (· ≠ 47) = dir ++ [47] := by
    rw [List.rdropWhile, hrev, List.dropWhile_append_of_pos hfile,
      List.dropWhile_cons_of_neg (by decide), List.reverse_cons, List.reverse_reverse]
  have htake : (dir ++ 47 :: file).rtakeWhile (· ≠ 47) = file := by
    rw [List.rtakeWhile, hrev, List.takeWhile_append_of_pos hfile,
      List.takeWhile_cons_of_neg (by decide), List.append_nil, List.reverse_reverse]
  rw [split, hdrop, htake]

example : clean "/a/./b//../../../c/" = "/c" := by decide

example : pathJoin ["/tmp/base", "/../../etc/x"] = "/etc/x" := by decide

end Paths

end Bop
