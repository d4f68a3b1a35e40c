import Bop.Effect.Triple
import Mathlib.Data.Set.Insert
import Mathlib.Logic.Function.Basic

/-!
# Files a Program Owns

A directory in which a program makes files and removes them again, seen from
one moment on: what has been made in it since, what is held open, and what has
been removed. Nobody else writes there.

A new file has a name that no file has. Removing a file that is there and that
nobody holds open succeeds. Removing one that is held open may fail, which it
does on some systems, and closing may fail too, but the file is not held any
more afterwards.

A program owns a file from the moment it makes it. It may hand it over to
whoever called it, who owns it then. `Settled` says that nothing is owned, and
`Owns` that one file is. Whatever a program does to files is an event, and a
view says which of its operations are which.

## Main definitions

* `FileEvent`, `Dir`, `Touches`: What happens to the files of a directory.
* `fileSem`: The directory as the world of a program.
* `Settled`, `Owns`, `Closed`: What is owned, compared with an earlier moment.

## Theorems

* `settled_created`, `owns_written`, `owns_closed`, `closed_removed`: The life
  of a file.
* `triple_event`: A call that is an event.
* `triple_discarded`: A file that is closed and removed is gone.
* `triple_untouched`: A program that does nothing to files leaves them.
-/

namespace Bop

namespace Prog

/-- What a program does to a file, with the answer where it matters. Names are of
    type `P` and errors of type `ε`. -/
inductive FileEvent (P ε : Type)
  /-- A new file is asked for, and its name is the answer. -/
  | created (x : Except ε P)
  | written (path : P)
  | closed (path : P)
  | removed (path : P) (x : Except ε Unit)

/-- A directory: what its files hold, which of them are held open, and which were
    made and which were removed since some moment. -/
structure Dir (P C : Type) where
  files : P → Option C
  held : Set P
  made : Set P
  removed : Set P

section Dir

variable {P C ε : Type}

/-- What was removed since then was made since then, and not there before. -/
structure Accounted (d w : Dir P C) : Prop where
  own : w.removed ⊆ w.made
  fresh : ∀ path ∈ w.made, d.files path = none

/-- The files are those of `d`. -/
structure Settled (d w : Dir P C) : Prop extends Accounted d w where
  same : w.files = d.files

/-- A directory in which nothing has been made or removed yet. -/
theorem settled_self (d : Dir P C) (hmade : d.made = ∅) (hremoved : d.removed = ∅) :
    Settled d d where
  own := by rw [hmade, hremoved]
  fresh := fun path hpath => by
    rw [hmade] at hpath
    exact absurd hpath (Set.notMem_empty path)
  same := rfl

variable [DecidableEq P] (named : P → Prop)

/-- What an event may do to a directory in which the names of files are `named`. -/
inductive Touches : Dir P C → FileEvent P ε → Dir P C → Prop
  | created (w : Dir P C) (path : P) (c : C) (hname : named path)
      (hnew : w.files path = none) :
      Touches w (.created (.ok path)) ⟨Function.update w.files path (some c),
        insert path w.held, insert path w.made, w.removed⟩
  | refused (w : Dir P C) (err : ε) : Touches w (.created (.error err)) w
  /-- A write that has an effect. -/
  | written (w : Dir P C) (path : P) (c : C) (hfile : w.files path ≠ none) :
      Touches w (.written path) { w with files := Function.update w.files path (some c) }
  | unwritten (w : Dir P C) (path : P) : Touches w (.written path) w
  | closed (w : Dir P C) (path : P) :
      Touches w (.closed path) { w with held := w.held \ {path} }
  | removed (w : Dir P C) (path : P) (hfile : w.files path ≠ none) :
      Touches w (.removed path (.ok ())) { w with
        files := Function.update w.files path none, removed := insert path w.removed }
  /-- There is no such file. -/
  | absent (w : Dir P C) (path : P) (err : ε) (hfile : w.files path = none) :
      Touches w (.removed path (.error err)) w
  /-- The file is held open. -/
  | busy (w : Dir P C) (path : P) (err : ε) (hheld : path ∈ w.held) :
      Touches w (.removed path (.error err)) w

/-- The directory as the world of a program whose operations are seen as events by
    `view`. -/
def fileSem {Op : Type} {Ans : Op → Type} (view : (o : Op) → Ans o → Option (FileEvent P ε)) :
    Semantics Op Ans (Dir P C) :=
  fun w o x w' => match view o x with
    | none => w' = w
    | some e => Touches named w e w'

/-- The files are those of `d` and one that was made since. -/
structure Owns (d : Dir P C) (path : P) (w : Dir P C) : Prop extends Accounted d w where
  name : named path
  mine : path ∈ w.made
  file : ∃ c, w.files = Function.update d.files path (some c)

/-- The one file is not held open any more. -/
def Closed (d : Dir P C) (path : P) (w : Dir P C) : Prop := Owns named d path w ∧ path ∉ w.held

variable {named} {d w w' : Dir P C} {path : P}

/-- Asking for a file gives one, or an error. -/
theorem settled_created (x : Except ε P) (h : Settled d w)
    (ht : Touches named w (.created x) w') :
    match x with
    | .ok path => Owns named d path w'
    | .error _ => Settled d w' := by
  cases ht with
  | refused => exact h
  | created path c hname hnew =>
      rw [h.same] at hnew
      refine ⟨⟨fun q hq => Set.mem_insert_of_mem _ (h.own hq), ?_⟩, hname, Set.mem_insert _ _,
        ⟨c, by rw [h.same]⟩⟩
      rintro q (rfl | hq)
      · exact hnew
      · exact h.fresh q hq

theorem owns_written (h : Owns named d path w)
    (ht : Touches (ε := ε) named w (.written path) w') : Owns named d path w' := by
  cases ht with
  | unwritten => exact h
  | written _ c =>
      rcases h.file with ⟨c₀, hfile⟩
      exact ⟨⟨h.own, h.fresh⟩, h.name, h.mine, ⟨c, by rw [hfile, Function.update_idem]⟩⟩

theorem owns_closed (h : Owns named d path w)
    (ht : Touches (ε := ε) named w (.closed path) w') : Closed named d path w' := by
  cases ht with
  | closed =>
      refine ⟨⟨⟨h.own, h.fresh⟩, h.name, h.mine, h.file⟩, fun hheld => ?_⟩
      exact hheld.2 rfl

/-- A file that is owned and not held open is gone when it is removed. -/
theorem closed_removed (x : Except ε Unit) (h : Closed named d path w)
    (ht : Touches named w (.removed path x) w') : Settled d w' := by
  rcases h with ⟨h, hheld⟩
  rcases h.file with ⟨c, hfile⟩
  have hold := h.fresh path h.mine
  cases ht with
  | removed =>
      refine ⟨⟨?_, h.fresh⟩, ?_⟩
      · rintro q (rfl | hq)
        · exact h.mine
        · exact h.own hq
      · -- Removing the file undoes making it.
        change Function.update w.files path none = d.files
        rw [hfile, Function.update_idem, ← hold, Function.update_eq_self]
  | absent _ _ hnone =>
      rw [hfile, Function.update_self] at hnone
      cases hnone
  | busy _ _ hbusy => exact absurd hbusy hheld

end Dir

section Programs

variable {P C ε Op α : Type} {Ans : Op → Type} [DecidableEq P] {named : P → Prop}
  {view : (o : Op) → Ans o → Option (FileEvent P ε)}

/-- A call that is an event does what the event does. -/
theorem triple_event (o : Op) (e : Ans o → FileEvent P ε) (hview : ∀ x, view o x = some (e x))
    {pre : Dir P C → Prop} (post : Ans o → Dir P C → Prop)
    (h : ∀ w x w', pre w → Touches named w (e x) w' → post x w') :
    Triple (fileSem named view) pre (op o) post := by
  refine triple_op o post fun w x w' hw hs => h w x w' hw ?_
  simpa only [fileSem, hview] using hs

/-- Closing an owned file and removing it settles: the removal cannot fail, for
    nothing holds the file any more. -/
theorem triple_discarded (d : Dir P C) (path : P) (close remove : Op)
    (answer : Ans remove → Except ε Unit)
    (hclose : ∀ x, view close x = some (.closed path))
    (hremove : ∀ x, view remove x = some (.removed path (answer x))) :
    Triple (fileSem named view) (Owns named d path)
      (op close >>= fun _ => op remove >>= fun _ => .ret ()) (fun _ => Settled d) := by
  refine triple_bind (fun _ => Closed named d path) (op close) _ ?_ fun _ => ?_
  · exact triple_event close (fun _ => .closed path) hclose _ fun w x w' h ht => owns_closed h ht
  · refine triple_bind (fun _ => Settled d) (op remove) _ ?_ fun _ => triple_ret _ fun w h => h
    exact triple_event remove (fun x => .removed path (answer x)) hremove _ fun w x w' h ht =>
      closed_removed (answer x) h ht

/-- A program that does nothing to files leaves them. -/
theorem triple_untouched (inv : Dir P C → Prop) (p : Prog Op Ans α)
    (hp : Calls (fun o => ∀ x, view o x = none) p) :
    Triple (fileSem named view) inv p (fun _ => inv) := by
  refine triple_of_calls (fun o => ∀ x, view o x = none) inv (fun w o x w' ho hs hw => ?_) p hp
  have hsame : w' = w := by simpa only [fileSem, ho] using hs
  rw [hsame]
  exact hw

end Programs

end Prog

end Bop
