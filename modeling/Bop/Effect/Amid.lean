import Bop.Effect.Triple

/-!
# A Program Amid Others

A program of which only the calls are its own. Before and after each of them the
world may change as others like, and all that is known of the others is which
changes they make.

An assertion that the others do not disturb is stable. Where the assertions of a
proof are, the rules for triples are those of a program that is alone, with the
call seen on its own.

## Main definitions

* `amid`: A call between what others do.
* `Stable`: An assertion that others do not disturb.

## Theorems

* `triple_amid_op`: One call.
* `performs_amid_of`: A run that nobody disturbs.
* `performs_amid`: What every change keeps, a run keeps.
-/

namespace Bop

namespace Prog

variable {Op : Type} {Ans : Op → Type} {α W : Type}

/-- A call, with what others do before and after it. -/
def amid (rely : W → W → Prop) (sem : Semantics Op Ans W) : Semantics Op Ans W :=
  fun w o x w' => ∃ u v, rely w u ∧ sem u o x v ∧ rely v w'

/-- The others do not disturb it. -/
def Stable (rely : W → W → Prop) (P : W → Prop) : Prop := ∀ w w', rely w w' → P w → P w'

section Rules

variable {rely : W → W → Prop} {sem : Semantics Op Ans W}

/-- One call between stable assertions, seen on its own. -/
theorem triple_amid_op {pre : W → Prop} (o : Op) (post : Ans o → W → Prop)
    (hpre : Stable rely pre) (hpost : ∀ x, Stable rely (post x))
    (h : ∀ w x w', pre w → sem w o x w' → post x w') :
    Triple (amid rely sem) pre (op o) post := by
  refine triple_op o post fun w x w' hw hs => ?_
  rcases hs with ⟨u, v, hbefore, hcall, hafter⟩
  exact hpost x v w' hafter (h u x v (hpre w u hbefore hw) hcall)

/-- A run that is not disturbed is one amid others. -/
theorem performs_amid_of (hrefl : ∀ w, rely w w) (p : Prog Op Ans α) (w w' : W) (a : α)
    (h : Performs sem p w a w') : Performs (amid rely sem) p w a w' := by
  rcases h with ⟨tr, hr, hs⟩
  exact ⟨tr, hr, steps_map sem (amid rely sem) id
    (fun w o x w' hcall => ⟨w, w', hrefl w, hcall, hrefl w'⟩) tr w w' hs⟩

/-- What the others and the calls keep, a run keeps. -/
theorem performs_amid (R : W → W → Prop) (hrefl : ∀ w, R w w)
    (htrans : ∀ u v w, R u v → R v w → R u w) (hrely : ∀ w w', rely w w' → R w w')
    (hsem : ∀ w o x w', sem w o x w' → R w w') (p : Prog Op Ans α) (w w' : W) (a : α)
    (h : Performs (amid rely sem) p w a w') : R w w' := by
  rcases h with ⟨tr, hr, hs⟩
  clear hr
  induction hs with
  | nil w => exact hrefl w
  | cons w v w' o x tr hstep _ ih =>
      rcases hstep with ⟨u, u', hbefore, hcall, hafter⟩
      exact htrans w v w' (htrans w u v (hrely w u hbefore)
        (htrans u u' v (hsem u o x u' hcall) (hrely u' v hafter))) ih

end Rules

end Prog

end Bop
