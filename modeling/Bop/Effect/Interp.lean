import Bop.Effect.Program
import Mathlib.Logic.Relation

/-!
# Implementing Operations

An operation of one level may be a program of the level below. Replacing every
call of a program by the program that implements it gives a program of the
lower level, and a bound on the calls of that program is a bound on each
implementation.

A run of the lower program is a run of the upper one in which every call is a
run of its implementation, and a world of the lower level is a world of the
upper one whose calls do what their implementations can do (`through`).

A bound on the calls of a program is the same as a bound on the calls of its
runs, as long as every call can be answered, and a property of the world that
the bounded calls keep is kept by a run. What a run does not keep is lost at
one of its steps.

A program may be a thread of a larger system, whose steps are those of its
threads. Where each call of the thread is a step of the system, a run of the
thread is a run of the system.

## Main definitions

* `interp`: A program with its operations implemented.
* `through`: What an implementation makes of a world.

## Theorems

* `calls_interp`: A bound on the calls of the implementation.
* `steps_map`: A part of a world follows the same trace.
* `steps_interp`: A run of the implementation is a run above it.
* `exists_run`: A world that answers every call has a run of every program.
* `calls_iff_runs`: A bound on calls is a bound on runs.
* `steps_invariant`: What the calls of a run keep, the run keeps.
* `exists_loss`: What a run loses is lost at a step.
* `reaches_of_runs`: A run of a thread is a run of the system.
-/

namespace Bop

namespace Prog

variable {Op Op' : Type} {Ans : Op → Type} {Ans' : Op' → Type} {α W : Type}

/-- The program with every operation replaced by its implementation. -/
def interp (impl : (o : Op) → Prog Op' Ans' (Ans o)) : Prog Op Ans α → Prog Op' Ans' α
  | .ret a => .ret a
  | .call o k => impl o >>= fun x => interp impl (k x)

/-- A bound on the calls of each implementation bounds the whole. -/
theorem calls_interp (P : Op → Prop) (P' : Op' → Prop)
    (impl : (o : Op) → Prog Op' Ans' (Ans o)) (himpl : ∀ o, P o → Calls P' (impl o))
    (p : Prog Op Ans α) (hp : Calls P p) : Calls P' (interp impl p) := by
  induction p with
  | ret a => trivial
  | call o k ih => exact calls_bind P' _ _ (himpl o hp.1) (fun x => ih x (hp.2 x))

/-- What a call of the upper level can do: whatever a run of its implementation
    can. -/
def through (impl : (o : Op) → Prog Op' Ans' (Ans o)) (sem : Semantics Op' Ans' W) :
    Semantics Op Ans W :=
  fun w o x w' => ∃ tr, Runs (impl o) tr x ∧ Steps sem w tr w'

/-- A world follows a trace in two halves. -/
theorem steps_append_iff (sem : Semantics Op Ans W) (tr₁ tr₂ : Trace Op Ans) (w w' : W) :
    Steps sem w (tr₁ ++ tr₂) w' ↔ ∃ u, Steps sem w tr₁ u ∧ Steps sem u tr₂ w' := by
  induction tr₁ generalizing w with
  | nil =>
      constructor
      · exact fun h => ⟨w, Steps.nil w, h⟩
      · rintro ⟨u, hnil, h⟩
        cases hnil
        exact h
  | cons e tr₁ ih =>
      constructor
      · intro h
        cases h with
        | cons _ v _ o x _ hstep hrest =>
            rcases (ih v).mp hrest with ⟨u, h₁, h₂⟩
            exact ⟨u, Steps.cons w v u o x tr₁ hstep h₁, h₂⟩
      · rintro ⟨u, h₁, h₂⟩
        cases h₁ with
        | cons _ v _ o x _ hstep hrest =>
            exact Steps.cons w v w' o x _ hstep ((ih v).mpr ⟨u, hrest, h₂⟩)

/-- A trace of one call is one step. -/
theorem steps_single (sem : Semantics Op Ans W) (o : Op) (x : Ans o) (w w' : W)
    (h : Steps sem w [⟨o, x⟩] w') : sem w o x w' := by
  cases h with
  | cons _ _ _ _ _ _ hstep hrest =>
      cases hrest
      exact hstep

/-- A part of a world follows the same trace, if it follows every call. -/
theorem steps_map {V : Type} (sem : Semantics Op Ans W) (sem' : Semantics Op Ans V) (f : W → V)
    (hsem : ∀ w o x w', sem w o x w' → sem' (f w) o x (f w')) (tr : Trace Op Ans) (w w' : W)
    (hs : Steps sem w tr w') : Steps sem' (f w) tr (f w') := by
  induction hs with
  | nil w => exact Steps.nil (f w)
  | cons w v w' o x tr hstep _ ih =>
      exact Steps.cons (f w) (f v) (f w') o x tr (hsem w o x v hstep) ih

/-- A run of the implementation is a run of the program above it. -/
theorem steps_interp (sem : Semantics Op' Ans' W) (impl : (o : Op) → Prog Op' Ans' (Ans o))
    (p : Prog Op Ans α) (tr : Trace Op' Ans') (a : α) (w w' : W)
    (hr : Runs (interp impl p) tr a) (hs : Steps sem w tr w') :
    ∃ tr', Runs p tr' a ∧ Steps (through impl sem) w tr' w' := by
  induction p generalizing tr w with
  | ret b =>
      rcases (runs_ret_iff b a tr).mp hr with ⟨rfl, rfl⟩
      cases hs
      exact ⟨[], Runs.ret a, Steps.nil w'⟩
  | call o k ih =>
      -- The implementation of the first call comes first.
      rcases (runs_bind_iff _ _ _ _).mp hr with ⟨tr₁, tr₂, x, rfl, hcall, hrest⟩
      rcases (steps_append_iff sem tr₁ tr₂ w w').mp hs with ⟨u, hs₁, hs₂⟩
      rcases ih x tr₂ u hrest hs₂ with ⟨tr', hr', hs'⟩
      exact ⟨⟨o, x⟩ :: tr', Runs.call o k x tr' a hr',
        Steps.cons w u w' o x tr' ⟨tr₁, hcall, hs₁⟩ hs'⟩

/-- Every program has a run whose answers are allowed, if every call has one. -/
theorem exists_runs_of (P : (o : Op) → Ans o → Prop) (hP : ∀ o, ∃ x, P o x) (p : Prog Op Ans α) :
    ∃ tr a, Runs p tr a ∧ ∀ e ∈ tr, P e.1 e.2 := by
  induction p with
  | ret a => exact ⟨[], a, Runs.ret a, fun e he => absurd he List.not_mem_nil⟩
  | call o k ih =>
      rcases hP o with ⟨x, hx⟩
      rcases ih x with ⟨tr, a, h, htr⟩
      refine ⟨⟨o, x⟩ :: tr, a, Runs.call o k x tr a h, fun e he => ?_⟩
      rcases List.mem_cons.mp he with rfl | he
      · exact hx
      · exact htr e he

/-- Every program has a run, if every call can be answered. -/
theorem exists_runs (hne : ∀ o, Nonempty (Ans o)) (p : Prog Op Ans α) : ∃ tr a, Runs p tr a := by
  rcases exists_runs_of (fun _ _ => True) (fun o => (hne o).elim fun x => ⟨x, trivial⟩) p with
    ⟨tr, a, h, _⟩
  exact ⟨tr, a, h⟩

/-- Every program has a run in a world that answers every call. -/
theorem exists_run (sem : Semantics Op Ans W) (htotal : ∀ w o, ∃ x w', sem w o x w')
    (p : Prog Op Ans α) (w : W) : ∃ tr a w', Runs p tr a ∧ Steps sem w tr w' := by
  induction p generalizing w with
  | ret a => exact ⟨[], a, w, Runs.ret a, Steps.nil w⟩
  | call o k ih =>
      rcases htotal w o with ⟨x, w₁, hx⟩
      rcases ih x w₁ with ⟨tr, a, w', hr, hs⟩
      exact ⟨⟨o, x⟩ :: tr, a, w', Runs.call o k x tr a hr, Steps.cons w w₁ w' o x tr hx hs⟩

/-- A bound on the calls of a program is a bound on the calls of its runs. -/
theorem calls_iff_runs (P : Op → Prop) (hne : ∀ o, Nonempty (Ans o)) (p : Prog Op Ans α) :
    Calls P p ↔ ∀ tr a, Runs p tr a → ∀ e ∈ tr, P e.1 := by
  induction p with
  | ret a =>
      refine ⟨fun _ tr b hr e he => ?_, fun _ => trivial⟩
      rcases (runs_ret_iff _ _ _).mp hr with ⟨rfl, _⟩
      exact absurd he List.not_mem_nil
  | call o k ih =>
      constructor
      · rintro ⟨ho, hk⟩ tr a hr e he
        rcases (runs_call_iff _ _ _ _).mp hr with ⟨x, tr', rfl, hr'⟩
        rcases List.mem_cons.mp he with rfl | he
        · exact ho
        · exact (ih x).mp (hk x) tr' a hr' e he
      · intro hall
        refine ⟨?_, fun x => (ih x).mpr fun tr a hr e he => ?_⟩
        · rcases hne o with ⟨x⟩
          rcases exists_runs hne (k x) with ⟨tr, a, hr⟩
          exact hall _ a (Runs.call o k x tr a hr) _ List.mem_cons_self
        · exact hall _ a (Runs.call o k x tr a hr) e (List.mem_cons_of_mem _ he)

/-- What the calls of a run keep, the run keeps. -/
theorem steps_invariant (sem : Semantics Op Ans W) (P : Op → Prop) (inv : W → Prop)
    (hkeep : ∀ w o x w', P o → sem w o x w' → inv w → inv w') (tr : Trace Op Ans) (w w' : W)
    (hs : Steps sem w tr w') (htr : ∀ e ∈ tr, P e.1) (hw : inv w) : inv w' := by
  induction hs with
  | nil w => exact hw
  | cons w w₁ w₂ o x tr hstep _ ih =>
      exact ih (fun e he => htr e (List.mem_cons_of_mem _ he))
        (hkeep w o x w₁ (htr _ List.mem_cons_self) hstep hw)

/-- What a run loses is lost at one of its steps. -/
theorem exists_loss (sem : Semantics Op Ans W) (P : W → Prop) (tr : Trace Op Ans) (w w' : W)
    (hs : Steps sem w tr w') (hw : P w) (hw' : ¬ P w') :
    ∃ tr₁ o x tr₂ u u', tr = tr₁ ++ ⟨o, x⟩ :: tr₂ ∧ Steps sem w tr₁ u ∧ sem u o x u' ∧
      Steps sem u' tr₂ w' ∧ P u ∧ ¬ P u' := by
  induction hs with
  | nil w => exact absurd hw hw'
  | cons w v w' o x tr hstep hrest ih =>
      by_cases hv : P v
      · rcases ih hv hw' with ⟨tr₁, o', x', tr₂, u, u', rfl, h₁, hloss, h₂, hu, hu'⟩
        exact ⟨⟨o, x⟩ :: tr₁, o', x', tr₂, u, u', rfl, Steps.cons w v u o x tr₁ hstep h₁, hloss,
          h₂, hu, hu'⟩
      · exact ⟨[], o, x, tr, w, v, rfl, Steps.nil w, hstep, hrest, hw, hv⟩

/-- A run of a thread is a run of the system, if each of its calls is a step.
    `At w p s` says that in state `s` the world is `w` and `p` is left of the
    thread. -/
theorem reaches_of_runs {σ : Type} (sem : Semantics Op Ans W) (step : σ → σ → Prop)
    (At : W → Prog Op Ans α → σ → Prop)
    (hcall : ∀ s w o k x w', At w (.call o k) s → sem w o x w' →
      ∃ s', step s s' ∧ At w' (k x) s')
    (p : Prog Op Ans α) (tr : Trace Op Ans) (a : α) (hr : Runs p tr a) (w w' : W)
    (hs : Steps sem w tr w') (s : σ) (h : At w p s) :
    ∃ s', Relation.ReflTransGen step s s' ∧ At w' (.ret a) s' := by
  induction hr generalizing w s with
  | ret a =>
      cases hs
      exact ⟨s, Relation.ReflTransGen.refl, h⟩
  | call o k x tr a _ ih =>
      cases hs with
      | cons _ u _ _ _ _ hone hrest =>
          rcases hcall s w o k x u h hone with ⟨s₁, hstep, h₁⟩
          rcases ih u hrest s₁ h₁ with ⟨s', hreach, h'⟩
          exact ⟨s', Relation.ReflTransGen.head hstep hreach, h'⟩

end Prog

end Bop
