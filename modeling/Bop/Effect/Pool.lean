import Bop.Effect.Monitor
import Mathlib.Logic.Function.Basic
import Mathlib.Logic.Relation

/-!
# Threads over One World

Any number of programs that run beside each other in one world. A thread makes
one call at a time, other threads may call in between, and a thread may be
stopped at any moment, which is what the end of its process does to it. Apart
from the calls, the world may change in ways that no thread has asked for.

What keeps such a system in order is usually local: each program follows a
protocol of its own, and what the protocol's state says of the world is not
disturbed by the others. `pool_invariant` is that argument, once. The programs
are known by a monitor, the invariant relates the states of all monitors to the
world, and what is left to show is about one call of one thread.

## Main definitions

* `Pool`: What is left of each thread, and the world.
* `PoolStep`: One thread makes a call, starts or stops, or the world changes.
* `Watched`: Every thread obeys the monitor from a state of the invariant.

## Theorems

* `watched_step`: One step keeps the invariant.
* `pool_invariant`: So does a run.
-/

namespace Bop

namespace Prog

open Relation

variable {ι Op Q W : Type} {Ans : Op → Type} [DecidableEq ι]

/-- What is left of each thread that runs, and the world they share. -/
structure Pool (ι : Type) {Op : Type} (Ans : Op → Type) (W : Type) where
  threads : ι → Option (Prog Op Ans Unit)
  world : W

/-- One step of a pool whose threads are started with programs of `starts` and
    whose world may change by itself as `env` says. -/
inductive PoolStep (sem : Semantics Op Ans W) (starts : Prog Op Ans Unit → Prop)
    (env : W → W → Prop) : Pool ι Ans W → Pool ι Ans W → Prop
  | start (s : Pool ι Ans W) (i : ι) (p : Prog Op Ans Unit) (hp : starts p) :
      PoolStep sem starts env s { s with threads := Function.update s.threads i (some p) }
  | call (s : Pool ι Ans W) (i : ι) (o : Op) (k : Ans o → Prog Op Ans Unit) (x : Ans o) (w : W)
      (h : s.threads i = some (.call o k)) (hw : sem s.world o x w) :
      PoolStep sem starts env s ⟨Function.update s.threads i (some (k x)), w⟩
  | stop (s : Pool ι Ans W) (i : ι) :
      PoolStep sem starts env s { s with threads := Function.update s.threads i none }
  | env (s : Pool ι Ans W) (w : W) (h : env s.world w) :
      PoolStep sem starts env s { s with world := w }

/-- The threads obey the monitor from states that the invariant allows. -/
def Watched (m : Monitor Op Ans Q) (inv : (ι → Q) → W → Prop) (s : Pool ι Ans W) : Prop :=
  ∃ q, inv q s.world ∧ ∀ i p, s.threads i = some p → Obeys m (q i) p (fun _ _ => True)

section Invariant

variable {sem : Semantics Op Ans W} {starts : Prog Op Ans Unit → Prop} {env : W → W → Prop}
  (m : Monitor Op Ans Q) (q₀ : Q) (inv : (ι → Q) → W → Prop)

include q₀

/-- One step keeps the invariant, if the call of one thread does. -/
theorem watched_step (hstarts : ∀ p, starts p → Obeys m q₀ p (fun _ _ => True))
    (hcall : ∀ q i w o x q' w', inv q w → m (q i) o x = some q' → sem w o x w' →
      inv (Function.update q i q') w')
    (hidle : ∀ q i w, inv q w → inv (Function.update q i q₀) w)
    (henv : ∀ q w w', inv q w → env w w' → inv q w')
    (s s' : Pool ι Ans W) (hstep : PoolStep sem starts env s s') (h : Watched m inv s) :
    Watched m inv s' := by
  rcases h with ⟨q, hinv, hobeys⟩
  -- The other threads are in the states they were in.
  have hother : ∀ (i : ι) (p' : Option (Prog Op Ans Unit)) (q' : Q),
      (∀ p, p' = some p → Obeys m q' p (fun _ _ => True)) →
      ∀ j p, Function.update s.threads i p' j = some p →
        Obeys m (Function.update q i q' j) p (fun _ _ => True) := by
    intro i p' q' hi j p hj
    by_cases hij : j = i
    · subst hij
      rw [Function.update_self] at hj ⊢
      exact hi p hj
    · rw [Function.update_of_ne hij] at hj ⊢
      exact hobeys j p hj
  cases hstep with
  | start i p hp =>
      refine ⟨Function.update q i q₀, hidle q i _ hinv, hother i (some p) q₀ ?_⟩
      rintro _ ⟨⟩
      exact hstarts p hp
  | call i o k x w hi hw =>
      rcases obeys_call m (q i) o k _ (hobeys i _ hi) x with ⟨q', hq', hk⟩
      refine ⟨Function.update q i q', hcall q i _ o x q' w hinv hq' hw,
        hother i (some (k x)) q' ?_⟩
      rintro _ ⟨⟩
      exact hk
  | stop i =>
      refine ⟨Function.update q i q₀, hidle q i _ hinv, hother i none q₀ ?_⟩
      rintro _ ⟨⟩
  | env w hw => exact ⟨q, henv q _ w hinv hw, hobeys⟩

/-- A run keeps the invariant: whatever the threads do to each other, it holds in
    every state that is reached. -/
theorem pool_invariant (hstarts : ∀ p, starts p → Obeys m q₀ p (fun _ _ => True))
    (hcall : ∀ q i w o x q' w', inv q w → m (q i) o x = some q' → sem w o x w' →
      inv (Function.update q i q') w')
    (hidle : ∀ q i w, inv q w → inv (Function.update q i q₀) w)
    (henv : ∀ q w w', inv q w → env w w' → inv q w')
    (w : W) (hinit : inv (fun _ => q₀) w) (s : Pool ι Ans W)
    (hrun : ReflTransGen (PoolStep sem starts env) ⟨fun _ => none, w⟩ s) :
    ∃ q, inv q s.world := by
  have hwatched : Watched m inv s := by
    induction hrun with
    | refl =>
        refine ⟨fun _ => q₀, hinit, ?_⟩
        rintro _ _ ⟨⟩
    | tail _ hstep ih => exact watched_step m q₀ inv hstarts hcall hidle henv _ _ hstep ih
  rcases hwatched with ⟨q, hq, _⟩
  exact ⟨q, hq⟩

end Invariant

end Prog

end Bop
