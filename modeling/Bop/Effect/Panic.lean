import Bop.Effect.Handler
import Bop.Effect.Monitor

/-!
# Panics

A program that may panic returns `none` when it does, and whatever would have
followed does not happen. A deferred recovery ends the panic and goes on as if
the step had been done.

Operations may panic too. Replacing every operation by a program of the level
below that may panic gives a program that may, and the first panic that is not
recovered inside such a program ends the whole.

Two executions are compared by `Agrees`: started in related states they return
the same and end in related states. The rules are those of any relational
logic, and the one for operations that may panic needs nothing but the
agreement of the operations.

A monitor of a program watches its implementation too, if each operation moves
the monitor below as it moves the one above.

## Main definitions

* `unlessPanic`, `recovering`: What follows a step, and a deferred recovery.
* `panicking`: A program with its operations implemented by programs that may
  panic.
* `Agrees`: Two executions that return the same.

## Theorems

* `agrees_ret`, `agrees_op`, `agrees_bind`, `agrees_unlessPanic`: The rules.
* `agrees_panicking`: Operations that agree make programs that agree.
* `exec_panicking`: Operations that do what a handler does, and do not panic.
* `panicking_invariant`: What every operation keeps, a program keeps.
* `obeys_panicking`: Operations that move a monitor as the program does.
-/

namespace Bop

namespace Prog

variable {Op Op₁ Op₂ : Type} {Ans : Op → Type} {Ans₁ : Op₁ → Type} {Ans₂ : Op₂ → Type}
variable {α β σ σ₁ σ₂ : Type}

/-- The second program follows the first, unless that panics. -/
def unlessPanic (p : Prog Op Ans (Option α)) (f : α → Prog Op Ans (Option β)) :
    Prog Op Ans (Option β) :=
  p >>= fun
    | none => .ret none
    | some a => f a

/-- `defer func() { recover() }()`: a panic ends here. -/
def recovering (p : Prog Op Ans (Option Unit)) : Prog Op Ans (Option Unit) := do
  let _ ← p
  return some ()

/-- The program with every operation replaced by its implementation. The first
    panic ends it. -/
def panicking (impl : (o : Op) → Prog Op₁ Ans₁ (Option (Ans o))) :
    Prog Op Ans α → Prog Op₁ Ans₁ (Option α)
  | .ret a => .ret (some a)
  | .call o k => unlessPanic (impl o) fun x => panicking impl (k x)

/-- Started in related states, the two return the same and end in related
    states. -/
def Agrees (answer₁ : (o : Op₁) → σ₁ → Ans₁ o × σ₁) (answer₂ : (o : Op₂) → σ₂ → Ans₂ o × σ₂)
    (R : σ₁ → σ₂ → Prop) (p₁ : Prog Op₁ Ans₁ α) (p₂ : Prog Op₂ Ans₂ α) : Prop :=
  ∀ s₁ s₂, R s₁ s₂ → (exec answer₁ p₁ s₁).1 = (exec answer₂ p₂ s₂).1 ∧
    R (exec answer₁ p₁ s₁).2 (exec answer₂ p₂ s₂).2

section Rules

variable (answer₁ : (o : Op₁) → σ₁ → Ans₁ o × σ₁) (answer₂ : (o : Op₂) → σ₂ → Ans₂ o × σ₂)
variable (R : σ₁ → σ₂ → Prop)

/-- Returning the same value agrees. -/
theorem agrees_ret (a : α) : Agrees answer₁ answer₂ R (.ret a) (.ret a) :=
  fun _ _ h => ⟨rfl, h⟩

/-- Sequencing. -/
theorem agrees_bind (p₁ : Prog Op₁ Ans₁ α) (p₂ : Prog Op₂ Ans₂ α) (f₁ : α → Prog Op₁ Ans₁ β)
    (f₂ : α → Prog Op₂ Ans₂ β) (hp : Agrees answer₁ answer₂ R p₁ p₂)
    (hf : ∀ a, Agrees answer₁ answer₂ R (f₁ a) (f₂ a)) :
    Agrees answer₁ answer₂ R (p₁ >>= f₁) (p₂ >>= f₂) := by
  intro s₁ s₂ hs
  rcases hp s₁ s₂ hs with ⟨hresult, hstates⟩
  rw [exec_bind, exec_bind, hresult]
  exact hf _ _ _ hstates

/-- What follows a step that may panic. -/
theorem agrees_unlessPanic (p₁ : Prog Op₁ Ans₁ (Option α)) (p₂ : Prog Op₂ Ans₂ (Option α))
    (f₁ : α → Prog Op₁ Ans₁ (Option β)) (f₂ : α → Prog Op₂ Ans₂ (Option β))
    (hp : Agrees answer₁ answer₂ R p₁ p₂)
    (hf : ∀ a, Agrees answer₁ answer₂ R (f₁ a) (f₂ a)) :
    Agrees answer₁ answer₂ R (unlessPanic p₁ f₁) (unlessPanic p₂ f₂) := by
  refine agrees_bind answer₁ answer₂ R p₁ p₂ _ _ hp fun r => ?_
  cases r with
  | none => exact agrees_ret answer₁ answer₂ R none
  | some a => exact hf a

/-- Operations that agree make programs that agree. -/
theorem agrees_panicking (impl₁ : (o : Op) → Prog Op₁ Ans₁ (Option (Ans o)))
    (impl₂ : (o : Op) → Prog Op₂ Ans₂ (Option (Ans o)))
    (himpl : ∀ o, Agrees answer₁ answer₂ R (impl₁ o) (impl₂ o)) (p : Prog Op Ans α) :
    Agrees answer₁ answer₂ R (panicking impl₁ p) (panicking impl₂ p) := by
  induction p with
  | ret a => exact agrees_ret answer₁ answer₂ R (some a)
  | call o k ih => exact agrees_unlessPanic answer₁ answer₂ R _ _ _ _ (himpl o) ih

end Rules

section Execution

variable (answer₁ : (o : Op₁) → σ₁ → Ans₁ o × σ₁)

/-- A step that does not panic is followed by the next. -/
theorem exec_unlessPanic_some (p : Prog Op₁ Ans₁ (Option α)) (f : α → Prog Op₁ Ans₁ (Option β))
    (s s' : σ₁) (a : α) (h : exec answer₁ p s = (some a, s')) :
    exec answer₁ (unlessPanic p f) s = exec answer₁ (f a) s' := by
  rw [unlessPanic, exec_bind, h]

/-- A panic ends the program. -/
theorem exec_unlessPanic_none (p : Prog Op₁ Ans₁ (Option α)) (f : α → Prog Op₁ Ans₁ (Option β))
    (s s' : σ₁) (h : exec answer₁ p s = (none, s')) :
    exec answer₁ (unlessPanic p f) s = (none, s') := by
  rw [unlessPanic, exec_bind, h]
  rfl

/-- A recovered step is done, whatever happens in it. -/
theorem exec_recovering (p : Prog Op₁ Ans₁ (Option Unit)) (s : σ₁) :
    exec answer₁ (recovering p) s = (some (), (exec answer₁ p s).2) := by
  rw [recovering, exec_bind]
  rfl

/-- What the implementation of every operation keeps, a program keeps, whether
    or not it panics. -/
theorem panicking_invariant (impl : (o : Op) → Prog Op₁ Ans₁ (Option (Ans o))) (P : Op → Prop)
    (inv : σ₁ → Prop) (himpl : ∀ o s, P o → inv s → inv (exec answer₁ (impl o) s).2)
    (p : Prog Op Ans α) (hp : Calls P p) (s : σ₁) (hs : inv s) :
    inv (exec answer₁ (panicking impl p) s).2 := by
  induction p generalizing s with
  | ret a => exact hs
  | call o k ih =>
      have hstep := himpl o s hp.1 hs
      rw [panicking, unlessPanic, exec_bind]
      cases (exec answer₁ (impl o) s).1 with
      | none => exact hstep
      | some x => exact ih x (hp.2 x) _ hstep

/-- A composition is implemented in two halves. -/
theorem panicking_bind (impl : (o : Op) → Prog Op₁ Ans₁ (Option (Ans o))) (p : Prog Op Ans α)
    (f : α → Prog Op Ans β) :
    panicking impl (p >>= f) = unlessPanic (panicking impl p) fun a => panicking impl (f a) := by
  induction p with
  | ret a => rfl
  | call o k ih =>
      rw [call_bind, panicking, panicking, unlessPanic, unlessPanic, unlessPanic, bind_assoc]
      congr 1
      funext x
      cases x with
      | none => rfl
      | some x => exact ih x

/-- A composition goes on where its first half ends without a panic. -/
theorem exec_panicking_bind (impl : (o : Op) → Prog Op₁ Ans₁ (Option (Ans o)))
    (p : Prog Op Ans α) (f : α → Prog Op Ans β) (s s' : σ₁) (a : α)
    (h : exec answer₁ (panicking impl p) s = (some a, s')) :
    exec answer₁ (panicking impl (p >>= f)) s = exec answer₁ (panicking impl (f a)) s' := by
  rw [panicking_bind, exec_unlessPanic_some answer₁ _ _ _ _ _ h]

/-- Where no operation panics and each does to a part of the state what a
    handler does to it, the program does too. -/
theorem exec_panicking (answer : (o : Op) → σ → Ans o × σ)
    (impl : (o : Op) → Prog Op₁ Ans₁ (Option (Ans o))) (put : σ₁ → σ → σ₁) (P : Op → Prop)
    (himpl : ∀ o, P o → ∀ s t, exec answer₁ (impl o) (put s t) =
      (some (answer o t).1, put s (answer o t).2))
    (p : Prog Op Ans α) (hp : Calls P p) (s : σ₁) (t : σ) :
    exec answer₁ (panicking impl p) (put s t) =
      (some (exec answer p t).1, put s (exec answer p t).2) := by
  induction p generalizing t with
  | ret a => rfl
  | call o k ih =>
      rw [panicking, exec_unlessPanic_some answer₁ _ _ _ _ _ (himpl o hp.1 s t)]
      exact ih _ (hp.2 _) _

end Execution

section Monitors

variable {Q : Type} (m : Monitor Op Ans Q) (m₁ : Monitor Op₁ Ans₁ Q)

/-- What follows a step that does not panic. -/
theorem obeys_unlessPanic (p : Prog Op₁ Ans₁ (Option α)) (f : α → Prog Op₁ Ans₁ (Option β))
    (q : Q) (mid : α → Q → Prop) (post : Option β → Q → Prop)
    (hp : Obeys m₁ q p (fun r q' => ∃ a, r = some a ∧ mid a q'))
    (hf : ∀ a q', mid a q' → Obeys m₁ q' (f a) post) : Obeys m₁ q (unlessPanic p f) post := by
  refine obeys_bind m₁ p _ q _ post hp ?_
  rintro r q' ⟨a, rfl, hmid⟩
  exact hf a q' hmid

/-- A recovered step has not panicked. -/
theorem obeys_recovering (p : Prog Op₁ Ans₁ (Option Unit)) (q : Q) (mid : Q → Prop)
    (hp : Obeys m₁ q p (fun _ => mid)) :
    Obeys m₁ q (recovering p) (fun r q' => r = some () ∧ mid q') :=
  obeys_bind m₁ p _ q _ _ hp fun _ _ hmid => ⟨rfl, hmid⟩

/-- Operations that do not panic and move the monitor as it allows make a
    program that does. -/
theorem obeys_panicking (impl : (o : Op) → Prog Op₁ Ans₁ (Option (Ans o)))
    (himpl : ∀ o q, (∀ x, ∃ q', m q o x = some q') →
      Obeys m₁ q (impl o) (fun r q' => ∃ x, r = some x ∧ m q o x = some q'))
    (p : Prog Op Ans α) (q : Q) (post : α → Q → Prop) (h : Obeys m q p post) :
    Obeys m₁ q (panicking impl p) (fun r q' => ∃ a, r = some a ∧ post a q') := by
  induction p generalizing q with
  | ret a => exact ⟨a, rfl, h⟩
  | call o k ih =>
      have hallowed : ∀ x, ∃ q', m q o x = some q' := fun x => (h x).imp fun _ hx => hx.1
      refine obeys_unlessPanic m₁ _ _ q _ _ (himpl o q hallowed) fun x q' hq' => ?_
      rcases h x with ⟨q'', hq'', hk⟩
      obtain rfl := Option.some.inj (hq'.symm.trans hq'')
      exact ih x q' hk

end Monitors

end Prog

end Bop
