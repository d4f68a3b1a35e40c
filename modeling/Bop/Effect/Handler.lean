import Bop.Effect.Program

/-!
# Handlers

Running a program against a handler that answers every call and may keep state
between them. This is the deterministic counterpart of `Runs`: the answers
are fixed in advance, and what the program returns and where it leaves the
state are functions.

`Ensures answer p s post` says that `post` holds of the result and the state
`p` ends with when it is started in `s`. It is a Hoare triple at one starting
state, and the rules below take a program apart from the front, one rule for
each way programs are put together.

## Main definitions

* `exec`: Running a program against a handler.
* `Ensures`: What holds when the program has run.

## Theorems

* `exec_op`, `exec_bind`, `exec_check_ok`, `exec_check_error`: Programs are
  executed part by part.
* `ensures_op`: A call is answered and the rest goes on.
* `ensures_bind`: Sequencing.
* `ensures_check`, `ensures_checked`: A checked call goes on or stops.
* `ensures_deferring`: A clean-up runs after the body.
* `exec_invariant`: What every answer keeps, a program keeps.
* `exec_until`: Handlers that agree until one of them is spoiled.
* `runs_exec`: A handled run is one of the runs.
* `steps_exec`: A handler that the world allows runs a program in it.
-/

namespace Bop

namespace Prog

variable {Op : Type} {Ans : Op → Type} {α β ε σ : Type}

/-- Running a program against a handler that answers every call and may keep
    state between them. -/
def exec (answer : (o : Op) → σ → Ans o × σ) : Prog Op Ans α → σ → α × σ
  | .ret a, s => (a, s)
  | .call o k, s => exec answer (k (answer o s).1) (answer o s).2

/-- `post` holds of the result and the state the program ends with. -/
def Ensures (answer : (o : Op) → σ → Ans o × σ) (p : Prog Op Ans α) (s : σ)
    (post : α → σ → Prop) : Prop :=
  post (exec answer p s).1 (exec answer p s).2

section Rules

variable (answer : (o : Op) → σ → Ans o × σ)

/-- A single call is answered. -/
theorem exec_op (o : Op) (s : σ) : exec answer (op o) s = answer o s := rfl

/-- A composition is executed in two halves. -/
theorem exec_bind (p : Prog Op Ans α) (f : α → Prog Op Ans β) (s : σ) :
    exec answer (p >>= f) s = exec answer (f (exec answer p s).1) (exec answer p s).2 := by
  induction p generalizing s with
  | ret a => rfl
  | call o k ih => exact ih _ _

/-- A checked program that succeeds goes on. -/
theorem exec_check_ok (p : Prog Op Ans (Except ε α)) (wrap : ε → ε)
    (k : α → Prog Op Ans (Except ε β)) (s s' : σ) (a : α)
    (h : exec answer p s = (.ok a, s')) :
    exec answer (check p wrap k) s = exec answer (k a) s' := by
  change exec answer (p >>= _) s = _
  rw [exec_bind, h]

/-- A checked program that fails stops. -/
theorem exec_check_error (p : Prog Op Ans (Except ε α)) (wrap : ε → ε)
    (k : α → Prog Op Ans (Except ε β)) (s s' : σ) (err : ε)
    (h : exec answer p s = (.error err, s')) :
    exec answer (check p wrap k) s = (.error (wrap err), s') := by
  change exec answer (p >>= _) s = _
  rw [exec_bind, h]
  rfl

variable {answer}

theorem ensures_ret (a : α) (s : σ) (post : α → σ → Prop) (h : post a s) :
    Ensures answer (.ret a) s post := h

/-- Weakening. -/
theorem ensures_mono (p : Prog Op Ans α) (s : σ) (post post' : α → σ → Prop)
    (h : Ensures answer p s post) (himp : ∀ a s', post a s' → post' a s') :
    Ensures answer p s post' := himp _ _ h

/-- Sequencing. -/
theorem ensures_bind (p : Prog Op Ans α) (f : α → Prog Op Ans β) (s : σ)
    (post : β → σ → Prop)
    (h : Ensures answer p s (fun a s' => Ensures answer (f a) s' post)) :
    Ensures answer (p >>= f) s post := by
  simp only [Ensures] at h ⊢
  rw [exec_bind]
  exact h

/-- A call is answered and the rest goes on. -/
theorem ensures_op (o : Op) (s : σ) (post : Ans o → σ → Prop)
    (h : post (answer o s).1 (answer o s).2) : Ensures answer (op o) s post := h

/-- A checked call goes on with its value or stops with its error. -/
theorem ensures_check (p : Prog Op Ans (Except ε α)) (wrap : ε → ε)
    (k : α → Prog Op Ans (Except ε β)) (s : σ) (post : Except ε β → σ → Prop)
    (h : Ensures answer p s (fun r s' => match r with
      | .ok a => Ensures answer (k a) s' post
      | .error err => post (.error (wrap err)) s')) :
    Ensures answer (check p wrap k) s post := by
  refine ensures_bind p _ s post ?_
  refine ensures_mono p s _ _ h ?_
  intro r s' hr
  cases r with
  | ok a => exact hr
  | error err => exact hr

/-- The same rule where the checked program's result is known. -/
theorem ensures_checked (p : Prog Op Ans (Except ε α)) (wrap : ε → ε)
    (k : α → Prog Op Ans (Except ε β)) (s s' : σ) (r : Except ε α) (post : Except ε β → σ → Prop)
    (hp : exec answer p s = (r, s'))
    (herr : ∀ err, r = .error err → post (.error (wrap err)) s')
    (hok : ∀ a, r = .ok a → Ensures answer (k a) s' post) :
    Ensures answer (check p wrap k) s post := by
  refine ensures_check p wrap k s post ?_
  simp only [Ensures, hp]
  cases r with
  | ok a => exact hok a rfl
  | error err => exact herr err rfl

/-- A clean-up runs after the body and its result is forgotten. -/
theorem ensures_deferring (cleanup : Prog Op Ans Unit) (body : Prog Op Ans α) (s : σ)
    (post : α → σ → Prop)
    (h : Ensures answer body s (fun a s' => Ensures answer cleanup s' (fun _ => post a))) :
    Ensures answer (deferring cleanup body) s post := by
  refine ensures_bind body _ s post ?_
  refine ensures_mono body s _ _ h ?_
  intro a s' ha
  exact ensures_bind cleanup _ s' post ha

end Rules

/-- What every answer keeps, a program keeps. -/
theorem exec_invariant (answer : (o : Op) → σ → Ans o × σ) (P : Op → Prop) (inv : σ → Prop)
    (hkeep : ∀ o s, P o → inv s → inv (answer o s).2) (p : Prog Op Ans α) (hp : Calls P p) (s : σ)
    (hs : inv s) : inv (exec answer p s).2 := by
  induction p generalizing s with
  | ret a => exact hs
  | call o k ih => exact ih _ (hp.2 _) _ (hkeep o s hp.1 hs)

/-- Two handlers that answer alike until the state of the second is spoiled,
    which it stays, do the same to a program unless they spoil it. -/
theorem exec_until (answer₁ answer₂ : (o : Op) → σ → Ans o × σ) (bad : σ → Prop)
    (hbad : ∀ o s, bad s → bad (answer₂ o s).2)
    (hsame : ∀ o s, answer₁ o s = answer₂ o s ∨ bad (answer₂ o s).2) (p : Prog Op Ans α) (s : σ) :
    exec answer₁ p s = exec answer₂ p s ∨ bad (exec answer₂ p s).2 := by
  induction p generalizing s with
  | ret a => exact Or.inl rfl
  | call o k ih =>
      rcases hsame o s with heq | hspoiled
      · rw [exec, exec, heq]
        exact ih _ _
      · have hrest := calls_of_forall (fun _ => True) (fun _ => trivial) (k (answer₂ o s).1)
        exact Or.inr (exec_invariant answer₂ (fun _ => True) bad (fun o s _ => hbad o s) _ hrest _
          hspoiled)

/-- A handler that answers as the world allows runs a program in that world,
    and every answer in the run is the handler's. -/
theorem exec_trace (sem : Semantics Op Ans σ) (answer : (o : Op) → σ → Ans o × σ)
    (hanswer : ∀ o s, sem s o (answer o s).1 (answer o s).2) (p : Prog Op Ans α) (s : σ) :
    ∃ tr, Runs p tr (exec answer p s).1 ∧ Steps sem s tr (exec answer p s).2 ∧
      ∀ e ∈ tr, ∃ s', e.2 = (answer e.1 s').1 := by
  induction p generalizing s with
  | ret a => exact ⟨[], Runs.ret a, Steps.nil s, fun _ he => absurd he List.not_mem_nil⟩
  | call o k ih =>
      rcases ih (answer o s).1 (answer o s).2 with ⟨tr, hr, hs, hall⟩
      exact ⟨⟨o, (answer o s).1⟩ :: tr, Runs.call o k _ tr _ hr,
        Steps.cons s _ _ o _ tr (hanswer o s) hs, List.forall_mem_cons.mpr ⟨⟨s, rfl⟩, hall⟩⟩

/-- A handled run is one of the runs of the program, and every answer in it is
    the handler's. -/
theorem runs_exec (answer : (o : Op) → σ → Ans o × σ) (p : Prog Op Ans α) (s : σ) :
    ∃ tr, Runs p tr (exec answer p s).1 ∧ ∀ e ∈ tr, ∃ s', e.2 = (answer e.1 s').1 := by
  rcases exec_trace (fun _ _ _ _ => True) answer (fun _ _ => trivial) p s with ⟨tr, hr, _, hall⟩
  exact ⟨tr, hr, hall⟩

/-- A handler that answers as the world allows runs a program in that world. -/
theorem steps_exec (sem : Semantics Op Ans σ) (answer : (o : Op) → σ → Ans o × σ)
    (hanswer : ∀ o s, sem s o (answer o s).1 (answer o s).2) (p : Prog Op Ans α) (s : σ) :
    ∃ tr, Runs p tr (exec answer p s).1 ∧ Steps sem s tr (exec answer p s).2 := by
  rcases exec_trace sem answer hanswer p s with ⟨tr, hr, hs, _⟩
  exact ⟨tr, hr, hs⟩

/-- So does a program that returns nothing. -/
theorem steps_exec_unit (sem : Semantics Op Ans σ) (answer : (o : Op) → σ → Ans o × σ)
    (hanswer : ∀ o s, sem s o (answer o s).1 (answer o s).2) (p : Prog Op Ans Unit) (s : σ) :
    ∃ tr, Runs p tr () ∧ Steps sem s tr (exec answer p s).2 :=
  steps_exec sem answer hanswer p s

end Prog

end Bop
