import Mathlib.Data.List.Basic

/-!
# Programs over Operations

A program that talks to the world is a tree: it either returns, or it calls
one operation and continues with whatever that operation answered. Which
operations there are and what each may answer is a parameter, so the same
tree shape serves a controller talking to its store and a plugin talking to
an agent.

The answers are not part of the program. `Runs p tr a` says that `p` can
return `a` after the calls and answers in `tr`, whatever the answers were, so
a statement about every run is a statement about every pattern of failures.
A world constrains the answers: `Steps sem w tr w'` says that a world that
obeys `sem` can give these answers in this order and end up as `w'`.

Trees compose by substituting at the leaves, and a run of a composition is a
run of its parts, which is `runs_bind_iff`.

## Main definitions

* `Prog`: A program over a set of operations.
* `op`: The program that calls one operation and returns its answer.
* `forEach`: A loop over a list without an early exit.
* `check`: A call whose error ends the program.
* `deferring`: A program with a clean-up.
* `Trace`: The calls a run made and the answers it got.
* `Runs`: The runs of a program.
* `Steps`: The traces a world admits.
* `Calls`: A bound on the calls of a program.

## Theorems

* `runs_ret_iff`: A finished program runs by doing nothing.
* `runs_call_iff`: A call is answered first.
* `runs_bind_iff`, `runs_check_iff`: A run of a composition splits at the seam.
* `steps_of_calls`: Calls that change nothing change nothing together.
-/

namespace Bop

/-- A program that calls operations of `Op`, each answered in `Ans`. -/
inductive Prog (Op : Type) (Ans : Op → Type) (α : Type) : Type
  | ret (a : α)
  | call (o : Op) (k : Ans o → Prog Op Ans α)

variable {Op : Type} {Ans : Op → Type} {α β γ W : Type}

namespace Prog

/-- Sequencing: the second program takes over where the first returns. -/
def bind : Prog Op Ans α → (α → Prog Op Ans β) → Prog Op Ans β
  | .ret a, f => f a
  | .call o k, f => .call o (fun x => (k x).bind f)

instance : Monad (Prog Op Ans) where
  pure := .ret
  bind := bind

/-- Calling one operation and returning its answer. -/
def op (o : Op) : Prog Op Ans (Ans o) := .call o .ret

/-- A loop over a list that visits every element. -/
def forEach : List γ → (γ → Prog Op Ans Unit) → Prog Op Ans Unit
  | [], _ => pure ()
  | x :: xs, f => do
      f x
      forEach xs f

/-- `if err != nil { return …err… }`: go on with the value, or stop with the
    error as it is wrapped here. -/
def check {ε : Type} (p : Prog Op Ans (Except ε α)) (wrap : ε → ε)
    (k : α → Prog Op Ans (Except ε β)) : Prog Op Ans (Except ε β) :=
  p.bind (fun
    | .ok a => k a
    | .error err => .ret (.error (wrap err)))

/-- `defer`: the clean-up runs whatever the body returned. -/
def deferring (cleanup : Prog Op Ans Unit) (body : Prog Op Ans α) : Prog Op Ans α := do
  let a ← body
  cleanup
  return a

@[simp] theorem pure_eq (a : α) : (pure a : Prog Op Ans α) = .ret a := rfl

@[simp] theorem ret_bind (a : α) (f : α → Prog Op Ans β) : (Prog.ret a >>= f) = f a := rfl

@[simp] theorem call_bind (o : Op) (k : Ans o → Prog Op Ans α) (f : α → Prog Op Ans β) :
    (Prog.call o k >>= f) = .call o (fun x => k x >>= f) := rfl

@[simp] theorem op_bind (o : Op) (f : Ans o → Prog Op Ans β) : (op o >>= f) = .call o f := rfl

theorem bind_assoc (p : Prog Op Ans α) (f : α → Prog Op Ans β) (g : β → Prog Op Ans γ) :
    (p >>= f) >>= g = p >>= (fun a => f a >>= g) := by
  induction p with
  | ret a => rfl
  | call o k ih =>
      simp only [call_bind]
      congr 1
      funext x
      exact ih x

/-- A call together with its answer. -/
abbrev Event (Op : Type) (Ans : Op → Type) := Σ o : Op, Ans o

/-- The calls of a run in order. -/
abbrev Trace (Op : Type) (Ans : Op → Type) := List (Event Op Ans)

/-- `Runs p tr a`: the program can return `a` after exactly these calls. -/
inductive Runs : Prog Op Ans α → Trace Op Ans → α → Prop
  | ret (a : α) : Runs (.ret a) [] a
  | call (o : Op) (k : Ans o → Prog Op Ans α) (x : Ans o) (tr : Trace Op Ans) (a : α)
      (h : Runs (k x) tr a) : Runs (.call o k) (⟨o, x⟩ :: tr) a

theorem runs_ret_iff (a b : α) (tr : Trace Op Ans) :
    Runs (.ret a) tr b ↔ tr = [] ∧ b = a := by
  constructor
  · intro h
    cases h
    exact ⟨rfl, rfl⟩
  · rintro ⟨rfl, rfl⟩
    exact Runs.ret b

theorem runs_call_iff (o : Op) (k : Ans o → Prog Op Ans α) (tr : Trace Op Ans) (a : α) :
    Runs (.call o k) tr a ↔ ∃ x tr', tr = ⟨o, x⟩ :: tr' ∧ Runs (k x) tr' a := by
  constructor
  · intro h
    cases h with
    | call _ _ x tr' _ h => exact ⟨x, tr', rfl, h⟩
  · rintro ⟨x, tr', rfl, h⟩
    exact Runs.call o k x tr' a h

/-- A run of a composition splits at the seam. -/
theorem runs_bind_iff (p : Prog Op Ans α) (f : α → Prog Op Ans β) (tr : Trace Op Ans) (b : β) :
    Runs (p >>= f) tr b ↔
      ∃ tr₁ tr₂ a, tr = tr₁ ++ tr₂ ∧ Runs p tr₁ a ∧ Runs (f a) tr₂ b := by
  induction p generalizing tr with
  | ret a =>
      constructor
      · intro h
        exact ⟨[], tr, a, rfl, Runs.ret a, h⟩
      · rintro ⟨tr₁, tr₂, a', rfl, h₁, h₂⟩
        rcases (runs_ret_iff _ _ _).mp h₁ with ⟨rfl, rfl⟩
        exact h₂
  | call o k ih =>
      rw [call_bind]
      constructor
      · intro h
        rcases (runs_call_iff _ _ _ _).mp h with ⟨x, tr', rfl, hx⟩
        rcases (ih x tr').mp hx with ⟨tr₁, tr₂, a, rfl, h₁, h₂⟩
        exact ⟨⟨o, x⟩ :: tr₁, tr₂, a, rfl, Runs.call o k x tr₁ a h₁, h₂⟩
      · rintro ⟨tr₁, tr₂, a, rfl, h₁, h₂⟩
        rcases (runs_call_iff _ _ _ _).mp h₁ with ⟨x, tr', rfl, hx⟩
        exact Runs.call o _ x _ b ((ih x (tr' ++ tr₂)).mpr ⟨tr', tr₂, a, rfl, hx, h₂⟩)

/-- A run of a checked program goes on with the value or stops with the error. -/
theorem runs_check_iff {ε : Type} (p : Prog Op Ans (Except ε α)) (wrap : ε → ε)
    (k : α → Prog Op Ans (Except ε β)) (tr : Trace Op Ans) (b : Except ε β) :
    Runs (check p wrap k) tr b ↔
      (∃ tr₁ tr₂ a, tr = tr₁ ++ tr₂ ∧ Runs p tr₁ (.ok a) ∧ Runs (k a) tr₂ b) ∨
      ∃ err, Runs p tr (.error err) ∧ b = .error (wrap err) := by
  change Runs (p >>= _) tr b ↔ _
  rw [runs_bind_iff]
  constructor
  · rintro ⟨tr₁, tr₂, r, rfl, h₁, h₂⟩
    cases r with
    | ok a => exact Or.inl ⟨tr₁, tr₂, a, rfl, h₁, h₂⟩
    | error err =>
        rcases (runs_ret_iff _ _ _).mp h₂ with ⟨rfl, rfl⟩
        exact Or.inr ⟨err, by rw [List.append_nil]; exact h₁, rfl⟩
  · rintro (⟨tr₁, tr₂, a, rfl, h₁, h₂⟩ | ⟨err, h, rfl⟩)
    · exact ⟨tr₁, tr₂, .ok a, rfl, h₁, h₂⟩
    · exact ⟨tr, [], .error err, (List.append_nil tr).symm, h, Runs.ret _⟩

/-- What a world may do on a call: the answer it gives and the world after. -/
abbrev Semantics (Op : Type) (Ans : Op → Type) (W : Type) :=
  W → (o : Op) → Ans o → W → Prop

/-- The traces a world admits, and where each leaves it. -/
inductive Steps (sem : Semantics Op Ans W) : W → Trace Op Ans → W → Prop
  | nil (w : W) : Steps sem w [] w
  | cons (w w' w'' : W) (o : Op) (x : Ans o) (tr : Trace Op Ans)
      (hstep : sem w o x w') (hrest : Steps sem w' tr w'') : Steps sem w (⟨o, x⟩ :: tr) w''

/-- Every call a program can make satisfies `P`. -/
def Calls (P : Op → Prop) : Prog Op Ans α → Prop
  | .ret _ => True
  | .call o k => P o ∧ ∀ x, Calls P (k x)

/-- A weaker bound. -/
theorem calls_mono (P P' : Op → Prop) (himp : ∀ o, P o → P' o) (p : Prog Op Ans α)
    (h : Calls P p) : Calls P' p := by
  induction p with
  | ret a => trivial
  | call o k ih => exact ⟨himp o h.1, fun x => ih x (h.2 x)⟩

/-- A bound that every operation meets. -/
theorem calls_of_forall (P : Op → Prop) (h : ∀ o, P o) (p : Prog Op Ans α) : Calls P p := by
  induction p with
  | ret a => trivial
  | call o k ih => exact ⟨h o, ih⟩

/-- One call. -/
theorem calls_op (P : Op → Prop) (o : Op) (h : P o) : Calls P (op o : Prog Op Ans (Ans o)) :=
  ⟨h, fun _ => trivial⟩

theorem calls_bind (P : Op → Prop) (p : Prog Op Ans α) (f : α → Prog Op Ans β)
    (hp : Calls P p) (hf : ∀ a, Calls P (f a)) : Calls P (p >>= f) := by
  induction p with
  | ret a => exact hf a
  | call o k ih => exact ⟨hp.1, fun x => ih x (hp.2 x)⟩

theorem calls_check {ε : Type} (P : Op → Prop) (p : Prog Op Ans (Except ε α)) (wrap : ε → ε)
    (k : α → Prog Op Ans (Except ε β)) (hp : Calls P p) (hk : ∀ a, Calls P (k a)) :
    Calls P (check p wrap k) := by
  refine calls_bind P p _ hp ?_
  intro r
  cases r with
  | ok a => exact hk a
  | error err => trivial

theorem calls_forEach (P : Op → Prop) (xs : List γ) (f : γ → Prog Op Ans Unit)
    (h : ∀ x ∈ xs, Calls P (f x)) : Calls P (forEach xs f) := by
  induction xs with
  | nil => trivial
  | cons x xs ih =>
      exact calls_bind P _ _ (h x List.mem_cons_self)
        fun _ => ih (fun y hy => h y (List.mem_cons_of_mem x hy))

/-- A world that the calls of a program do not change is not changed by it. -/
theorem steps_of_calls (sem : Semantics Op Ans W) (P : Op → Prop)
    (hP : ∀ w o x w', P o → sem w o x w' → w' = w) (p : Prog Op Ans α) (hp : Calls P p)
    (tr : Trace Op Ans) (a : α) (hr : Runs p tr a) (w w' : W) (hs : Steps sem w tr w') :
    w' = w := by
  induction hr generalizing w with
  | ret a =>
      cases hs
      rfl
  | call o k x tr a _ ih =>
      cases hs with
      | cons _ w₁ _ _ _ _ hstep hrest =>
          rw [← hP w o x w₁ hp.1 hstep]
          exact ih (hp.2 x) w₁ hrest

end Prog

end Bop
