import Bop.Effect.Interp

/-!
# Triples

What a program does to the world, from the precondition on its first state to
the postcondition on its result and its last. A triple is about the runs that
end, and it is about all of them: whatever the calls answer and whichever of
their effects they have.

The rules follow the program. A call is one step. A sequence goes on from
whatever its first half left. A program whose calls all keep a property keeps
it. A call that is implemented by a program of a lower level does what that
program does.

## Main definitions

* `Performs`: What a program can do to the world.
* `Triple`: A precondition, a program and a postcondition.

## Theorems

* `triple_call`, `triple_bind`: One step, and a sequence.
* `triple_check`: A checked call goes on or stops.
* `triple_deferring`: A clean-up runs whatever the body returned.
* `triple_of_calls`: What every call keeps, the program keeps.
-/

namespace Bop

namespace Prog

variable {Op : Type} {Ans : Op → Type} {α β W : Type}

/-- The program can return this and leave the world so. -/
def Performs (sem : Semantics Op Ans W) (p : Prog Op Ans α) (w : W) (a : α) (w' : W) : Prop :=
  ∃ tr, Runs p tr a ∧ Steps sem w tr w'

/-- Whenever the program starts as `pre` says and returns, `post` holds. -/
def Triple (sem : Semantics Op Ans W) (pre : W → Prop) (p : Prog Op Ans α)
    (post : α → W → Prop) : Prop :=
  ∀ w a w', pre w → Performs sem p w a w' → post a w'

section Rules

variable {sem : Semantics Op Ans W} {pre : W → Prop}

/-- Returning changes nothing. -/
theorem triple_ret {post : α → W → Prop} (a : α) (h : ∀ w, pre w → post a w) :
    Triple sem pre (.ret a) post := by
  rintro w b w' hw ⟨tr, hr, hs⟩
  rcases (runs_ret_iff _ _ _).mp hr with ⟨rfl, rfl⟩
  cases hs
  exact h w hw

/-- Strengthening the precondition. -/
theorem triple_pre {pre' : W → Prop} {p : Prog Op Ans α} {post : α → W → Prop}
    (h : Triple sem pre p post) (himp : ∀ w, pre' w → pre w) : Triple sem pre' p post :=
  fun w a w' hw => h w a w' (himp w hw)

/-- A call is one step, and the rest goes on from whatever it left. -/
theorem triple_call {post : α → W → Prop} (o : Op) (mid : Ans o → W → Prop)
    (k : Ans o → Prog Op Ans α) (h : ∀ w x w', pre w → sem w o x w' → mid x w')
    (hk : ∀ x, Triple sem (mid x) (k x) post) : Triple sem pre (.call o k) post := by
  rintro w a w' hw ⟨tr, hr, hs⟩
  rcases (runs_call_iff _ _ _ _).mp hr with ⟨x, tr', rfl, hr'⟩
  cases hs with
  | cons _ v _ _ _ _ hstep hrest => exact hk x v a w' (h w x v hw hstep) ⟨tr', hr', hrest⟩

/-- A single call. -/
theorem triple_op (o : Op) (post : Ans o → W → Prop)
    (h : ∀ w x w', pre w → sem w o x w' → post x w') : Triple sem pre (op o) post := by
  rintro w a w' hw ⟨tr, hr, hs⟩
  rcases (runs_call_iff _ _ _ _).mp hr with ⟨x, tr', rfl, hr'⟩
  rcases (runs_ret_iff _ _ _).mp hr' with ⟨rfl, rfl⟩
  exact h w a w' hw (steps_single sem o a w w' hs)

/-- A sequence goes on from whatever its first half left. -/
theorem triple_bind {post : β → W → Prop} (mid : α → W → Prop) (p : Prog Op Ans α)
    (f : α → Prog Op Ans β) (hp : Triple sem pre p mid) (hf : ∀ a, Triple sem (mid a) (f a) post) :
    Triple sem pre (p >>= f) post := by
  rintro w b w' hw ⟨tr, hr, hs⟩
  rcases (runs_bind_iff _ _ _ _).mp hr with ⟨tr₁, tr₂, a, rfl, hr₁, hr₂⟩
  rcases (steps_append_iff sem tr₁ tr₂ w w').mp hs with ⟨u, hs₁, hs₂⟩
  exact hf a u b w' (hp w a u hw ⟨tr₁, hr₁, hs₁⟩) ⟨tr₂, hr₂, hs₂⟩

/-- A checked call goes on where it succeeded and stops where it failed. -/
theorem triple_check {ε : Type} {post : Except ε β → W → Prop} (mid : Except ε α → W → Prop)
    (p : Prog Op Ans (Except ε α)) (wrap : ε → ε) (k : α → Prog Op Ans (Except ε β))
    (hp : Triple sem pre p mid) (hok : ∀ a, Triple sem (mid (.ok a)) (k a) post)
    (herr : ∀ err w, mid (.error err) w → post (.error (wrap err)) w) :
    Triple sem pre (check p wrap k) post := by
  refine triple_bind mid p _ hp fun r => ?_
  cases r with
  | ok a => exact hok a
  | error err => exact triple_ret _ (herr err)

/-- A clean-up runs whatever the body returned. -/
theorem triple_deferring {post : α → W → Prop} (mid : α → W → Prop) (cleanup : Prog Op Ans Unit)
    (body : Prog Op Ans α) (hbody : Triple sem pre body mid)
    (hcleanup : ∀ a, Triple sem (mid a) cleanup (fun _ => post a)) :
    Triple sem pre (deferring cleanup body) post := by
  refine triple_bind mid body _ hbody fun a => ?_
  exact triple_bind (fun _ => post a) cleanup _ (hcleanup a) fun _ => triple_ret a fun _ h => h

/-- What every call keeps, the program keeps. -/
theorem triple_of_calls (P : Op → Prop) (inv : W → Prop)
    (hkeep : ∀ w o x w', P o → sem w o x w' → inv w → inv w') (p : Prog Op Ans α)
    (hp : Calls P p) : Triple sem inv p (fun _ => inv) := by
  induction p with
  | ret a => exact triple_ret a fun _ h => h
  | call o k ih =>
      refine triple_call o (fun _ => inv) k (fun w x w' hw hs => ?_) fun x => ih x (hp.2 x)
      exact hkeep w o x w' hp.1 hs hw

end Rules

end Prog

end Bop
