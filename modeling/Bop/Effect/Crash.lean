import Bop.Effect.Triple

/-!
# Programs that are Stopped

A program may be killed, or the machine under it may go down, and then it has
made some of its calls and perhaps a part of the next one. Nothing runs
afterwards to tidy up: what the world is like then is what it is when the
program is started again.

A program withstands this with an invariant, if the invariant holds wherever it
is stopped, and if it does what its triple says whenever it is not. Such a
triple is put together as others are, with one more thing to show of every call:
what the call leaves half done still has the invariant.

## Main definitions

* `Cut`: The worlds a program may be stopped in.
* `Withstands`: A triple with an invariant at every stop.

## Theorems

* `cut_bind`, `cut_of_bind`: Where a composition is stopped.
* `withstands_call`, `withstands_bind`, `withstands_check`: The rules.
* `withstands_quiet`: Calls that do nothing to the world.
* `cut_runs`: Any number of runs, each stopped somewhere.
-/

namespace Bop

namespace Prog

variable {Op : Type} {Ans : Op → Type} {α β W : Type}

/-- The worlds a program may be stopped in: before a call, in the middle of one,
    which has then done what `half` says, or after the last. -/
inductive Cut (sem : Semantics Op Ans W) (half : W → Op → W → Prop) : Prog Op Ans α → W → W → Prop
  | before (p : Prog Op Ans α) (w : W) : Cut sem half p w w
  | amid (o : Op) (k : Ans o → Prog Op Ans α) (w w' : W) (h : half w o w') :
      Cut sem half (.call o k) w w'
  | after (o : Op) (k : Ans o → Prog Op Ans α) (x : Ans o) (w u w' : W) (hstep : sem w o x u)
      (hrest : Cut sem half (k x) u w') : Cut sem half (.call o k) w w'

/-- From a world as in `pre`, the program returns as `post` says, and wherever it
    is stopped there is `inv`. -/
def Withstands (sem : Semantics Op Ans W) (half : W → Op → W → Prop) (inv pre : W → Prop)
    (p : Prog Op Ans α) (post : α → W → Prop) : Prop :=
  Triple sem pre p post ∧ ∀ w w', pre w → Cut sem half p w w' → inv w'

section Rules

variable {sem : Semantics Op Ans W} {half : W → Op → W → Prop} {inv pre : W → Prop}

/-- A composition is stopped in its first half, or in its second. -/
theorem cut_bind (p : Prog Op Ans α) (f : α → Prog Op Ans β) (w w' : W)
    (h : Cut sem half (p >>= f) w w') :
    Cut sem half p w w' ∨ ∃ a u, Performs sem p w a u ∧ Cut sem half (f a) u w' := by
  induction p generalizing w with
  | ret a => exact Or.inr ⟨a, w, ⟨[], Runs.ret a, Steps.nil w⟩, h⟩
  | call o k ih =>
      rw [call_bind] at h
      cases h with
      | before _ _ => exact Or.inl (Cut.before _ _)
      | amid _ _ _ _ hhalf => exact Or.inl (Cut.amid o k w w' hhalf)
      | after _ _ x _ u _ hstep hrest =>
          rcases ih x u hrest with hfirst | ⟨a, v, ⟨tr, hr, hs⟩, hsecond⟩
          · exact Or.inl (Cut.after o k x w u w' hstep hfirst)
          · exact Or.inr ⟨a, v, ⟨⟨o, x⟩ :: tr, Runs.call o k x tr a hr,
              Steps.cons w u v o x tr hstep hs⟩, hsecond⟩

/-- Stopped after its first half. -/
theorem cut_of_bind (p : Prog Op Ans α) (f : α → Prog Op Ans β) (w u w' : W) (a : α)
    (h : Performs sem p w a u) (hrest : Cut sem half (f a) u w') : Cut sem half (p >>= f) w w' := by
  rcases h with ⟨tr, hr, hs⟩
  induction hr generalizing w with
  | ret a =>
      cases hs
      exact hrest
  | call o k x tr a _ ih =>
      cases hs with
      | cons _ v _ _ _ _ hstep hsteps => exact Cut.after o _ x w v w' hstep (ih v hrest hsteps)

/-- Returning. -/
theorem withstands_ret {post : α → W → Prop} (a : α) (hinv : ∀ w, pre w → inv w)
    (h : ∀ w, pre w → post a w) : Withstands sem half inv pre (.ret a) post := by
  refine ⟨triple_ret a h, fun w w' hw hcut => ?_⟩
  cases hcut
  exact hinv w hw

/-- A call, of which half may have been done. -/
theorem withstands_call {post : α → W → Prop} (o : Op) (mid : Ans o → W → Prop)
    (k : Ans o → Prog Op Ans α) (hinv : ∀ w, pre w → inv w)
    (hhalf : ∀ w w', pre w → half w o w' → inv w')
    (h : ∀ w x w', pre w → sem w o x w' → mid x w')
    (hk : ∀ x, Withstands sem half inv (mid x) (k x) post) :
    Withstands sem half inv pre (.call o k) post := by
  refine ⟨triple_call o mid k h fun x => (hk x).1, fun w w' hw hcut => ?_⟩
  cases hcut with
  | before _ _ => exact hinv w hw
  | amid _ _ _ _ hdone => exact hhalf w w' hw hdone
  | after _ _ x _ u _ hstep hrest => exact (hk x).2 u w' (h w x u hw hstep) hrest

/-- A single call. -/
theorem withstands_op (o : Op) (post : Ans o → W → Prop) (hinv : ∀ w, pre w → inv w)
    (hhalf : ∀ w w', pre w → half w o w' → inv w') (hpost : ∀ x w, post x w → inv w)
    (h : ∀ w x w', pre w → sem w o x w' → post x w') :
    Withstands sem half inv pre (op o) post :=
  withstands_call o post _ hinv hhalf h fun x => withstands_ret x (hpost x) fun _ hw => hw

/-- A sequence goes on from whatever its first half left. -/
theorem withstands_bind {post : β → W → Prop} (mid : α → W → Prop) (p : Prog Op Ans α)
    (f : α → Prog Op Ans β) (hp : Withstands sem half inv pre p mid)
    (hf : ∀ a, Withstands sem half inv (mid a) (f a) post) :
    Withstands sem half inv pre (p >>= f) post := by
  refine ⟨triple_bind mid p f hp.1 fun a => (hf a).1, fun w w' hw hcut => ?_⟩
  rcases cut_bind p f w w' hcut with hfirst | ⟨a, u, hdone, hsecond⟩
  · exact hp.2 w w' hw hfirst
  · exact (hf a).2 u w' (hp.1 w a u hw hdone) hsecond

/-- A checked call goes on where it succeeded and stops where it failed. -/
theorem withstands_check {ε : Type} {post : Except ε β → W → Prop} (mid : Except ε α → W → Prop)
    (p : Prog Op Ans (Except ε α)) (wrap : ε → ε) (k : α → Prog Op Ans (Except ε β))
    (hp : Withstands sem half inv pre p mid)
    (hok : ∀ a, Withstands sem half inv (mid (.ok a)) (k a) post)
    (hinv : ∀ err w, mid (.error err) w → inv w)
    (herr : ∀ err w, mid (.error err) w → post (.error (wrap err)) w) :
    Withstands sem half inv pre (check p wrap k) post := by
  refine withstands_bind mid p _ hp fun r => ?_
  cases r with
  | ok a => exact hok a
  | error err => exact withstands_ret _ (hinv err) (herr err)

/-- Weakening. -/
theorem withstands_weaken {inv' pre' : W → Prop} {post post' : α → W → Prop}
    {p : Prog Op Ans α} (h : Withstands sem half inv' pre' p post) (hpre : ∀ w, pre w → pre' w)
    (hinv : ∀ w, inv' w → inv w) (hpost : ∀ a w, post a w → post' a w) :
    Withstands sem half inv pre p post' :=
  ⟨fun w a w' hw hdone => hpost a w' (h.1 w a w' (hpre w hw) hdone),
    fun w w' hw hcut => hinv w' (h.2 w w' (hpre w hw) hcut)⟩

/-- What is known at the start. -/
theorem withstands_fact {post : α → W → Prop} {p : Prog Op Ans α} (φ : Prop)
    (h : φ → Withstands sem half inv pre p post) :
    Withstands sem half inv (fun w => pre w ∧ φ) p post :=
  ⟨fun w a w' hw hdone => (h hw.2).1 w a w' hw.1 hdone,
    fun w w' hw hcut => (h hw.2).2 w w' hw.1 hcut⟩

/-- Calls that do nothing to the world, whole or half. -/
theorem withstands_quiet (P : Op → Prop) (hsem : ∀ w o x w', P o → sem w o x w' → w' = w)
    (hhalf : ∀ w o w', P o → half w o w' → w' = w) (hinv : ∀ w, pre w → inv w)
    (p : Prog Op Ans α) (hp : Calls P p) : Withstands sem half inv pre p (fun _ => pre) := by
  induction p with
  | ret a => exact withstands_ret a hinv fun _ hw => hw
  | call o k ih =>
      refine withstands_call o (fun _ => pre) k hinv (fun w w' hw hdone => ?_)
        (fun w x w' hw hstep => ?_) fun x => ih x (hp.2 x)
      · rw [hhalf w o w' hp.1 hdone]
        exact hinv w hw
      · rw [hsem w o x w' hp.1 hstep]
        exact hw

end Rules

/-- What every run keeps wherever it is stopped, any number of them keep. -/
theorem cut_runs {sem : Semantics Op Ans W} {half : W → Op → W → Prop} {inv : W → Prop}
    (P : Prog Op Ans α → Prop)
    (h : ∀ p, P p → ∀ w w', inv w → Cut sem half p w w' → inv w') (w w' : W)
    (hreach : Relation.ReflTransGen (fun u v => ∃ p, P p ∧ Cut sem half p u v) w w')
    (hw : inv w) : inv w' := by
  induction hreach with
  | refl => exact hw
  | tail _ hstep ih =>
      rcases hstep with ⟨p, hp, hcut⟩
      exact h p hp _ _ ih hcut

end Prog

end Bop
