import Bop.Effect.Monitor

/-!
# Credit

A program that claims only what it has earned. Some answers earn something, some
calls claim something, and a monitor that collects what was earned allows a claim
only of that. So whatever is claimed at any moment of a run was earned earlier in
the same run.

## Main definitions

* `crediting`: The monitor that collects what was earned.

## Theorems

* `obeys_crediting`, `obeys_earning`: The rules for a call.
* `earned_of_runs`: What is claimed was earned before.
-/

namespace Bop

namespace Prog

variable {Op : Type} {Ans : Op → Type} {α K : Type} [DecidableEq K]

/-- What was earned is collected, and only that may be claimed. -/
def crediting (earns : (o : Op) → Ans o → Option K) (claims : Op → Option K) :
    Monitor Op Ans (List K) := fun earned o x =>
  if (claims o).all (fun k => decide (k ∈ earned)) = true then
    some (earned ++ (earns o x).toList)
  else none

variable {earns : (o : Op) → Ans o → Option K} {claims : Op → Option K}

/-- A call that claims what was earned. -/
theorem obeys_crediting (earned : List K) (o : Op) (k : Ans o → Prog Op Ans α)
    (post : α → List K → Prop) (hclaim : ∀ c, claims o = some c → c ∈ earned)
    (h : ∀ x, Obeys (crediting earns claims) (earned ++ (earns o x).toList) (k x) post) :
    Obeys (crediting earns claims) earned (.call o k) post := by
  refine fun x => ⟨_, if_pos ?_, h x⟩
  cases hc : claims o with
  | none => rfl
  | some c => exact decide_eq_true (hclaim c hc)

/-- A call on its own. -/
theorem obeys_earning (earned : List K) (o : Op) (hclaim : ∀ c, claims o = some c → c ∈ earned) :
    Obeys (crediting earns claims) earned (op o)
      (fun x earned' => earned' = earned ++ (earns o x).toList) :=
  obeys_crediting earned o .ret _ hclaim fun _ => rfl

/-- What is claimed was earned before, or it was there from the start. -/
theorem earned_of_watch (earned earned' : List K) (tr : Trace Op Ans)
    (h : watch (crediting earns claims) earned tr = some earned') (e : Event Op Ans) (he : e ∈ tr)
    (c : K) (hc : claims e.1 = some c) :
    c ∈ earned ∨ ∃ e' ∈ tr, earns e'.1 e'.2 = some c := by
  induction tr generalizing earned with
  | nil => exact absurd he List.not_mem_nil
  | cons first rest ih =>
      simp only [watch, crediting] at h
      split at h
      · cases h
      · next earned₁ hfirst =>
          split at hfirst
          · next hall =>
              cases hfirst
              rcases List.mem_cons.mp he with rfl | he
              · rw [hc] at hall
                exact Or.inl (of_decide_eq_true hall)
              · rcases ih _ h he with hmem | ⟨e', he', hearn⟩
                · rcases List.mem_append.mp hmem with hmem | hmem
                  · exact Or.inl hmem
                  · exact Or.inr ⟨first, List.mem_cons_self, Option.mem_toList.mp hmem⟩
                · exact Or.inr ⟨e', List.mem_cons_of_mem _ he', hearn⟩
          · cases hfirst

/-- At any moment of a run, what has been claimed was earned before. -/
theorem earned_of_runs (p : Prog Op Ans α) (post : α → List K → Prop)
    (h : Obeys (crediting earns claims) [] p post) (before after : Trace Op Ans) (a : α)
    (hr : Runs p (before ++ after) a) (e : Event Op Ans) (he : e ∈ before) (c : K)
    (hc : claims e.1 = some c) : ∃ e' ∈ before, earns e'.1 e'.2 = some c := by
  rcases obeys_runs _ p [] post h _ a hr with ⟨earned, hwatch, _⟩
  rw [watch_append] at hwatch
  rcases Option.bind_eq_some_iff.mp hwatch with ⟨earned', hbefore, _⟩
  exact (earned_of_watch [] earned' before hbefore e he c hc).resolve_left List.not_mem_nil

end Prog

end Bop
