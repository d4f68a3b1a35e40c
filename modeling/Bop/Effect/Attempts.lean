import Mathlib.Data.List.Basic
import Mathlib.Data.List.Infix
import Mathlib.Data.List.Nodup

/-!
# Steps That May Fail

A sequence of steps of which each is attempted only if all before it
succeeded. What was attempted is then an initial part of the sequence, up to
and with the first failure, and from it the usual statements follow: a step
was attempted exactly if the ones before it succeeded, and a step that comes
after another was never attempted without it.

## Main definitions

* `attempted`: The steps that were attempted.
* `Precedes`: Something never occurs without something else before it.

## Theorems

* `mem_attempted_iff`: When a step was attempted.
* `precedes_attempted`: What precedes a step precedes its attempt.
-/

namespace Bop

variable {A : Type}

/-- The steps that were attempted, given which of them succeed. -/
def attempted : List (A × Bool) → List A
  | [] => []
  | (a, ok) :: rest => a :: if ok then attempted rest else []

/-- `b` never occurs without an `a` before it. -/
def Precedes (a b : A) (xs : List A) : Prop :=
  ∀ before after, xs = before ++ b :: after → a ∈ before

/-- Nothing is attempted out of order. -/
theorem attempted_isPrefix (steps : List (A × Bool)) : attempted steps <+: steps.map Prod.fst := by
  induction steps with
  | nil => exact List.prefix_refl _
  | cons s rest ih =>
      rcases s with ⟨a, ok⟩
      rw [attempted, List.map_cons, List.prefix_cons_inj]
      cases ok with
      | false => exact List.nil_prefix
      | true => exact ih

/-- A step was attempted exactly if the ones before it succeeded. -/
theorem mem_attempted_iff (before after : List (A × Bool)) (s : A × Bool)
    (h : ((before ++ s :: after).map Prod.fst).Nodup) :
    s.1 ∈ attempted (before ++ s :: after) ↔ ∀ t ∈ before, t.2 = true := by
  induction before with
  | nil =>
      rw [List.nil_append, attempted]
      exact ⟨fun _ t ht => absurd ht List.not_mem_nil, fun _ => List.mem_cons_self⟩
  | cons t before ih =>
      rcases t with ⟨a, ok⟩
      rw [List.cons_append, List.map_cons, List.nodup_cons] at h
      -- The step is not the first one, for it is not repeated.
      have hne : s.1 ≠ a := by
        rintro rfl
        exact h.1 (List.mem_map.mpr ⟨s, List.mem_append_right _ List.mem_cons_self, rfl⟩)
      rw [List.cons_append, attempted, List.mem_cons, List.forall_mem_cons]
      cases ok with
      | false =>
          -- The first step failed, so nothing behind it is attempted.
          rw [if_neg Bool.false_ne_true]
          constructor
          · rintro (h' | h')
            · exact absurd h' hne
            · cases h'
          · exact fun h' => absurd h'.1 Bool.false_ne_true
      | true =>
          rw [if_pos rfl, ih h.2]
          exact ⟨fun h' => ⟨rfl, h'.resolve_left hne⟩, fun h' => Or.inr h'.2⟩

section Order

variable {a b : A} {xs ys : List A}

theorem precedes_of_not_mem (h : b ∉ xs) : Precedes a b xs := by
  rintro before after rfl
  exact absurd (List.mem_append_right _ List.mem_cons_self) h

theorem precedes_append (hx : Precedes a b xs) (hy : Precedes a b ys) :
    Precedes a b (xs ++ ys) := by
  intro before after h
  rcases List.append_eq_append_iff.mp h with ⟨rest, rfl, hrest⟩ | ⟨rest, hxs, hrest⟩
  · exact List.mem_append_right _ (hy rest after hrest)
  · rcases rest with _ | ⟨c, rest⟩
    · -- The occurrence is the first of the second list.
      rw [List.append_nil] at hxs
      exact absurd (hy [] after hrest.symm) List.not_mem_nil
    · rw [List.cons_append, List.cons.injEq] at hrest
      rw [← hrest.1] at hxs
      exact hx before rest hxs

theorem precedes_flatMap {B : Type} (f : B → List A) (bs : List B)
    (h : ∀ x ∈ bs, Precedes a b (f x)) : Precedes a b (bs.flatMap f) := by
  induction bs with
  | nil => exact precedes_of_not_mem List.not_mem_nil
  | cons x bs ih =>
      rw [List.flatMap_cons]
      exact precedes_append (h x List.mem_cons_self)
        (ih (fun y hy => h y (List.mem_cons_of_mem x hy)))

/-- What precedes a step precedes its attempt. -/
theorem precedes_attempted (steps : List (A × Bool)) (h : Precedes a b (steps.map Prod.fst)) :
    Precedes a b (attempted steps) := by
  intro before after heq
  rcases attempted_isPrefix steps with ⟨rest, hrest⟩
  refine h before (after ++ rest) ?_
  rw [← hrest, heq, List.append_assoc, List.cons_append]

end Order

end Bop
