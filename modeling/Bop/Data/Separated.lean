import Mathlib.Data.List.Basic
import Mathlib.Data.List.Infix

/-!
# Lists around a Separator

Two texts written on either side of a separator can be told apart only as far
as the separator can. A text that holds it may be cut in another place, and
then the part between the two cuts belongs to one text on one reading and to
the other on the other.

## Main definitions

* `Straddles`: Two cuts of one list at different places.

## Theorems

* `append_sep_inj_iff`: Lists joined at a separator are equal when their parts
  are, or when they are two cuts of one list.
* `append_sep_inj_of_notMem`: A last part without the separator leaves one cut.
-/

namespace Bop

variable {α : Type}

/-- The same list cut at two places: `a` and `b` around the first cut, `c` and
    `d` around a later one. -/
def Straddles (sep : α) (a b c d : List α) : Prop :=
  ∃ x, c = a ++ sep :: x ∧ b = x ++ sep :: d

/-- Two cuts of one list are joined to the same list. -/
theorem Straddles.join_eq (sep : α) (a b c d : List α) (h : Straddles sep a b c d) :
    a ++ sep :: b = c ++ sep :: d := by
  rcases h with ⟨x, rfl, rfl⟩
  rw [List.append_assoc, List.cons_append]

/-- Lists joined at a separator are equal when their parts are, or when they
    are two cuts of one list. -/
theorem append_sep_inj_iff (sep : α) (a b c d : List α) :
    a ++ sep :: b = c ++ sep :: d ↔
      (a = c ∧ b = d) ∨ Straddles sep a b c d ∨ Straddles sep c d a b := by
  constructor
  · intro h
    rcases List.append_eq_append_iff.mp h with ⟨x, hc, hb⟩ | ⟨x, ha, hd⟩
    · -- The first cut is not after the second: what lies between begins at it.
      cases x with
      | nil => exact .inl ⟨(hc.trans (List.append_nil a)).symm, (List.cons.inj hb).2⟩
      | cons y x =>
          rcases List.cons.inj hb with ⟨rfl, hrest⟩
          exact .inr (.inl ⟨x, hc, hrest⟩)
    · cases x with
      | nil => exact .inl ⟨ha.trans (List.append_nil c), ((List.cons.inj hd).2).symm⟩
      | cons y x =>
          rcases List.cons.inj hd with ⟨rfl, hrest⟩
          exact .inr (.inr ⟨x, ha, hrest⟩)
  · rintro (⟨rfl, rfl⟩ | h | h)
    · rfl
    · exact h.join_eq
    · exact h.join_eq.symm

/-- A last part without the separator leaves one cut. -/
theorem append_sep_inj_of_notMem (sep : α) (a b c d : List α) (hb : sep ∉ b) (hd : sep ∉ d) :
    a ++ sep :: b = c ++ sep :: d ↔ a = c ∧ b = d := by
  rw [append_sep_inj_iff]
  constructor
  · rintro (h | ⟨x, -, rfl⟩ | ⟨x, -, rfl⟩)
    · exact h
    · -- Any other cut would put a separator into a last part.
      exact absurd (List.mem_append_right x List.mem_cons_self) hb
    · exact absurd (List.mem_append_right x List.mem_cons_self) hd
  · exact .inl

end Bop
