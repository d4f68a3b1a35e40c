import Mathlib.Data.List.AList
import Mathlib.Data.List.Induction

/-!
# Lists without Repetition

A list that takes an element unless it has taken it before, with a map of what
it has taken beside it. Going through several groups of elements, it takes
each from the first group that has it, so its order is the order of those
groups, and within one group the group's own.

## Main definitions

* `Distinct`: A list without repetition and the map of its elements.
* `Distinct.add`, `Distinct.ofList`: Taking one element, and several.
* `ComesBefore`: The order in which elements first occur in a list.
* `firstGroup`, `Earlier`: The first group that has an element, and the order
  this gives.

## Theorems

* `Distinct.mem_ofList`: Every element is taken.
* `Distinct.pairwise_ofList`: Elements are taken in the order in which they
  first occur.
* `Distinct.pairwise_flatten`: Elements of groups are taken in the order of the
  groups that first have them.
* `Distinct.sublist_flatten`: One that comes before another in every group that
  has the other is taken before it.
-/

namespace Bop

variable {α : Type} [DecidableEq α]

/-- A list without repetition, with a map that says what is in it. -/
structure Distinct (α : Type) [DecidableEq α] where
  items : List α
  seen : AList (fun _ : α => Bool)
  nodup : items.Nodup
  /-- The map says what the list holds. -/
  seen_iff : ∀ a, (seen.lookup a).getD false = true ↔ a ∈ items

/-! ### Groups -/

/-- `a` first occurs before `b`. -/
def ComesBefore (xs : List α) (a b : α) : Prop := xs.idxOf a < xs.idxOf b

instance (xs : List α) (a b : α) : Decidable (ComesBefore xs a b) :=
  inferInstanceAs (Decidable (_ < _))

/-- The first group that has the element. -/
def firstGroup (groups : List (List α)) (a : α) : Nat := groups.findIdx (fun g => a ∈ g)

/-- The first group that has `a` comes before the first that has `b`, or it is
    the same and has `a` before `b`. -/
def Earlier (groups : List (List α)) (a b : α) : Prop :=
  firstGroup groups a < firstGroup groups b ∨
    firstGroup groups a = firstGroup groups b ∧
      ∃ g, groups[firstGroup groups a]? = some g ∧ ComesBefore g a b

theorem firstGroup_cons_of_mem (g : List α) (groups : List (List α)) (a : α) (h : a ∈ g) :
    firstGroup (g :: groups) a = 0 := by
  simp only [firstGroup, List.findIdx_cons, h, decide_true, cond_true]

theorem firstGroup_cons_of_notMem (g : List α) (groups : List (List α)) (a : α) (h : a ∉ g) :
    firstGroup (g :: groups) a = firstGroup groups a + 1 := by
  simp only [firstGroup, List.findIdx_cons, h, decide_false, cond_false]

/-- What first occurs earlier is in an earlier group, or earlier in its group. -/
theorem earlier_of_comesBefore (groups : List (List α)) (a b : α)
    (h : ComesBefore groups.flatten a b) : Earlier groups a b := by
  induction groups with
  | nil => exact absurd h (Nat.lt_irrefl 0)
  | cons g groups ih =>
      rw [ComesBefore, List.flatten_cons, List.idxOf_append, List.idxOf_append] at h
      by_cases ha : a ∈ g
      · rw [if_pos ha] at h
        by_cases hb : b ∈ g
        · rw [if_pos hb] at h
          have hzero := firstGroup_cons_of_mem g groups a ha
          refine Or.inr ⟨hzero.trans (firstGroup_cons_of_mem g groups b hb).symm, g, ?_, h⟩
          rw [hzero]
          rfl
        · left
          rw [firstGroup_cons_of_mem g groups a ha, firstGroup_cons_of_notMem g groups b hb]
          omega
      · rw [if_neg ha] at h
        -- The second comes after the first, so it is not in this group either.
        have hb : b ∉ g := by
          intro hb
          have hlt := List.idxOf_lt_length_of_mem hb
          rw [if_pos hb] at h
          omega
        rw [if_neg hb] at h
        rw [Earlier, firstGroup_cons_of_notMem g groups a ha,
          firstGroup_cons_of_notMem g groups b hb]
        have hrest : ComesBefore groups.flatten a b := by
          rw [ComesBefore]
          omega
        rcases ih hrest with hlt | ⟨heq, g', hg', hidx⟩
        · exact Or.inl (by omega)
        · exact Or.inr ⟨by omega, g', hg', hidx⟩

/-- What precedes an element that a list has is in the list too. -/
theorem mem_of_comesBefore (xs : List α) (a b : α) (hb : b ∈ xs) (h : ComesBefore xs a b) :
    a ∈ xs :=
  List.idxOf_lt_length_iff.mp (Nat.lt_trans h (List.idxOf_lt_length_of_mem hb))

/-- Where every group that has `b` has `a` before it, `a` first occurs before
    `b`. -/
theorem comesBefore_flatten (groups : List (List α)) (a b : α) (hb : b ∈ groups.flatten)
    (h : ∀ g ∈ groups, b ∈ g → ComesBefore g a b) : ComesBefore groups.flatten a b := by
  induction groups with
  | nil => exact absurd hb List.not_mem_nil
  | cons g groups ih =>
      rw [ComesBefore, List.flatten_cons, List.idxOf_append, List.idxOf_append]
      by_cases hg : b ∈ g
      · have hlt := h g List.mem_cons_self hg
        rw [if_pos hg, if_pos (mem_of_comesBefore g a b hg hlt)]
        exact hlt
      · have hrest : b ∈ groups.flatten := (List.mem_append.mp hb).resolve_left hg
        have hlt := ih hrest fun g' hg' => h g' (List.mem_cons_of_mem g hg')
        rw [ComesBefore] at hlt
        rw [if_neg hg]
        by_cases ha : a ∈ g
        · have hlen := List.idxOf_lt_length_of_mem ha
          rw [if_pos ha]
          omega
        · rw [if_neg ha]
          omega

/-- Of two elements of a sorted list that are not in one order the other is
    theirs. -/
theorem pair_sublist {β : Type} {R : β → β → Prop} (xs : List β) (a b : β) (ha : a ∈ xs)
    (hb : b ∈ xs) (hne : a ≠ b) (hxs : xs.Pairwise R) (hR : ¬ R b a) : [a, b].Sublist xs := by
  induction xs with
  | nil => exact absurd ha List.not_mem_nil
  | cons x xs ih =>
      rcases List.pairwise_cons.mp hxs with ⟨hx, hrest⟩
      rcases List.mem_cons.mp ha with rfl | hax
      · have hb' : b ∈ xs := (List.mem_cons.mp hb).resolve_left hne.symm
        exact (List.singleton_sublist.mpr hb').cons_cons a
      · rcases List.mem_cons.mp hb with rfl | hbx
        · exact absurd (hx a hax) hR
        · exact (ih hax hbx hrest).cons x

namespace Distinct

/-- Nothing taken yet. -/
def empty : Distinct α where
  items := []
  seen := ∅
  nodup := List.nodup_nil
  seen_iff := fun a => by simp only [AList.lookup_empty, Option.getD_none, Bool.false_eq_true,
    List.not_mem_nil]

/-- The element at the end of the list, unless it was taken before. -/
def add (d : Distinct α) (a : α) : Distinct α :=
  if h : (d.seen.lookup a).getD false = true then d
  else
    { items := d.items ++ [a]
      seen := d.seen.insert a true
      nodup := by
        rw [d.seen_iff] at h
        exact List.nodup_append.mpr ⟨d.nodup, List.nodup_singleton a,
          fun b hb c hc heq => h (List.mem_singleton.mp hc ▸ heq ▸ hb)⟩
      seen_iff := by
        intro b
        rw [List.mem_append, List.mem_singleton, ← d.seen_iff b]
        by_cases hb : b = a
        · subst hb
          simp only [AList.lookup_insert, Option.getD_some, or_true]
        · rw [AList.lookup_insert_ne hb]
          simp only [hb, or_false] }

/-- The elements of a list, one after the other. -/
def addAll (d : Distinct α) (xs : List α) : Distinct α := xs.foldl add d

/-- What a list holds, without repetition. -/
def ofList (xs : List α) : Distinct α := empty.addAll xs

theorem items_add_of_mem (d : Distinct α) (a : α) (h : a ∈ d.items) :
    (d.add a).items = d.items := by
  rw [add, dif_pos ((d.seen_iff a).mpr h)]

theorem items_add_of_notMem (d : Distinct α) (a : α) (h : a ∉ d.items) :
    (d.add a).items = d.items ++ [a] := by
  rw [add, dif_neg (fun hseen => h ((d.seen_iff a).mp hseen))]

theorem mem_add (d : Distinct α) (a b : α) : b ∈ (d.add a).items ↔ b ∈ d.items ∨ b = a := by
  by_cases h : a ∈ d.items
  · rw [items_add_of_mem d a h]
    constructor
    · exact Or.inl
    · rintro (hb | rfl)
      · exact hb
      · exact h
  · rw [items_add_of_notMem d a h, List.mem_append, List.mem_singleton]

theorem ofList_append (xs ys : List α) : ofList (xs ++ ys) = (ofList xs).addAll ys := by
  rw [ofList, addAll, List.foldl_append]
  rfl

/-- Every element is taken. -/
theorem mem_ofList (xs : List α) (a : α) : a ∈ (ofList xs).items ↔ a ∈ xs := by
  induction xs using List.reverseRecOn with
  | nil => exact Iff.rfl
  | append_singleton xs x ih =>
      rw [ofList_append]
      change a ∈ ((ofList xs).add x).items ↔ _
      rw [mem_add, ih, List.mem_append, List.mem_singleton]

/-- Elements are taken in the order in which they first occur. -/
theorem pairwise_ofList (xs : List α) :
    (ofList xs).items.Pairwise (ComesBefore xs) := by
  induction xs using List.reverseRecOn with
  | nil => exact List.Pairwise.nil
  | append_singleton xs x ih =>
      -- Where the elements so far first occur does not change.
      have hfirst : ∀ a ∈ (ofList xs).items, (xs ++ [x]).idxOf a = xs.idxOf a := by
        intro a ha
        rw [List.idxOf_append, if_pos ((mem_ofList xs a).mp ha)]
      have hbefore : (ofList xs).items.Pairwise (ComesBefore (xs ++ [x])) := by
        refine ih.imp_of_mem fun ha hb hlt => ?_
        rw [ComesBefore, hfirst _ ha, hfirst _ hb]
        exact hlt
      rw [ofList_append]
      change ((ofList xs).add x).items.Pairwise _
      by_cases hx : x ∈ (ofList xs).items
      · rw [items_add_of_mem _ _ hx]
        exact hbefore
      · rw [items_add_of_notMem _ _ hx]
        refine List.pairwise_append.mpr ⟨hbefore, List.pairwise_singleton _ _, ?_⟩
        intro a ha b hb
        obtain rfl := List.mem_singleton.mp hb
        have hlt := List.idxOf_lt_length_of_mem ((mem_ofList xs a).mp ha)
        rw [ComesBefore, hfirst a ha, List.idxOf_append,
          if_neg (fun h => hx ((mem_ofList xs b).mpr h))]
        omega

/-- Elements of groups are taken in the order of the groups that first have
    them. -/
theorem pairwise_flatten (groups : List (List α)) :
    (ofList groups.flatten).items.Pairwise (Earlier groups) :=
  (pairwise_ofList groups.flatten).imp fun h => earlier_of_comesBefore groups _ _ h

/-- An element that comes before another in every group that has the other is
    taken before it. -/
theorem sublist_flatten (groups : List (List α)) (a b : α) (hb : b ∈ groups.flatten)
    (h : ∀ g ∈ groups, b ∈ g → ComesBefore g a b) :
    [a, b].Sublist (ofList groups.flatten).items := by
  have hlt := comesBefore_flatten groups a b hb h
  have ha := mem_of_comesBefore _ a b hb hlt
  refine pair_sublist _ a b ((mem_ofList _ a).mpr ha) ((mem_ofList _ b).mpr hb) ?_
    (pairwise_ofList groups.flatten) (Nat.lt_asymm hlt)
  rintro rfl
  exact absurd hlt (Nat.lt_irrefl _)

end Distinct

end Bop
