import Bop.Api.Handlers
import Bop.Json.Float
import Bop.Json.Sane
import Bop.Plugin.Settings

/-!
# Settings That Are Stored

A map of settings is stored as JSON and read back as a `map[string]interface{}`.
The text sorts the keys and forgets which numbers were integers, and nothing
else is lost, provided that the map holds what the plugins' settings hold:
strings without stray bytes, lists of them, and integers of a machine.

## Main definitions

* `Dyn.reread`: A value as it comes back.
* `Dyn.Storable`, `Survives`: What a setting may be, and a map of them.

## Theorems

* `lookup_of_perm`: The order of a map's keys does not matter.
* `unmarshalMap_toJson`: A stored map comes back with every value reread.
-/

namespace Bop

/-- A value as it comes back: an integer has become a float. -/
def Dyn.reread : Dyn → Dyn
  | .int i => .float (Json.Number.ofInt i)
  | v => v

/-- What a setting may be. -/
inductive Dyn.Storable : Dyn → Prop
  | str (s : Bytes) (h : Utf8.sanitize s = s) : Storable (.str s)
  | int (i : Int) (h : i.natAbs ≤ 2 ^ 63) : Storable (.int i)
  | strings (xs : List Bytes) (h : ∀ x ∈ xs, Utf8.sanitize x = x) : Storable (Dyn.ofStrings xs)

/-- A map that survives being stored. -/
structure Survives (raw : List (Bytes × Dyn)) : Prop where
  nodup : (raw.map (·.1)).Nodup
  keys : ∀ key ∈ raw.map (·.1), Utf8.sanitize key = key
  values : ∀ m ∈ raw, m.2.Storable

/-- With distinct keys, a lookup finds exactly what is there. -/
theorem lookup_eq_some_of_mem {V : Type} (ms : List (Bytes × V)) (hnodup : (ms.map (·.1)).Nodup)
    (m : Bytes × V) (hm : m ∈ ms) : ms.lookup m.1 = some m.2 := by
  induction ms with
  | nil => exact absurd hm List.not_mem_nil
  | cons m' ms ih =>
      rw [List.map_cons, List.nodup_cons] at hnodup
      rcases List.mem_cons.mp hm with rfl | hm
      · exact List.lookup_cons_self
      · have hne : m.1 ≠ m'.1 := by
          intro heq
          exact hnodup.1 (heq ▸ List.mem_map_of_mem hm)
        rw [List.lookup_cons, beq_eq_false_iff_ne.mpr hne]
        exact ih hnodup.2 hm

/-- The order of a map's keys does not matter. -/
theorem lookup_of_perm {V : Type} (ms ms' : List (Bytes × V)) (h : ms.Perm ms')
    (hnodup : (ms.map (·.1)).Nodup) (key : Bytes) : ms'.lookup key = ms.lookup key := by
  have hnodup' : (ms'.map (·.1)).Nodup := (h.map _).nodup_iff.mp hnodup
  by_cases hkey : ∃ m ∈ ms, m.1 = key
  · rcases hkey with ⟨m, hm, rfl⟩
    rw [lookup_eq_some_of_mem ms hnodup m hm, lookup_eq_some_of_mem ms' hnodup' m (h.mem_iff.mp hm)]
  · have hnone : ∀ xs : List (Bytes × V), (∀ m ∈ xs, m ∈ ms) → xs.lookup key = none := by
      intro xs hxs
      refine List.lookup_eq_none_iff.mpr (fun m hm => ?_)
      rw [bne_iff_ne]
      exact fun heq => hkey ⟨m, hxs m hm, heq.symm⟩
    rw [hnone ms (fun _ hm => hm), hnone ms' (fun _ hm => h.mem_iff.mpr hm)]

/-- A lookup in a map whose values were changed. -/
theorem lookup_map_snd {V V' : Type} (f : V → V') (ms : List (Bytes × V)) (key : Bytes) :
    (ms.map (fun m => (m.1, f m.2))).lookup key = (ms.lookup key).map f := by
  induction ms with
  | nil => rfl
  | cons m ms ih =>
      rw [List.map_cons, List.lookup_cons, List.lookup_cons, ih]
      split <;> rfl

namespace Api

/-- The members of a map, value by value. -/
theorem toJsonMembers_eq (ms : List (Bytes × Dyn)) :
    toJsonMembers ms = ms.map (fun m => (m.1, toJson m.2)) := by
  induction ms with
  | nil => rfl
  | cons m ms ih => rw [toJsonMembers, ih, List.map_cons]

/-- The text of a list of strings. -/
theorem toJson_ofStrings (xs : List Bytes) : toJson (Dyn.ofStrings xs) = .arr (xs.map .str) := by
  rw [Dyn.ofStrings, toJson]
  congr 1
  induction xs with
  | nil => rfl
  | cons x xs ih => rw [List.map_cons, List.map_cons, toJsonElements, toJson, ih]

/-- The text of a setting has no stray bytes. -/
theorem sane_toJson (v : Dyn) (h : v.Storable) : Json.Sane (toJson v) := by
  cases h with
  | str s h => exact (Json.sane_str s).mpr h
  | int i h => rfl
  | strings xs h =>
      rw [toJson_ofStrings, Json.sane_arr, Json.sane_elements]
      intro x hx
      rcases List.mem_map.mp hx with ⟨s, hs, rfl⟩
      exact (Json.sane_str s).mpr (h s hs)

/-- A setting nests at most once. -/
theorem depth_toJson (v : Dyn) (h : v.Storable) : Json.depth (toJson v) ≤ 1 := by
  cases h with
  | str s h => exact Nat.zero_le 1
  | int i h => exact Nat.zero_le 1
  | strings xs h =>
      rw [toJson_ofStrings, Json.depth]
      refine Nat.le_of_eq (congrArg (· + 1) ?_)
      clear h
      induction xs with
      | nil => rfl
      | cons x xs ih =>
          simp only [List.map_cons, Json.depthElements, Json.depth, ih, Nat.max_self]

/-- A setting reads back as itself, but for the kind of a number. -/
theorem toDyn_toJson (v : Dyn) (h : v.Storable) : Json.toDyn (toJson v) = some v.reread := by
  cases h with
  | str s h => rfl
  | int i h =>
      change (if (Json.Number.ofInt i).overflows then none else some (Dyn.float _)) = _
      rw [Json.overflows_ofInt i h]
      rfl
  | strings xs h =>
      have helements : Json.toDynElements (xs.map .str) = some (xs.map .str) := by
        clear h
        induction xs with
        | nil => rfl
        | cons x xs ih =>
            simp only [List.map_cons, Json.toDynElements, Json.toDyn, ih, Option.bind_eq_bind,
              Option.bind_some, Option.pure_def]
      rw [toJson_ofStrings, Json.toDyn, helements]
      rfl

/-- So do the members of a map with distinct keys. -/
theorem toDynMembers_toJson (ms : List (Bytes × Dyn)) (hnodup : (ms.map (·.1)).Nodup)
    (h : ∀ m ∈ ms, m.2.Storable) :
    Json.toDynMembers (ms.map (fun m => (m.1, toJson m.2))) =
      some (ms.map (fun m => (m.1, m.2.reread))) := by
  induction ms with
  | nil => rfl
  | cons m ms ih =>
      rw [List.map_cons, List.nodup_cons] at hnodup
      rcases List.forall_mem_cons.mp h with ⟨hm, hms⟩
      -- No later member has the key, so this one is kept.
      have hfresh : ((ms.map (fun m => (m.1, m.2.reread))).any (fun m' => m'.1 = m.1)) = false := by
        rw [List.any_eq_false]
        intro m' hm'
        rcases List.mem_map.mp hm' with ⟨u, hu, rfl⟩
        rw [decide_eq_true_eq]
        exact fun heq => hnodup.1 (List.mem_map.mpr ⟨u, hu, heq⟩)
      simp only [List.map_cons, Json.toDynMembers, toDyn_toJson m.2 hm, ih hnodup.2 hms,
        Option.bind_eq_bind, Option.bind_some, hfresh, Bool.false_eq_true, if_false,
        Option.pure_def]

/-- A stored map comes back with every value reread. -/
theorem unmarshalMap_toJson (raw : List (Bytes × Dyn)) (h : Survives raw) :
    ∃ raw', Json.unmarshalMap (Json.render (toJson (.map raw))) = .ok (some raw') ∧
      ∀ key, setting raw' key = (setting raw key).reread := by
  -- Sorting the written members is sorting the settings.
  have hsorted : (toJsonMembers raw).mergeSort (fun a b => bytesLE a.1 b.1) =
      (raw.mergeSort (fun a b => bytesLE a.1 b.1)).map (fun m => (m.1, toJson m.2)) := by
    rw [toJsonMembers_eq]
    exact (List.map_mergeSort (f := fun m : Bytes × Dyn => (m.1, toJson m.2))
      (fun _ _ _ _ => rfl)).symm
  generalize hms : raw.mergeSort (fun a b => bytesLE a.1 b.1) = ms at hsorted
  have hperm : raw.Perm ms := by
    rw [← hms]
    exact (List.mergeSort_perm raw _).symm
  have hmem : ∀ m ∈ ms, m ∈ raw := fun m hm => hperm.mem_iff.mpr hm
  have hjson : toJson (.map raw) = .obj (ms.map (fun m => (m.1, toJson m.2))) := by
    rw [toJson, hsorted]
  have hsane : Json.Sane (toJson (.map raw)) := by
    rw [hjson, Json.sane_obj, Json.sane_members]
    intro m hm
    rcases List.mem_map.mp hm with ⟨u, hu, rfl⟩
    exact ⟨h.keys u.1 (List.mem_map_of_mem (hmem u hu)), sane_toJson u.2 (h.values u (hmem u hu))⟩
  have hdepth : Json.depth (toJson (.map raw)) ≤ 2 := by
    have hmembers : ∀ us : List (Bytes × Dyn), (∀ u ∈ us, u.2.Storable) →
        Json.depthMembers (us.map (fun m => (m.1, toJson m.2))) ≤ 1 := by
      intro us hus
      induction us with
      | nil => exact Nat.zero_le 1
      | cons u us ih =>
          rcases List.forall_mem_cons.mp hus with ⟨hu, hus⟩
          exact Nat.max_le.mpr ⟨depth_toJson u.2 hu, ih hus⟩
    rw [hjson, Json.depth]
    exact Nat.succ_le_succ (hmembers ms (fun u hu => h.values u (hmem u hu)))
  refine ⟨ms.map (fun m => (m.1, m.2.reread)), ?_, ?_⟩
  · rw [Json.unmarshalMap, Json.parse_render_sane _ (Nat.le_trans hdepth (by decide)) hsane, hjson]
    simp only [toDynMembers_toJson ms ((hperm.map _).nodup_iff.mp h.nodup)
      (fun m hm => h.values m (hmem m hm))]
  · intro key
    rw [setting, setting, lookup_map_snd, lookup_of_perm raw ms hperm h.nodup]
    cases raw.lookup key <;> rfl

end Api

end Bop
