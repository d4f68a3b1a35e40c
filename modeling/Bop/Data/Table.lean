import Mathlib.Data.List.Nodup
import Mathlib.Data.List.Perm.Basic

/-!
# Tables with a Primary Key

A table is a list of rows no two of which have the same key. That is a field
of the type, so an operation that would break it cannot be written: inserting
a row is refused when its key is taken, and updating rows takes the proof that
the update keeps their keys.

Rows are looked up by key, and what each operation does is stated as what it
does to a lookup.

## Main definitions

* `Table`: Rows with distinct keys.
* `Table.find?`: The row with a key.
* `Table.insert?`: A new row, unless its key is taken.
* `Table.update`: A change to rows that keeps their keys.
* `Table.put`: A row in the place of the one with its key, or behind all others.

## Theorems

* `find?_insert`: A lookup after an insertion.
* `find?_update`: A lookup after an update.
* `mem_iff_find?`: A row is in the table exactly when its key finds it.
* `keys_putAll_iff`: When the keys of a table are those of the rows put into it.
-/

namespace Bop

variable {Row Key : Type} [DecidableEq Key] {key : Row → Key}

/-- Rows with distinct keys. -/
structure Table (key : Row → Key) where
  /-- The rows, in the order they were inserted. -/
  rows : List Row
  /-- The key is a primary key. -/
  nodup : (rows.map key).Nodup

namespace Table

/-- The row with a key. -/
def find? (t : Table key) (k : Key) : Option Row := t.rows.find? (fun r => key r = k)

/-- The table without rows. -/
def empty : Table key := ⟨[], List.nodup_nil⟩

/-- `INSERT`: a new row, unless its key is taken. -/
def insert? (t : Table key) (r : Row) : Option (Table key) :=
  if h : key r ∈ t.rows.map key then none
  else some ⟨t.rows ++ [r], by
    rw [List.map_append, List.map_cons, List.map_nil]
    exact List.nodup_append.mpr ⟨t.nodup, List.nodup_singleton _, fun a ha b hb hab => by
      rw [List.mem_singleton] at hb
      subst hb
      subst hab
      exact h ha⟩⟩

/-- `UPDATE`: a change to rows that keeps their keys. -/
def update (t : Table key) (f : Row → Row) (hf : ∀ r, key (f r) = key r) : Table key :=
  ⟨t.rows.map f, by
    have hmap : (t.rows.map f).map key = t.rows.map key := by
      rw [List.map_map]
      exact List.map_congr_left (fun r _ => hf r)
    rw [hmap]
    exact t.nodup⟩

theorem find?_eq_none_iff (t : Table key) (k : Key) :
    t.find? k = none ↔ k ∉ t.rows.map key := by
  simp only [find?, List.find?_eq_none, decide_eq_true_eq, List.mem_map, not_exists, not_and]

/-- A lookup finds a row with the key it was given. -/
theorem key_of_find? (t : Table key) (k : Key) (r : Row) (h : t.find? k = some r) :
    key r = k := by
  have := List.find?_some h
  exact of_decide_eq_true this

/-- A row is in the table exactly when its key finds it. -/
theorem mem_iff_find? (t : Table key) (r : Row) : r ∈ t.rows ↔ t.find? (key r) = some r := by
  constructor
  · intro hr
    cases hf : t.find? (key r) with
    | none => exact absurd (List.mem_map_of_mem hr) ((find?_eq_none_iff t _).mp hf)
    | some r' =>
        have hkey := key_of_find? t _ r' hf
        have hmem : r' ∈ t.rows := List.mem_of_find?_eq_some hf
        rw [List.inj_on_of_nodup_map t.nodup hmem hr hkey]
  · exact List.mem_of_find?_eq_some

/-- An insertion goes through when the key is free. -/
theorem insert?_isSome_iff (t : Table key) (r : Row) :
    (t.insert? r).isSome ↔ t.find? (key r) = none := by
  rw [find?_eq_none_iff, insert?]
  split
  · next h => simp only [Option.isSome_none, Bool.false_eq_true, h, not_true_eq_false]
  · next h => simp only [Option.isSome_some, h, not_false_eq_true]

theorem insert?_rows (t t' : Table key) (r : Row) (h : t.insert? r = some t') :
    t'.rows = t.rows ++ [r] := by
  rw [insert?] at h
  split at h
  · cases h
  · cases h
    rfl

/-- A lookup after an insertion. -/
theorem find?_insert (t t' : Table key) (r : Row) (h : t.insert? r = some t') (k : Key) :
    t'.find? k = if k = key r then some r else t.find? k := by
  have hfree : t.find? (key r) = none := by
    rw [← insert?_isSome_iff, h]
    rfl
  rw [find?, insert?_rows t t' r h, List.find?_append]
  change (t.find? k).or _ = _
  by_cases hk : k = key r
  · subst hk
    rw [hfree, if_pos rfl, Option.none_or]
    exact List.find?_cons_of_pos (decide_eq_true rfl)
  · rw [if_neg hk, List.find?_cons_of_neg (by rw [decide_eq_true_eq]; exact fun h => hk h.symm),
      List.find?_nil, Option.or_none]

/-- A lookup after an update. -/
theorem find?_update (t : Table key) (f : Row → Row) (hf : ∀ r, key (f r) = key r) (k : Key) :
    (t.update f hf).find? k = (t.find? k).map f := by
  simp only [find?, update, List.find?_map, Function.comp_def, hf]

/-- A row in the place of the one with its key, or behind all others. -/
def put (t : Table key) (r : Row) : Table key :=
  match t.insert? r with
  | some t' => t'
  | none => t.update (fun r' => if key r' = key r then r else r') fun r' => by
      split
      · next h => exact h.symm
      · rfl

/-- Putting a row adds its key, unless it is there. -/
theorem keys_put (t : Table key) (r : Row) :
    (t.put r).rows.map key =
      if key r ∈ t.rows.map key then t.rows.map key else t.rows.map key ++ [key r] := by
  unfold put
  cases hinsert : t.insert? r with
  | some t' =>
      -- The row was inserted, so its key was free.
      have hfree : key r ∉ t.rows.map key := by
        rw [← find?_eq_none_iff, ← insert?_isSome_iff, hinsert]
        rfl
      rw [if_neg hfree]
      exact (congrArg (List.map key) (insert?_rows t t' r hinsert)).trans List.map_append
  | none =>
      -- It replaced the row of its key, which keeps that key.
      have htaken : key r ∈ t.rows.map key := by
        by_contra hfree
        rw [← find?_eq_none_iff, ← insert?_isSome_iff, hinsert] at hfree
        exact Bool.noConfusion hfree
      rw [if_pos htaken]
      change List.map key (t.rows.map _) = _
      rw [List.map_map]
      refine List.map_congr_left fun r' _ => ?_
      dsimp only [Function.comp_apply]
      split
      · next h => exact h.symm
      · rfl

/-- A row of the table was in it, or was put into it. -/
theorem mem_put (t : Table key) (r r' : Row) (h : r' ∈ (t.put r).rows) : r' = r ∨ r' ∈ t.rows := by
  unfold put at h
  cases hinsert : t.insert? r with
  | some t' =>
      rw [hinsert] at h
      change r' ∈ t'.rows at h
      rw [insert?_rows t t' r hinsert, List.mem_append, List.mem_singleton] at h
      exact h.symm
  | none =>
      rw [hinsert] at h
      rcases List.mem_map.mp h with ⟨r'', hr'', rfl⟩
      split
      · exact Or.inl rfl
      · exact Or.inr hr''

theorem mem_putAll (rs : List Row) (t : Table key) (r : Row) (h : r ∈ (rs.foldl put t).rows) :
    r ∈ rs ∨ r ∈ t.rows := by
  induction rs generalizing t with
  | nil => exact Or.inr h
  | cons r' rs ih =>
      rcases ih (t.put r') h with h | h
      · exact Or.inl (List.mem_cons_of_mem r' h)
      · rcases mem_put t r' r h with rfl | h
        · exact Or.inl List.mem_cons_self
        · exact Or.inr h

/-- Putting rows adds all of their keys, or fewer than there are rows. -/
theorem keys_putAll (rs : List Row) (t : Table key) :
    (rs.foldl put t).rows.map key = t.rows.map key ++ rs.map key ∨
      ((rs.foldl put t).rows.map key).length < (t.rows.map key).length + rs.length := by
  induction rs generalizing t with
  | nil => exact Or.inl (List.append_nil _).symm
  | cons r rs ih =>
      have hput := keys_put t r
      rw [List.foldl_cons, List.map_cons, List.length_cons]
      split at hput
      · -- The key is there, so a row is lost.
        right
        -- One row is lost here, and later rows lose no fewer.
        have hih := ih (t.put r)
        rw [hput] at hih
        rcases hih with h | h
        · have hlen : (rs.map key).length = rs.length := List.length_map key
          rw [h, List.length_append]
          omega
        · omega
      · have hih := ih (t.put r)
        rw [hput, List.append_assoc, List.length_append] at hih
        refine hih.imp id fun h => ?_
        rw [List.length_singleton] at h
        omega

/-- As long as the keys of rows differ, all of them are added. -/
theorem keys_putAll_of_nodup (rs : List Row) (t : Table key)
    (h : (t.rows.map key ++ rs.map key).Nodup) :
    (rs.foldl put t).rows.map key = t.rows.map key ++ rs.map key := by
  induction rs generalizing t with
  | nil => exact (List.append_nil _).symm
  | cons r rs ih =>
      have hfree : key r ∉ t.rows.map key := fun hmem =>
        (List.nodup_append.mp h).2.2 _ hmem _ (List.mem_cons_self) rfl
      have hput := keys_put t r
      rw [if_neg hfree] at hput
      rw [List.map_cons, ← List.singleton_append, ← List.append_assoc, ← hput] at h
      rw [List.foldl_cons, ih (t.put r) h, hput, List.append_assoc]
      rfl

/-- The keys of a table are those of as many rows that were put into it exactly
    when no two of these have the same key. -/
theorem keys_putAll_iff (rs : List Row) (ks : List Key) (hlen : ks.length = rs.length) :
    (rs.foldl put (empty : Table key)).rows.map key = ks ↔ rs.map key = ks ∧ ks.Nodup := by
  constructor
  · intro h
    refine ⟨?_, h ▸ (rs.foldl put (empty : Table key)).nodup⟩
    rcases keys_putAll rs (empty : Table key) with hkeys | hfewer
    · exact hkeys.symm.trans h
    · rw [h, hlen] at hfewer
      change rs.length < 0 + rs.length at hfewer
      omega
  · rintro ⟨rfl, hnodup⟩
    exact keys_putAll_of_nodup rs empty hnodup

end Table

end Bop
