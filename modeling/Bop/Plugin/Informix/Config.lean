import Bop.Text.Bytes

/-!
# Informix Configuration

What the informix plugin is configured with, and which table names it accepts.
A table name is put into the text of a statement without quoting, so it has to
be a plain identifier, with or without the name of its owner. The same check is
made on the name an artifact carries before anything is restored from it.

## Main definitions

* `Config`: The parsed configuration.
* `isIdent`: The identifiers.
* `validTableName`: The pattern a table name has to match.

## Theorems

* `validTableName_iff`: A table name is an identifier or two around a dot.
-/

namespace Bop

namespace Informix

/-- The plugin's configuration, as far as it is used to reach the server. -/
structure Config where
  host : Bytes
  port : Int
  username : Bytes
  password : Bytes
  serverName : Bytes
  database : Bytes
  agentPath : Bytes

/-- `[A-Za-z_]`. -/
def identStart (b : UInt8) : Bool := (65 ≤ b ∧ b ≤ 90) ∨ (97 ≤ b ∧ b ≤ 122) ∨ b = 95

/-- `[A-Za-z0-9_]`. -/
def identPart (b : UInt8) : Bool := identStart b ∨ (48 ≤ b ∧ b ≤ 57)

/-- `[A-Za-z_][A-Za-z0-9_]*`. -/
def isIdent : Bytes → Bool
  | [] => false
  | b :: rest => identStart b && rest.all identPart

/-- `validTableName.MatchString`: an identifier, and a dot and a second one if
    the text does not end with the first. -/
def validTableName (s : Bytes) : Bool :=
  isIdent (s.takeWhile (· ≠ 46)) && match s.dropWhile (· ≠ 46) with
    | [] => true
    | _ :: table => isIdent table

/-- An identifier has a byte, and all of its bytes may stand in one. -/
theorem identPart_of_isIdent (s : Bytes) (h : isIdent s = true) :
    s ≠ [] ∧ ∀ b ∈ s, identPart b = true := by
  cases s with
  | nil => cases h
  | cons b rest =>
      rw [isIdent, Bool.and_eq_true, List.all_eq_true] at h
      exact ⟨List.cons_ne_nil b rest,
        List.forall_mem_cons.mpr ⟨decide_eq_true (Or.inl h.1), h.2⟩⟩

/-- No identifier holds a dot. -/
theorem ne_dot_of_isIdent (s : Bytes) (h : isIdent s = true) : ∀ b ∈ s, b ≠ 46 := by
  rintro b hb rfl
  exact absurd ((identPart_of_isIdent s h).2 46 hb) (by decide)

/-- An identifier runs up to the first dot. -/
theorem span_ident (s rest : Bytes) (h : isIdent s = true) :
    (s ++ rest).takeWhile (· ≠ 46) = s ++ rest.takeWhile (· ≠ 46) ∧
      (s ++ rest).dropWhile (· ≠ 46) = rest.dropWhile (· ≠ 46) := by
  have hall : ∀ b ∈ s, decide (b ≠ 46) = true :=
    fun b hb => decide_eq_true (ne_dot_of_isIdent s h b hb)
  exact ⟨List.takeWhile_append_of_pos hall, List.dropWhile_append_of_pos hall⟩

/-- A table name is an identifier, or an owner, a dot and an identifier. -/
theorem validTableName_iff (s : Bytes) : validTableName s = true ↔
    isIdent s = true ∨
      ∃ owner table, s = owner ++ 46 :: table ∧ isIdent owner = true ∧ isIdent table = true := by
  constructor
  · intro h
    rw [validTableName, Bool.and_eq_true] at h
    rcases h with ⟨howner, hrest⟩
    have hsplit : s.takeWhile (· ≠ 46) ++ s.dropWhile (· ≠ 46) = s :=
      List.takeWhile_append_dropWhile
    cases hcase : s.dropWhile (· ≠ 46) with
    | nil =>
        rw [hcase, List.append_nil] at hsplit
        rw [hsplit] at howner
        exact Or.inl howner
    | cons b table =>
        -- What ends the first identifier can only be the dot.
        have hhead := List.head?_dropWhile_not (fun b => decide (b ≠ 46)) s
        rw [hcase] at hhead
        have hb : b = 46 := not_not.mp (of_decide_eq_false hhead)
        rw [hcase] at hsplit hrest
        rw [hb] at hsplit
        exact Or.inr ⟨_, table, hsplit.symm, howner, hrest⟩
  · rintro (h | ⟨owner, table, rfl, howner, htable⟩)
    · rcases span_ident s [] h with ⟨htake, hdrop⟩
      rw [List.append_nil] at htake hdrop
      rw [validTableName, htake, hdrop, List.takeWhile_nil, List.append_nil, h]
      rfl
    · rcases span_ident owner (46 :: table) howner with ⟨htake, hdrop⟩
      rw [List.takeWhile_cons_of_neg (by decide), List.append_nil] at htake
      rw [List.dropWhile_cons_of_neg (by decide)] at hdrop
      rw [validTableName, htake, hdrop, howner, Bool.true_and]
      exact htable

example : validTableName "informix.orders_2" = true ∧ validTableName "orders; drop" = false ∧
    validTableName "a.b.c" = false ∧ validTableName "orders\n" = false := by decide

/-- A table name holds the bytes of identifiers, and a dot. -/
theorem identPart_of_validTableName (s : Bytes) (h : validTableName s = true) :
    s ≠ [] ∧ ∀ b ∈ s, identPart b = true ∨ b = 46 := by
  rcases (validTableName_iff s).mp h with h | ⟨owner, table, rfl, howner, htable⟩
  · rcases identPart_of_isIdent s h with ⟨hne, hpart⟩
    exact ⟨hne, fun b hb => Or.inl (hpart b hb)⟩
  · refine ⟨List.append_ne_nil_of_right_ne_nil _ (List.cons_ne_nil _ _), fun b hb => ?_⟩
    rcases List.mem_append.mp hb with hb | hb
    · exact Or.inl ((identPart_of_isIdent owner howner).2 b hb)
    · rcases List.mem_cons.mp hb with rfl | hb
      · exact Or.inr rfl
      · exact Or.inl ((identPart_of_isIdent table htable).2 b hb)

end Informix

end Bop
