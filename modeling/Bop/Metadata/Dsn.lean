import Bop.Text.Url

/-!
# Connection Strings without Passwords

A connection string ends up in the error of a failed start, and its password is
taken out of it before. Only a URL that names a user is printed at all, with
another password in the place of the user's. But a connection URL may also give
the password as a parameter of its query, and the query is printed as it is.

## Main definitions

* `redactDSN`: What is printed of a connection string.
* `URL.mask`: A URL without the passwords that the driver takes from it.
* `KeywordValue`: The connection strings that are no URLs.

## Theorems

* `redacted_mask`: What is printed depends on the user's password not at all.
* `redactDSN_keywordValue`: Nothing of another connection string is printed.
* `redactDSN_iff`: When two passwords are told apart.
-/

namespace Bop

open Url

/-- What stands for a connection string that is not printed. -/
def dsnPlaceholder : Bytes := "<postgres dsn>"

/-- The user with another password, if there is one. -/
def redactUser (user : Userinfo) : Userinfo :=
  { user with password := user.password.map fun _ => "***" }

/-- `redactDSN`. -/
def redactDSN (dsn : Bytes) : Bytes :=
  match parse dsn with
  | none => dsnPlaceholder
  | some u => match u.user with
    | none => dsnPlaceholder
    | some user => { u with user := some (redactUser user) }.string

/-! ### Where the driver takes a password from -/

/-- A parameter of the query without its value, if that is a password. -/
def maskParam (param : Bytes) : Bytes :=
  if queryKey param = some "password" ∧ (61 : UInt8) ∈ param then (cut 61 param).1 ++ "=" else param

/-- The query without passwords. -/
def maskQuery (query : Bytes) : Bytes := join "&" ((query.splitOn 38).map maskParam)

/-- The user without a password's text. -/
def maskUser (user : Userinfo) : Userinfo := { user with password := user.password.map fun _ => [] }

/-- A URL without the passwords that the driver takes from it. -/
def Url.URL.mask (u : URL) : URL :=
  { u with user := u.user.map maskUser, rawQuery := maskQuery u.rawQuery }

/-- The white space between keywords and values. -/
def blanks : Bytes := " \t\n\r\x0b\x0c"

/-- A connection string that begins with a keyword and its value, or is blank. -/
def KeywordValue (dsn : Bytes) : Prop :=
  dsn ⊆ blanks ∨
    ∃ before keyword between value, dsn = before ++ keyword ++ between ++ 61 :: value ∧
      before ++ between ⊆ blanks ∧ keyword ≠ [] ∧ ∀ b ∈ keyword, isAlnum b = true ∨ b = 95

/-- What is printed depends on the user's password not at all. -/
theorem redactUser_mask (user : Userinfo) : redactUser (maskUser user) = redactUser user := by
  unfold redactUser maskUser
  cases user.password <;> rfl

/-- The text of a URL with a user. -/
theorem redactDSN_eq (dsn : Bytes) (u : URL) (user : Userinfo) (h : parse dsn = some u)
    (huser : u.user = some user) :
    redactDSN dsn =
      { u.mask with user := u.mask.user.map redactUser, rawQuery := u.rawQuery }.string := by
  unfold redactDSN
  rw [h]
  dsimp only
  rw [huser]
  dsimp only [URL.mask]
  rw [huser, Option.map_some, Option.map_some, redactUser_mask]

theorem redactDSN_of_no_user (dsn : Bytes) (u : URL) (h : parse dsn = some u)
    (huser : u.user = none) : redactDSN dsn = dsnPlaceholder := by
  unfold redactDSN
  rw [h]
  dsimp only
  rw [huser]

/-- Nothing is printed of a text that goes wrong before its first colon and does
    not begin with a slash. -/
theorem redactDSN_of_invalid (p s : Bytes) (c : UInt8) (hp : (35 : UInt8) ∉ p ∧ (58 : UInt8) ∉ p)
    (hc : isAlnum c = false ∧ c ∉ ("+-.:#" : Bytes)) (hslash : (p ++ c :: s).head? ≠ some 47) :
    redactDSN (p ++ c :: s) = dsnPlaceholder := by
  have hmark : c ≠ 35 := fun h => hc.2 (h ▸ by decide)
  have hkeep : ∀ b ∈ p, decide (b ≠ 35) = true := fun b hb =>
    decide_eq_true fun hb' => hp.1 (hb' ▸ hb)
  have hcut : (cut 35 (p ++ c :: s)).1 = p ++ c :: (cut 35 s).1 := by
    unfold cut
    dsimp only
    rw [List.takeWhile_append_of_pos hkeep, List.takeWhile_cons, if_pos (decide_eq_true hmark)]
  -- If it parses after all, it has no scheme and no authority, and so no user.
  cases hparse : parse (p ++ c :: s) with
  | none =>
      unfold redactDSN
      rw [hparse]
  | some u =>
      refine redactDSN_of_no_user _ u hparse (user_of_not_authority _ u hparse ?_ ?_)
      · rw [hcut]
        exact getSchemeFrom_of_invalid [] p _ c hp.2
          ⟨hc.1, fun hmem => hc.2 (List.mem_append_left [35] hmem)⟩
      · rw [hcut]
        rintro ⟨t, ht⟩
        refine hslash ?_
        cases p with
        | nil => exact congrArg List.head? ht.symm
        | cons b p => exact congrArg List.head? ht.symm

/-- No mark is in front of the sign behind a keyword. -/
theorem notMem_keyword (before keyword between : Bytes) (hblank : before ++ between ⊆ blanks)
    (hword : ∀ b ∈ keyword, isAlnum b = true ∨ b = 95) (c : UInt8)
    (hc : ¬ (c ∈ blanks ∨ isAlnum c = true ∨ c = 95)) : c ∉ before ++ keyword ++ between := by
  refine fun hmem => hc ?_
  rcases List.mem_append.mp hmem with hmem | hmem
  · rcases List.mem_append.mp hmem with hmem | hmem
    · exact Or.inl (hblank (List.mem_append_left _ hmem))
    · exact Or.inr (hword c hmem)
  · exact Or.inl (hblank (List.mem_append_right _ hmem))

/-- Nothing is printed of a connection string that begins with a keyword. -/
theorem redactDSN_keywordValue (dsn : Bytes) (h : KeywordValue dsn) :
    redactDSN dsn = dsnPlaceholder := by
  rcases h with hblank | ⟨before, keyword, between, value, rfl, hblank, hne, hword⟩
  · cases dsn with
    | nil => decide +kernel
    | cons b dsn =>
        have hb : ∀ b ∈ blanks, (isAlnum b = false ∧ b ∉ ("+-.:#" : Bytes)) ∧ b ≠ 47 := by
          decide +kernel
        rcases hb b (hblank List.mem_cons_self) with ⟨hinvalid, hslash⟩
        exact redactDSN_of_invalid [] dsn b ⟨List.not_mem_nil, List.not_mem_nil⟩ hinvalid
          fun h => hslash (Option.some.inj h)
  · have hnot := notMem_keyword before keyword between hblank hword
    -- The sign itself is what goes wrong.
    refine redactDSN_of_invalid _ value 61 ⟨hnot 35 (by decide), hnot 58 (by decide)⟩ (by decide)
      fun hhead => hnot 47 (by decide) (List.mem_of_mem_head? ?_)
    rw [List.head?_append_of_ne_nil] at hhead
    · exact hhead
    · simp only [ne_eq, List.append_eq_nil_iff, not_and]
      exact fun h => absurd h.2 hne

/-- Two URLs that differ in their passwords only are printed alike exactly when
    nothing is printed, or their queries are the same; and nothing is printed of
    a connection string that begins with a keyword. -/
theorem redactDSN_iff (d₁ d₂ : Bytes) (u₁ u₂ : URL) (h₁ : parse d₁ = some u₁)
    (h₂ : parse d₂ = some u₂) (hsame : u₁.mask = u₂.mask) :
    (redactDSN d₁ = redactDSN d₂ ↔ u₁.user = none ∨ u₁.rawQuery = u₂.rawQuery) ∧
      ∀ d, KeywordValue d → redactDSN d = dsnPlaceholder := by
  refine ⟨?_, redactDSN_keywordValue⟩
  have husers : u₁.user.map maskUser = u₂.user.map maskUser := congrArg URL.user hsame
  cases huser₁ : u₁.user with
  | none =>
      rw [huser₁, Option.map_none, eq_comm, Option.map_eq_none_iff] at husers
      rw [redactDSN_of_no_user d₁ u₁ h₁ huser₁, redactDSN_of_no_user d₂ u₂ h₂ husers]
      exact iff_of_true rfl (Or.inl rfl)
  | some user₁ =>
      rw [huser₁, Option.map_some, eq_comm] at husers
      rcases Option.map_eq_some_iff.mp husers with ⟨user₂, huser₂, _⟩
      rw [redactDSN_eq d₁ u₁ user₁ h₁ huser₁, redactDSN_eq d₂ u₂ user₂ h₂ huser₂, hsame]
      -- They differ in their queries only.
      refine (string_query_iff { u₂.mask with
        user := u₂.mask.user.map redactUser, rawQuery := u₂.rawQuery } u₁.rawQuery).trans ?_
      exact (or_iff_right (fun h => nomatch h)).symm

/-! ### Two places for a password -/

/-- A URL that names a user. -/
def userURL (password : Option Bytes) (query : Bytes) : URL where
  scheme := "postgres"
  opaqueData := []
  user := some ⟨"bop", password⟩
  host := "db:5432"
  path := ("/bop", [])
  omitHost := false
  forceQuery := false
  rawQuery := query
  fragment := ([], [])

/-- A password of the user is not told from another. -/
theorem redactDSN_user :
    redactDSN "postgres://bop:s3cret@db:5432/bop?sslmode=disable" =
      redactDSN "postgres://bop:pa%2Fss@db:5432/bop?sslmode=disable" :=
  (redactDSN_iff "postgres://bop:s3cret@db:5432/bop?sslmode=disable"
    "postgres://bop:pa%2Fss@db:5432/bop?sslmode=disable"
    (userURL (some "s3cret") "sslmode=disable") (userURL (some "pa/ss") "sslmode=disable")
    (by decide +kernel) (by decide +kernel) (by decide +kernel)).1.mpr (Or.inr rfl)

/-- One in the query is, and is printed. -/
theorem not_redactDSN_query :
    parse "postgres://bop@db:5432/bop?password=s3cret" =
        some (userURL none "password=s3cret") ∧
      parse "postgres://bop@db:5432/bop?password=other" =
        some (userURL none "password=other") ∧
      (userURL none "password=s3cret").mask = (userURL none "password=other").mask ∧
      redactDSN "postgres://bop@db:5432/bop?password=s3cret" =
        "postgres://bop@db:5432/bop?password=s3cret" ∧
      redactDSN "postgres://bop@db:5432/bop?password=s3cret" ≠
        redactDSN "postgres://bop@db:5432/bop?password=other" := by
  decide +kernel

end Bop
