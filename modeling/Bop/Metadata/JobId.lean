import Bop.Data.Separated
import Bop.Inventory
import Bop.Json.Number
import Bop.Metadata.Store

/-!
# Job Identifiers

The identifier of a job joins the server's name, the plugin's key and the
clock with dashes, and it is the primary key of the jobs table. The clock ends
in digits, so it can be read back from the end. A dash inside a server's name
or a plugin's key cannot be told from the one between them, and two servers
whose jobs are made at one instant can then ask for the same row.

A clock before the epoch prints a sign, which reads as one more dash at the
end of the plugin's key.

## Main definitions

* `Assignment`: A server of the inventory and one of its plugins.
* `Assignment.job`: The job `NewJob` makes for it.
* `signedKey`: The plugin's key with the sign of the clock.
* `Confusable`: Two assignments whose identifiers coincide at two readings.

## Theorems

* `itoa_eq`: A numeral is its sign and its digits.
* `newJob_id_eq_iff`: When two identifiers are the same.
* `createJob_both_iff`: Two jobs are both stored exactly when their assignments
  are not confusable.
* `newJob_id_ne_of_notMem`: Plugin keys without a dash never clash after the
  epoch.
* `newJob_id_ne_of_host`: Neither do the jobs of one server.
-/

namespace Bop

/-- A server of the inventory and one of its plugins. -/
structure Assignment (inv : Inventory) where
  host : Bytes
  plugin : Bytes
  srv : Server
  /-- The server is in the inventory under its name. -/
  hsrv : inv.servers.lookup host = some srv
  /-- The plugin is one of the server's. -/
  hplugin : plugin ∈ srv.plugins

/-- What tells two assignments apart. -/
def Assignment.pair {inv : Inventory} (a : Assignment inv) : Bytes × Bytes := (a.host, a.plugin)

/-- The job of an assignment, as the scheduler, the API and the command line
    all make it. -/
def Assignment.job {inv : Inventory} (a : Assignment inv) (unixNano queuedAt : Time) : Job :=
  newJob a.host a.plugin a.srv.retention unixNano queuedAt

/-- The byte between the parts of an identifier. -/
def dash : UInt8 := 45

/-- The plugin's key with the sign of the clock, which reads as part of it. -/
def signedKey (plugin : Bytes) (unixNano : Time) : Bytes :=
  if unixNano < 0 then plugin ++ [dash] else plugin

theorem signedKey_of_nonneg (plugin : Bytes) (n : Time) (hn : 0 ≤ n) :
    signedKey plugin n = plugin := if_neg (Int.not_lt.mpr hn)

/-- The identifiers of two assignments coincide at two readings of the clock:
    the digits are the same, and the names are two cuts of one text. -/
def Confusable {inv : Inventory} (a b : Assignment inv) (n n' : Time) : Prop :=
  n.natAbs = n'.natAbs ∧
    ((a.host = b.host ∧ signedKey a.plugin n = signedKey b.plugin n') ∨
      Straddles dash a.host (signedKey a.plugin n) b.host (signedKey b.plugin n') ∨
      Straddles dash b.host (signedKey b.plugin n') a.host (signedKey a.plugin n))

theorem dash_notMem_itoaNat (n : Nat) : dash ∉ itoaNat n := by
  intro h
  have := List.all_eq_true.mp (Json.all_isDigit_itoaNat n) dash h
  exact absurd this (by decide)

theorem itoaNat_inj (m n : Nat) : itoaNat m = itoaNat n ↔ m = n := by
  constructor
  · intro h
    -- Reading a numeral undoes writing it.
    have := congrArg Json.parseDigits h
    rwa [Json.parseDigits_itoaNat, Json.parseDigits_itoaNat] at this
  · exact congrArg itoaNat

/-- A numeral is its sign and its digits. -/
theorem itoa_eq (i : Int) : itoa i = (if i < 0 then [dash] else []) ++ itoaNat i.natAbs := by
  cases i with
  | ofNat n => rfl
  | negSucc n =>
      rw [if_pos (Int.negSucc_lt_zero n)]
      rfl

/-- The sign of the clock belongs to the text in front of its digits. -/
theorem newJob_id (host plugin : Bytes) (policy : Policy) (n q : Time) :
    (newJob host plugin policy n q).id =
      (host ++ dash :: signedKey plugin n) ++ dash :: itoaNat n.natAbs := by
  change host ++ [dash] ++ plugin ++ [dash] ++ itoa n = _
  rw [itoa_eq, signedKey]
  split <;> simp only [List.append_assoc, List.cons_append, List.nil_append]

/-- Two identifiers are the same when their digits are and the names in front
    of them are cuts of one text. -/
theorem newJob_id_eq_iff {inv : Inventory} (a b : Assignment inv) (n q n' q' : Time) :
    (a.job n q).id = (b.job n' q').id ↔ Confusable a b n n' := by
  -- The last dash is the one in front of the digits.
  rw [Assignment.job, Assignment.job, newJob_id, newJob_id,
    append_sep_inj_of_notMem dash _ _ _ _ (dash_notMem_itoaNat _) (dash_notMem_itoaNat _),
    append_sep_inj_iff, itoaNat_inj, Confusable, and_comm]

/-- A row that is not there yet is refused exactly when the row before it took
    its identifier. -/
theorem createJob?_second (s s₁ : Store) (job job' : Job) (h : s.createJob? job = some s₁)
    (hfree : s.status job'.id = none) :
    (s₁.createJob? job').isSome ↔ job.id ≠ job'.id := by
  have hnone : s.jobs.find? job'.id = none := Option.map_eq_none_iff.mp hfree
  rw [Store.createJob?, Option.isSome_map, Table.insert?_isSome_iff,
    Table.find?_insert s.jobs s₁.jobs job (Store.createJob?_jobs s s₁ job h), hnone]
  -- The row that was put in front is the only one that can be in the way.
  by_cases hid : job'.id = job.id
  · simp only [hid, if_true, reduceCtorEq, ne_eq, not_true_eq_false]
  · simp only [hid, if_false, ne_eq, Ne.symm hid, not_false_eq_true]

section Assignments

variable {inv : Inventory} (a b : Assignment inv)

/-- The jobs of two assignments have different identifiers, and the second one
    is stored behind the first, exactly when the assignments are not confusable
    at the readings of the clock they were made with. -/
theorem createJob_both_iff (n q n' q' : Time) :
    ((a.job n q).id ≠ (b.job n' q').id ↔ ¬ Confusable a b n n') ∧
      ∀ s s₁ : Store, s.createJob? (a.job n q) = some s₁ →
        s.status (b.job n' q').id = none →
        ((s₁.createJob? (b.job n' q')).isSome ↔ ¬ Confusable a b n n') := by
  have hid : (a.job n q).id ≠ (b.job n' q').id ↔ ¬ Confusable a b n n' :=
    not_congr (newJob_id_eq_iff a b n q n' q')
  refine ⟨hid, fun s s₁ hfirst hfree => ?_⟩
  rw [createJob?_second s s₁ _ _ hfirst hfree, hid]

/-- Plugin keys without a dash leave one cut, so after the epoch the jobs of
    different assignments never clash. -/
theorem newJob_id_ne_of_notMem (hne : a.pair ≠ b.pair) (ha : dash ∉ a.plugin)
    (hb : dash ∉ b.plugin) (n q n' q' : Time) (hn : 0 ≤ n) (hn' : 0 ≤ n') :
    (a.job n q).id ≠ (b.job n' q').id := by
  rw [Ne, newJob_id_eq_iff, Confusable, signedKey_of_nonneg _ n hn, signedKey_of_nonneg _ n' hn',
    ← append_sep_inj_iff, append_sep_inj_of_notMem dash _ _ _ _ ha hb]
  -- With no dash in a key, the last dash of the names is the one between them.
  rintro ⟨-, hhost, hplugin⟩
  exact hne (Prod.ext hhost hplugin)

/-- The jobs of one server's plugins, which one tick of its schedule makes,
    never clash after the epoch. -/
theorem newJob_id_ne_of_host (hhost : a.host = b.host) (hne : a.plugin ≠ b.plugin)
    (n q n' q' : Time) (hn : 0 ≤ n) (hn' : 0 ≤ n') : (a.job n q).id ≠ (b.job n' q').id := by
  intro h
  rw [Assignment.job, Assignment.job, newJob_id, newJob_id, hhost,
    signedKey_of_nonneg _ n hn, signedKey_of_nonneg _ n' hn',
    append_sep_inj_of_notMem dash _ _ _ _ (dash_notMem_itoaNat _) (dash_notMem_itoaNat _)] at h
  -- The names in front are the same, so they can be taken off.
  exact hne (List.cons.inj (List.append_cancel_left h.1)).2

end Assignments

/-! ### Two servers whose names and keys run together -/

/-- A host with one plugin. -/
def backedUp (plugin : Bytes) : Server where
  host := "10.0.0.7"
  sshUser := "bop"
  sshKey := ""
  plugins := AList.singleton plugin none
  retention := ⟨7, 4, 0, 0⟩
  schedule := "0 3 * * *"
  verification := none
  storage := ""

/-- `web` runs `db-postgres` and `web-db` runs `postgres`. -/
def runTogether : Inventory where
  servers := AList.insert "web" (backedUp "db-postgres")
    (AList.singleton "web-db" (backedUp "postgres"))

/-- The plugin of `web`. -/
def webAssignment : Assignment runTogether where
  host := "web"
  plugin := "db-postgres"
  srv := backedUp "db-postgres"
  hsrv := rfl
  hplugin := by decide

/-- The plugin of `web-db`. -/
def webDbAssignment : Assignment runTogether where
  host := "web-db"
  plugin := "postgres"
  srv := backedUp "postgres"
  hsrv := rfl
  hplugin := by decide

/-- The inventory is accepted, the two jobs of one instant have one identifier,
    and the row of the second is refused. -/
theorem runTogether_clash :
    runTogether.Accepted ∧ webAssignment.pair ≠ webDbAssignment.pair ∧
      (webAssignment.job 1735700400000000000 0).id =
        (webDbAssignment.job 1735700400000000000 0).id ∧
      ∃ s₁, Store.empty.createJob? (webAssignment.job 1735700400000000000 0) = some s₁ ∧
        s₁.createJob? (webDbAssignment.job 1735700400000000000 0) = none := by
  have hid : (webAssignment.job 1735700400000000000 0).id =
      (webDbAssignment.job 1735700400000000000 0).id :=
    (newJob_id_eq_iff _ _ _ _ _ _).mpr ⟨rfl, .inr (.inl ⟨"db", rfl, rfl⟩)⟩
  refine ⟨⟨runTogether.servers.entries, List.Perm.refl _, rfl⟩, by decide, hid, _, rfl, ?_⟩
  -- The first row is there, so the second is refused for its identifier.
  have hrefused := createJob?_second Store.empty _ (webAssignment.job 1735700400000000000 0)
    (webDbAssignment.job 1735700400000000000 0) rfl rfl
  rw [← Option.not_isSome_iff_eq_none, hrefused]
  exact not_not.mpr hid

end Bop
