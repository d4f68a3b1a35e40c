import Bop.Plugin.Sql.Client
import Mathlib.Logic.Function.Basic

/-!
# Whose Database It Is

A restore test works in a database of its own, on a server that holds others.
The server is any that creates a database only if its name is free, and whose
clients write to the database they are given. Everything else may go wrong: a
command may fail and have done its work all the same, or have done half of it.

A test is not told that it created a database unless the name was free. So what
it restores into and drops is never a database that was there before, if that is
the database its client is given. A name that the client takes for options or a
connection string is created as it stands, and the script goes elsewhere.

## Main definitions

* `Databases`: The databases of a server.
* `serves`: The servers a restore may meet.
* `asks`: What a step of a run asks of the server.
* `Created`, `Touches`: The steps that report a database created, and those
  that drop one or write to it.
* `ScratchOwned`: A test touches only the database it created.
* `Confined`: What the client makes of the name is about that database.

## Theorems

* `effects_keep`: What is neither dropped nor written to stays.
* `confined_of_names`: The name of a database confines the client to it.
* `scratch_owned_iff`: A test owns what it touches exactly if its client is
  confined.
-/

namespace Bop

namespace Sql

open Prog Remote

/-- The databases of a server by name, each with what is in it. -/
abbrev Databases (D : Type) := Bytes → Option D

variable {D : Type} (containerEnv : Bytes → Bytes → Bytes) (clients : Clients)

/-- What a request may do to the databases, given what its command reported. A
    database is created only under a name that is free, and then the report may
    still be an error; a drop may or may not have worked; anything may be written
    to a database. -/
def Effect (w : Databases D) (x : Except Bytes Unit) (w' : Databases D) : Request → Prop
  | .create n => (w' = w ∧ x.isOk = false) ∨
      (w n = none ∧ ∃ d, w' = Function.update w n (some d))
  | .drop n => w' = w ∨ w' = Function.update w n none
  | .write n => ∀ m, m ≠ n → w' m = w m

/-- What several may do, one after the other. -/
def Effects (w : Databases D) (x : Except Bytes Unit) (w' : Databases D) : List Request → Prop
  | [] => w' = w
  | r :: rs => ∃ w₁, Effect w x w₁ r ∧ Effects w₁ x w' rs

/-- What a client asks of the server. A script is read into a database. -/
def Reading.asked : Reading → List Request
  | .replay _ n => [.write n]
  | .requests rs => rs

/-- What a command line asks of the server. -/
def asked (command : Bytes) : List Request :=
  (reading containerEnv clients command).elim [] Reading.asked

/-- The servers a restore may meet. A command that asks nothing of the server
    does not change it. -/
def serves : Semantics RemoteOp RemoteAns (Databases D)
  | w, .run command _ _, x, w' => Effects w x w' (asked containerEnv clients command)
  | w, _, _, w' => w' = w

/-- What a step of a run asks of the server. -/
def asks (e : Prog.Event RemoteOp RemoteAns) : List Request :=
  match e.1 with
  | .run command _ _ => asked containerEnv clients command
  | _ => []

/-- The step reports that it created this database. -/
def Created (e : Prog.Event RemoteOp RemoteAns) (n : Bytes) : Prop :=
  ∃ command stdin stdout, e = ⟨.run command stdin stdout, .ok ()⟩ ∧
    reading containerEnv clients command = some (.requests [.create n])

/-- The step restores into this database or drops it. -/
def Touches (e : Prog.Event RemoteOp RemoteAns) (n : Bytes) : Prop :=
  .drop n ∈ asks containerEnv clients e ∨ .write n ∈ asks containerEnv clients e

/-- A test touches no database that was there before it, touches one only after its
    own creation of that database was reported, and leaves every database that was
    there as it was. A real restore neither creates nor drops one. -/
def ScratchOwned (a : Artifact) (w : Databases D) (tr : RemoteTrace) (w' : Databases D) : Prop :=
  (hasSuffix a.resourceID restoreTestSuffix = true →
    (∀ n d, w n = some d → w' n = some d) ∧
    ∀ tr₁ e tr₂ n, tr = tr₁ ++ e :: tr₂ → Touches containerEnv clients e n →
      w n = none ∧ ∃ e' ∈ tr₁, Created containerEnv clients e' n) ∧
  (hasSuffix a.resourceID restoreTestSuffix = false → ∀ e ∈ tr, ∀ n,
    .create n ∉ asks containerEnv clients e ∧ .drop n ∉ asks containerEnv clients e)

/-- What the client makes of the name, if it is reached: in a test it drops no other
    database and writes to none, and in a real restore it creates none and drops
    none. -/
def Confined (c : SqlConfig) (a : Artifact) : Prop :=
  c.Runnable (c.plugin.restoreCommand a.resourceID) → ∀ n,
    if hasSuffix a.resourceID restoreTestSuffix = true then
      .drop n ∈ (c.reads clients a.resourceID).asked ∨
        .write n ∈ (c.reads clients a.resourceID).asked → n = a.resourceID
    else .create n ∉ (c.reads clients a.resourceID).asked ∧
      .drop n ∉ (c.reads clients a.resourceID).asked

/-- What a request neither drops nor writes to is still there after it. -/
theorem effect_keeps (w w' : Databases D) (x : Except Bytes Unit) (r : Request)
    (h : Effect w x w' r) (m : Bytes) (d : D) (hm : w m = some d) (hdrop : r ≠ .drop m)
    (hwrite : r ≠ .write m) : w' m = some d := by
  cases r with
  | create n =>
      rcases h with ⟨rfl, _⟩ | ⟨hfree, d', rfl⟩
      · exact hm
      · -- What is created was not there.
        have hne : m ≠ n := by
          rintro rfl
          rw [hm] at hfree
          cases hfree
        rw [Function.update_of_ne hne, hm]
  | drop n =>
      have hne : m ≠ n := fun heq => hdrop (by rw [heq])
      rcases h with rfl | rfl
      · exact hm
      · rw [Function.update_of_ne hne, hm]
  | write n =>
      have hne : m ≠ n := fun heq => hwrite (by rw [heq])
      rw [h m hne, hm]

/-- What several requests neither drop nor write to is still there after them. -/
theorem effects_keep (rs : List Request) (w w' : Databases D) (x : Except Bytes Unit)
    (h : Effects w x w' rs) (m : Bytes) (d : D) (hm : w m = some d)
    (hrs : .drop m ∉ rs ∧ .write m ∉ rs) : w' m = some d := by
  induction rs generalizing w with
  | nil =>
      rw [show w' = w from h, hm]
  | cons r rs ih =>
      rcases h with ⟨w₁, hr, hrest⟩
      simp only [List.mem_cons, not_or] at hrs
      refine ih w₁ hrest ?_ ⟨hrs.1.2, hrs.2.2⟩
      exact effect_keeps w w₁ x r hr m d hm (fun heq => hrs.1.1 heq.symm)
        fun heq => hrs.2.1 heq.symm

/-- A command that reports an error may have done nothing. -/
theorem effects_idle (rs : List Request) (w : Databases D) (err : Bytes) :
    Effects w (.error err) w rs := by
  induction rs with
  | nil => rfl
  | cons r rs ih =>
      refine ⟨w, ?_, ih⟩
      cases r with
      | create n => exact Or.inl ⟨rfl, rfl⟩
      | drop n => exact Or.inl rfl
      | write n => exact fun _ _ => rfl

/-- What a command line asks is what its client makes of it, if the client is
    reached. -/
theorem mem_asked_iff (command : Bytes) (reached : Prop) (q : Reading)
    (h : ∀ r, reading containerEnv clients command = some r ↔ reached ∧ r = q) (r : Request) :
    r ∈ asked containerEnv clients command ↔ reached ∧ r ∈ q.asked := by
  unfold asked
  cases hread : reading containerEnv clients command with
  | none =>
      refine iff_of_false List.not_mem_nil fun hr => ?_
      have hsome := (h q).mpr ⟨hr.1, rfl⟩
      rw [hread] at hsome
      cases hsome
  | some q' =>
      rcases (h q').mp hread with ⟨hreached, rfl⟩
      exact (and_iff_right hreached).symm

variable (c : SqlConfig)

/-- What a test's three commands ask. -/
theorem mem_asked_create (n : Bytes) (r : Request) :
    r ∈ asked containerEnv clients (c.plugin.createDatabaseCommand n) ↔
      c.Runnable (c.plugin.createDatabaseCommand n) ∧ r ∈ [Request.create n] :=
  mem_asked_iff containerEnv clients _ _ _ (SqlConfig.reading_create containerEnv clients c n) r

theorem mem_asked_restore (n : Bytes) (r : Request) :
    r ∈ asked containerEnv clients (c.plugin.restoreCommand n) ↔
      c.Runnable (c.plugin.restoreCommand n) ∧ r ∈ (c.reads clients n).asked :=
  mem_asked_iff containerEnv clients _ _ _ (SqlConfig.reading_restore containerEnv clients c n) r

theorem mem_asked_drop (n : Bytes) (r : Request) :
    r ∈ asked containerEnv clients (c.plugin.dropDatabaseCommand n) ↔
      c.Runnable (c.plugin.dropDatabaseCommand n) ∧ r ∈ [Request.drop n] :=
  mem_asked_iff containerEnv clients _ _ _ (SqlConfig.reading_drop containerEnv clients c n) r

/-- A database that was reported as created was not there. -/
theorem free_of_created (command : Bytes) (stdin : Option FileContent) (stdout : Option Bytes)
    (n : Bytes) (w w' : Databases D)
    (hr : reading containerEnv clients command = some (.requests [.create n]))
    (h : serves containerEnv clients w (.run command stdin stdout) (.ok ()) w') : w n = none := by
  have hcreate : Effects w (.ok ()) w' [.create n] := by
    simp only [serves, asked, hr] at h
    exact h
  rcases hcreate with ⟨w₁, ⟨_, hfail⟩ | ⟨hfree, _⟩, _⟩
  · cases hfail
  · exact hfree

/-- Opening an artifact, and the command that creates its database, neither
    restore nor drop. -/
theorem not_touches_create (n m : Bytes) (x : Except Bytes Unit) :
    ¬ Touches containerEnv clients ⟨.run (c.plugin.createDatabaseCommand n) none none, x⟩ m := by
  rintro (h | h)
  · cases List.mem_singleton.mp ((mem_asked_create containerEnv clients c n _).mp h).2
  · cases List.mem_singleton.mp ((mem_asked_create containerEnv clients c n _).mp h).2

theorem not_touches_open (path m : Bytes) (x : Except Bytes FileContent) :
    ¬ Touches containerEnv clients ⟨.openFile path, x⟩ m := by
  rintro (h | h) <;> cases h

section Test

variable (a : Artifact) (htest : hasSuffix a.resourceID restoreTestSuffix = true)
  (hconfined : Confined clients c a)
include htest hconfined

/-- A confined client touches the database of its test, if it is reached. -/
theorem touches_own (m command : Bytes) (stdin : Option FileContent) (x : Except Bytes Unit)
    (hcommand : command = c.plugin.restoreCommand a.resourceID ∨
      command = c.plugin.dropDatabaseCommand a.resourceID)
    (h : Touches containerEnv clients ⟨.run command stdin none, x⟩ m) :
    m = a.resourceID ∧ c.Runnable (c.plugin.createDatabaseCommand a.resourceID) := by
  have hrunnable := SqlConfig.runnable_iff c a.resourceID
  rcases hcommand with rfl | rfl
  · have hreads : c.Runnable (c.plugin.restoreCommand a.resourceID) ∧
        (.drop m ∈ (c.reads clients a.resourceID).asked ∨
          .write m ∈ (c.reads clients a.resourceID).asked) :=
      h.elim (fun hm => ((mem_asked_restore containerEnv clients c _ _).mp hm).imp_right Or.inl)
        fun hm => ((mem_asked_restore containerEnv clients c _ _).mp hm).imp_right Or.inr
    have hown := hconfined hreads.1 m
    rw [if_pos htest] at hown
    exact ⟨hown hreads.2, hrunnable.1.mpr hreads.1⟩
  · rcases h with hm | hm
    · rcases (mem_asked_drop containerEnv clients c _ _).mp hm with ⟨hrun, heq⟩
      rw [List.mem_singleton, Request.drop.injEq] at heq
      exact ⟨heq, hrunnable.1.mpr (hrunnable.2.mp hrun)⟩
    · have heq := List.mem_singleton.mp ((mem_asked_drop containerEnv clients c _ _).mp hm).2
      cases heq

/-- A test leaves the databases that were there alone. -/
theorem tested_keeps (f : FileContent) (x y : Except Bytes Unit) (w w₁ w₂ w₃ : Databases D)
    (hcreate : serves containerEnv clients w
      (.run (c.plugin.createDatabaseCommand a.resourceID) none none) (.ok ()) w₁)
    (hrestore : serves containerEnv clients w₁
      (.run (c.plugin.restoreCommand a.resourceID) (some f) none) x w₂)
    (hdrop : serves containerEnv clients w₂
      (.run (c.plugin.dropDatabaseCommand a.resourceID) none none) y w₃)
    (m : Bytes) (d : D) (hm : w m = some d) : w₃ m = some d := by
  -- A step that touched it would touch the database that was created, whose name
  -- was free.
  have hquiet : ∀ command stdin z, command = c.plugin.restoreCommand a.resourceID ∨
      command = c.plugin.dropDatabaseCommand a.resourceID →
      ¬ Touches containerEnv clients ⟨.run command stdin none, z⟩ m := by
    intro command stdin z hcommand htouches
    rcases touches_own containerEnv clients c a htest hconfined m command stdin z hcommand
      htouches with ⟨rfl, hrun⟩
    have hfree := free_of_created containerEnv clients _ none none a.resourceID w w₁
      ((SqlConfig.reading_create containerEnv clients c a.resourceID _).mpr ⟨hrun, rfl⟩) hcreate
    rw [hm] at hfree
    cases hfree
  have hcreated := effects_keep _ w w₁ _ hcreate m d hm
    (not_or.mp (not_touches_create containerEnv clients c a.resourceID m (.ok ())))
  have hrestored := effects_keep _ w₁ w₂ _ hrestore m d hcreated
    (not_or.mp (hquiet _ (some f) x (Or.inl rfl)))
  exact effects_keep _ w₂ w₃ _ hdrop m d hrestored (not_or.mp (hquiet _ none y (Or.inr rfl)))

/-- The steps of a restore that touch a database: none in a session that could
    not create one, and otherwise only after the creation. -/
theorem touches_after_created (w w' : Databases D) (tr : RemoteTrace) (r : Except Bytes Unit)
    (h : Session c.plugin a tr r) (hsteps : Steps (serves containerEnv clients) w tr w')
    (tr₁ tr₂ : RemoteTrace) (e : Prog.Event RemoteOp RemoteAns) (n : Bytes)
    (heq : tr = tr₁ ++ e :: tr₂) (htouches : Touches containerEnv clients e n) :
    w n = none ∧ ∃ e' ∈ tr₁, Created containerEnv clients e' n := by
  cases h with
  | unopened err msg =>
      rcases tr₁ with _ | ⟨e₀, _ | ⟨e₁, tr₁⟩⟩ <;> simp at heq
      rw [← heq.1] at htouches
      exact absurd htouches (not_touches_open containerEnv clients _ _ _)
  | refused f err msg =>
      rcases tr₁ with _ | ⟨e₀, _ | ⟨e₁, _ | ⟨e₂, tr₁⟩⟩⟩ <;> simp at heq
      · rw [← heq.1] at htouches
        exact absurd htouches (not_touches_open containerEnv clients _ _ _)
      · rw [← heq.2.1] at htouches
        exact absurd htouches (not_touches_create containerEnv clients c _ _ _)
  | restored f x _ hreal =>
      rw [htest] at hreal
      cases hreal
  | tested f x y =>
      -- The creation is the second step, and what it reported holds from the start.
      have hcreated : ∀ m, m = a.resourceID →
          c.Runnable (c.plugin.createDatabaseCommand a.resourceID) →
          w m = none ∧ Created containerEnv clients
            ⟨.run (c.plugin.createDatabaseCommand a.resourceID) none none, .ok ()⟩ m := by
        rintro m rfl hrun
        have hreq := (SqlConfig.reading_create containerEnv clients c a.resourceID _).mpr
          ⟨hrun, rfl⟩
        refine ⟨?_, _, none, none, rfl, hreq⟩
        rcases hsteps with _ | ⟨_, w₁, _, _, _, _, hopen, hrest⟩
        rcases hrest with _ | ⟨_, w₂, _, _, _, _, hcreate, _⟩
        rw [← show w₁ = w from hopen]
        exact free_of_created containerEnv clients _ none none _ w₁ w₂ hreq hcreate
      rcases tr₁ with _ | ⟨e₀, _ | ⟨e₁, _ | ⟨e₂, _ | ⟨e₃, _ | ⟨e₄, tr₁⟩⟩⟩⟩⟩ <;> simp at heq
      · rw [← heq.1] at htouches
        exact absurd htouches (not_touches_open containerEnv clients _ _ _)
      · rw [← heq.2.1] at htouches
        exact absurd htouches (not_touches_create containerEnv clients c _ _ _)
      · rw [← heq.2.2.1] at htouches
        rcases touches_own containerEnv clients c a htest hconfined n _ _ _ (Or.inl rfl) htouches
          with ⟨hn, hrun⟩
        rcases hcreated n hn hrun with ⟨hfree, hmade⟩
        rw [heq.2.1] at hmade
        exact ⟨hfree, e₁, by simp, hmade⟩
      · rw [← heq.2.2.2.1] at htouches
        rcases touches_own containerEnv clients c a htest hconfined n _ _ _ (Or.inr rfl) htouches
          with ⟨hn, hrun⟩
        rcases hcreated n hn hrun with ⟨hfree, hmade⟩
        rw [heq.2.1] at hmade
        exact ⟨hfree, e₁, by simp, hmade⟩

/-- What a test leaves of the databases that were there, whatever it ends like. -/
theorem test_keeps (w w' : Databases D) (tr : RemoteTrace) (r : Except Bytes Unit)
    (h : Session c.plugin a tr r) (hsteps : Steps (serves containerEnv clients) w tr w')
    (n : Bytes) (d : D) (hn : w n = some d) : w' n = some d := by
  -- As far as the test gets. Opening the file asks the server for nothing.
  cases h with
  | unopened err msg =>
      rcases hsteps with _ | ⟨_, w₁, _, _, _, _, hopen, hrest⟩
      cases hrest
      rw [show w' = w from hopen, hn]
  | refused f err msg =>
      rcases hsteps with _ | ⟨_, w₁, _, _, _, _, hopen, hrest⟩
      rcases hrest with _ | ⟨_, w₂, _, _, _, _, hcreate, hrest⟩
      cases hrest
      rw [show w₁ = w from hopen] at hcreate
      exact effects_keep _ w w' _ hcreate n d hn
        (not_or.mp (not_touches_create containerEnv clients c a.resourceID n (.error err)))
  | restored f x _ hreal =>
      rw [htest] at hreal
      cases hreal
  | tested f x y =>
      rcases hsteps with _ | ⟨_, w₁, _, _, _, _, hopen, hrest⟩
      rcases hrest with _ | ⟨_, w₂, _, _, _, _, hcreate, hrest⟩
      rcases hrest with _ | ⟨_, w₃, _, _, _, _, hrestore, hrest⟩
      rcases hrest with _ | ⟨_, w₄, _, _, _, _, hdrop, hrest⟩
      cases hrest
      rw [show w₁ = w from hopen] at hcreate
      exact tested_keeps containerEnv clients c a htest hconfined f x y w w₂ w₃ w' hcreate hrestore
        hdrop n d hn

end Test

/-- A confined client is not asked to create or drop a database in a real restore. -/
theorem real_asks (a : Artifact) (hconfined : Confined clients c a) (tr : RemoteTrace)
    (r : Except Bytes Unit) (h : Session c.plugin a tr r)
    (hreal : hasSuffix a.resourceID restoreTestSuffix = false) :
    ∀ e ∈ tr, ∀ n,
      .create n ∉ asks containerEnv clients e ∧ .drop n ∉ asks containerEnv clients e := by
  have hopen : ∀ x n, .create n ∉ asks containerEnv clients ⟨.openFile a.path, x⟩ ∧
      .drop n ∉ asks containerEnv clients ⟨.openFile a.path, x⟩ :=
    fun x n => ⟨List.not_mem_nil, List.not_mem_nil⟩
  -- A restore that is no test opens the file and runs the one command.
  cases h with
  | unopened err msg =>
      intro e he
      rw [List.mem_singleton.mp he]
      exact hopen _
  | refused f err msg htest =>
      rw [hreal] at htest
      cases htest
  | tested f x y _ htest =>
      rw [hreal] at htest
      cases htest
  | restored f x =>
      intro e he n
      rcases List.mem_cons.mp he with rfl | he
      · exact hopen _ n
      · rw [List.mem_singleton.mp he]
        have hown := fun hrun => hconfined hrun n
        simp only [hreal, Bool.false_eq_true, if_false] at hown
        constructor
        · intro hasks
          rcases (mem_asked_restore containerEnv clients c _ _).mp hasks with ⟨hrun, hreads⟩
          exact (hown hrun).1 hreads
        · intro hasks
          rcases (mem_asked_restore containerEnv clients c _ _).mp hasks with ⟨hrun, hreads⟩
          exact (hown hrun).2 hreads

/-- The name of a database confines the client to it. -/
theorem confined_of_names (a : Artifact) (h : c.Names a.resourceID) : Confined clients c a := by
  intro _ n
  rw [SqlConfig.reads_name clients c a.resourceID h]
  split
  · rintro (hn | hn)
    · cases List.mem_singleton.mp hn
    · cases List.mem_singleton.mp hn
      rfl
  · constructor
    · intro hn
      cases List.mem_singleton.mp hn
    · intro hn
      cases List.mem_singleton.mp hn

/-- The restore of an artifact that opens, whose client reports an error and has done
    nothing. -/
theorem restore_idles (a : Artifact) (w : Databases D) (f : FileContent) (err : Bytes)
    (htest : hasSuffix a.resourceID restoreTestSuffix = false) :
    ∃ r, Runs (restore c.plugin a) [⟨.openFile a.path, .ok f⟩,
        ⟨.run (c.plugin.restoreCommand a.resourceID) (some f) none, .error err⟩] r ∧
      Steps (serves containerEnv clients) w [⟨.openFile a.path, .ok f⟩,
        ⟨.run (c.plugin.restoreCommand a.resourceID) (some f) none, .error err⟩] w := by
  refine ⟨.error (c.plugin.name ++ ": restore " ++ a.resourceID ++ ": " ++ err), ?_, ?_⟩
  · refine .call _ _ _ _ _ ?_
    simp only [htest, restoreFrom]
    exact .call _ _ _ _ _ (.ret _)
  · exact .cons _ w _ _ _ _ rfl (.cons _ w _ _ _ _ (effects_idle _ w err) (.nil _))


/-- The same of a test, which has created its database before. -/
theorem test_idles (a : Artifact) (w : Databases D) (d : D) (f : FileContent) (err : Bytes)
    (htest : hasSuffix a.resourceID restoreTestSuffix = true)
    (hrun : c.Runnable (c.plugin.createDatabaseCommand a.resourceID))
    (hfree : w a.resourceID = none) :
    let tr : RemoteTrace := [⟨.openFile a.path, .ok f⟩,
      ⟨.run (c.plugin.createDatabaseCommand a.resourceID) none none, .ok ()⟩,
      ⟨.run (c.plugin.restoreCommand a.resourceID) (some f) none, .error err⟩,
      ⟨.run (c.plugin.dropDatabaseCommand a.resourceID) none none, .error err⟩]
    ∃ r, Runs (restore c.plugin a) tr r ∧ Steps (serves containerEnv clients) w tr
      (Function.update w a.resourceID (some d)) := by
  refine ⟨.error (c.plugin.name ++ ": restore " ++ a.resourceID ++ ": " ++ err), ?_, ?_⟩
  · refine .call _ _ _ _ _ ?_
    simp only [htest, restoreFrom]
    exact .call _ _ _ _ _ (.call _ _ _ _ _ (.call _ _ _ _ _ (.ret _)))
  · have hcreate := (SqlConfig.reading_create containerEnv clients c a.resourceID _).mpr
      ⟨hrun, rfl⟩
    refine .cons _ w _ _ _ _ rfl (.cons _ (Function.update w a.resourceID (some d)) _ _ _ _ ?_
      (.cons _ _ _ _ _ _ (effects_idle _ _ err)
        (.cons _ _ _ _ _ _ (effects_idle _ _ err) (.nil _))))
    simp only [serves, asked, hcreate]
    exact ⟨_, Or.inr ⟨hfree, d, rfl⟩, rfl⟩

/-- A client that is not confined to its test's database touches one that was there. -/
theorem not_owned_of_strays (a : Artifact) (d : D)
    (htest : hasSuffix a.resourceID restoreTestSuffix = true)
    (hrun : c.Runnable (c.plugin.restoreCommand a.resourceID)) (n : Bytes)
    (hstrays : .drop n ∈ (c.reads clients a.resourceID).asked ∨
      .write n ∈ (c.reads clients a.resourceID).asked) (hn : n ≠ a.resourceID) :
    ∃ (w w' : Databases D) (tr : RemoteTrace) (r : Except Bytes Unit),
      Runs (restore c.plugin a) tr r ∧ Steps (serves containerEnv clients) w tr w' ∧
        ¬ ScratchOwned containerEnv clients a w tr w' := by
  -- The one database there is is the one it strays to.
  let w : Databases D := fun k => if k = n then some d else none
  have hfree : w a.resourceID = none := if_neg fun heq => hn heq.symm
  rcases test_idles containerEnv clients c a w d ⟨[], none⟩ "exit status 1" htest
    ((SqlConfig.runnable_iff c _).1.mpr hrun) hfree with ⟨r, hruns, hsteps⟩
  refine ⟨w, _, _, r, hruns, hsteps, fun howned => ?_⟩
  have htouches : Touches containerEnv clients ⟨.run (c.plugin.restoreCommand a.resourceID)
      (some ⟨[], none⟩) none, .error "exit status 1"⟩ n :=
    hstrays.imp (fun hm => (mem_asked_restore containerEnv clients c _ _).mpr ⟨hrun, hm⟩)
      fun hm => (mem_asked_restore containerEnv clients c _ _).mpr ⟨hrun, hm⟩
  have hnone := ((howned.1 htest).2 [_, _] _ [_] n rfl htouches).1
  rw [show w n = some d from if_pos rfl] at hnone
  cases hnone

/-- A client that is asked to create or drop a database in a real restore. -/
theorem not_owned_of_administers (a : Artifact)
    (hreal : hasSuffix a.resourceID restoreTestSuffix = false)
    (hrun : c.Runnable (c.plugin.restoreCommand a.resourceID)) (n : Bytes)
    (hreads : ¬ (.create n ∉ (c.reads clients a.resourceID).asked ∧
      .drop n ∉ (c.reads clients a.resourceID).asked)) :
    ∃ (w w' : Databases D) (tr : RemoteTrace) (r : Except Bytes Unit),
      Runs (restore c.plugin a) tr r ∧ Steps (serves containerEnv clients) w tr w' ∧
        ¬ ScratchOwned containerEnv clients a w tr w' := by
  rcases restore_idles containerEnv clients c a (fun _ => none) ⟨[], none⟩ "exit status 1" hreal
    with ⟨r, hruns, hsteps⟩
  refine ⟨_, _, _, r, hruns, hsteps, fun howned => hreads ?_⟩
  have hasks := howned.2 hreal _ (List.mem_cons_of_mem _ List.mem_cons_self) n
  exact ⟨fun hm => hasks.1 ((mem_asked_restore containerEnv clients c _ _).mpr ⟨hrun, hm⟩),
    fun hm => hasks.2 ((mem_asked_restore containerEnv clients c _ _).mpr ⟨hrun, hm⟩)⟩

/-- On every server, every test touches only the database it created and no real
    restore creates or drops one, exactly if what the client makes of the name is
    confined to it. -/
theorem scratch_owned_iff [Inhabited D] (a : Artifact) :
    (∀ (w w' : Databases D) (tr : RemoteTrace) (r : Except Bytes Unit),
      Runs (restore c.plugin a) tr r → Steps (serves containerEnv clients) w tr w' →
        ScratchOwned containerEnv clients a w tr w') ↔ Confined clients c a := by
  constructor
  · intro howned hrun n
    by_contra hconfined
    -- What the client makes of the name shows in one run of either kind.
    have hfails : ∃ (w w' : Databases D) (tr : RemoteTrace) (r : Except Bytes Unit),
        Runs (restore c.plugin a) tr r ∧ Steps (serves containerEnv clients) w tr w' ∧
          ¬ ScratchOwned containerEnv clients a w tr w' := by
      split at hconfined
      · next htest =>
          rw [Classical.not_imp] at hconfined
          exact not_owned_of_strays containerEnv clients c a default htest hrun n hconfined.1
            hconfined.2
      · next hreal =>
          exact not_owned_of_administers containerEnv clients c a (Bool.not_eq_true _ ▸ hreal) hrun
            n hconfined
    rcases hfails with ⟨w, w', tr, r, hruns, hsteps, hnot⟩
    exact hnot (howned w w' tr r hruns hsteps)
  · intro hconfined w w' tr r hruns hsteps
    have hsession := restore_session c.plugin a tr r hruns
    refine ⟨fun htest => ⟨fun n d hn => ?_, fun tr₁ e tr₂ n heq htouches => ?_⟩, fun hreal => ?_⟩
    · exact test_keeps containerEnv clients c a htest hconfined w w' tr r hsession hsteps n d hn
    · exact touches_after_created containerEnv clients c a htest hconfined w w' tr r hsession hsteps
        tr₁ tr₂ e n heq htouches
    · exact real_asks containerEnv clients c a hconfined tr r hsession hreal

/-- The test of the shop's database owns what it touches, on every server. -/
theorem scratch_owned_shop : ∀ (w w' : Databases Bytes) (tr : RemoteTrace) (r : Except Bytes Unit),
    Runs (restore shopPostgres.plugin shopTest) tr r →
      Steps (serves (fun _ _ => []) plainClients) w tr w' →
        ScratchOwned (fun _ _ => []) plainClients shopTest w tr w' :=
  (scratch_owned_iff (fun _ _ => []) plainClients shopPostgres shopTest).mpr
    (confined_of_names plainClients shopPostgres shopTest
      (show PsqlName shopTest.resourceID by decide))

/-- The same plugin for a database named like a connection string. -/
def strayPostgres : SqlConfig := .postgres ⟨"bop", "secret", ["dbname=shop"], []⟩

/-- The restore test of that database. -/
def strayTest : Artifact :=
  ⟨"dbname=shop" ++ restoreTestSuffix, "db", "postgres", "/tmp/pg-shop-2", 10, [], false, 0⟩

/-- Its commands reach their client. -/
theorem stray_runnable :
    strayPostgres.Runnable (strayPostgres.plugin.restoreCommand strayTest.resourceID) := by
  refine ⟨(Shellcmd.nulFree_build_iff _).mpr ?_, by decide⟩
  decide

/-- The databases of a server with a live database that is named like the test's. -/
def liveDatabases : Databases Bytes := fun n =>
  if n = "shop-bop-verify" then some "orders" else none

/-- That database with nothing in it any more. -/
def emptiedDatabases : Databases Bytes := Function.update liveDatabases "shop-bop-verify" (some [])

/-- What the test does. -/
def strayRun : RemoteTrace :=
  let p := strayPostgres.plugin
  let n := strayTest.resourceID
  [⟨.openFile strayTest.path, .ok ⟨"DROP TABLE orders", none⟩⟩,
    ⟨.run (p.createDatabaseCommand n) none none, .ok ()⟩,
    ⟨.run (p.restoreCommand n) (some ⟨"DROP TABLE orders", none⟩) none, .ok ()⟩,
    ⟨.run (p.dropDatabaseCommand n) none none, .ok ()⟩]

/-- It creates one database, drops it, and restores into the live one. -/
theorem not_owned :
    Runs (restore strayPostgres.plugin strayTest) strayRun (.ok ()) ∧
    Steps (serves (fun _ _ => []) plainClients) liveDatabases strayRun emptiedDatabases ∧
    ¬ ScratchOwned (fun _ _ => []) plainClients strayTest liveDatabases strayRun
      emptiedDatabases := by
  have hcreate := (SqlConfig.reading_create (fun _ _ => []) plainClients strayPostgres _ _).mpr
    ⟨(SqlConfig.runnable_iff _ _).1.mpr stray_runnable, rfl⟩
  have hrestore := (SqlConfig.reading_restore (fun _ _ => []) plainClients strayPostgres _ _).mpr
    ⟨stray_runnable, rfl⟩
  have hdrop := (SqlConfig.reading_drop (fun _ _ => []) plainClients strayPostgres _ _).mpr
    ⟨(SqlConfig.runnable_iff _ _).2.mpr stray_runnable, rfl⟩
  have hreads : strayPostgres.reads plainClients strayTest.resourceID =
      .replay false "shop-bop-verify" := by decide
  have hlive : ("shop-bop-verify" : Bytes) ≠ strayTest.resourceID := by decide
  refine ⟨.call _ _ _ _ _ (.call _ _ _ _ _ (.call _ _ _ _ _ (.call _ _ _ _ _ (.ret _)))), ?_, ?_⟩
  · -- The scratch database is made, the live one is written to, and the first is dropped.
    refine .cons _ liveDatabases _ _ _ _ rfl
      (.cons _ (Function.update liveDatabases strayTest.resourceID (some [])) _ _ _ _ ?_
        (.cons _ (Function.update emptiedDatabases strayTest.resourceID (some [])) _ _ _ _ ?_
          (.cons _ _ _ _ _ _ ?_ (.nil _))))
    · simp only [serves, asked, hcreate]
      exact ⟨_, Or.inr ⟨by decide, [], rfl⟩, rfl⟩
    · rw [hreads] at hrestore
      simp only [serves, asked, hrestore]
      refine ⟨_, fun m hm => ?_, rfl⟩
      by_cases hscratch : m = strayTest.resourceID
      · rw [hscratch, Function.update_self, Function.update_self]
      · rw [Function.update_of_ne hscratch, Function.update_of_ne hscratch]
        exact Function.update_of_ne hm _ _
    · simp only [serves, asked, hdrop]
      refine ⟨_, Or.inr (funext fun m => ?_), rfl⟩
      by_cases hscratch : m = strayTest.resourceID
      · rw [hscratch, Function.update_self]
        decide
      · rw [Function.update_of_ne hscratch, Function.update_of_ne hscratch]
  · intro howned
    have hkept := (howned.1 (by decide)).1 "shop-bop-verify" "orders" (by decide)
    exact absurd hkept (by decide)

end Sql

end Bop
