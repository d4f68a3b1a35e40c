import Bop.Effect.Pool
import Bop.Storage.Vault

/-!
# From the File to the Row

Between a plugin's backup and the row that a job records, the same file is
hashed and stored, and the row takes its size and checksum from what was found.
Jobs of several processes may do so at the same time. Each has a file of its
own: a backup makes a new one, and a job removes none but its own, so nobody
touches a file between the moments it is hashed and stored.

The monitor follows the file a job has: its size, the checksum that was
computed from it and the snapshot it was stored as. A row may be recorded only
if it says just that.

## Main definitions

* `Custody`: What a job has found out about its file.
* `Controller.custody`: The monitor.
* `Controller.Transparent`: No extra arguments interfere.
* `Faithful`: A row whose size and checksum are those of what is stored.
* `InCustody`: What the monitors of all jobs say of the world.

## Theorems

* `kept_runJob`: A job keeps to the monitor.
* `inCustody_call`: A call of one job keeps what the others know.
-/

namespace Bop

open Prog

variable {S : Type}

/-- The file of an artifact, and what was found out about it: its checksum, and the
    repository, host and identifier it was stored under. -/
structure Custody (S : Type) where
  path : Bytes
  size : Int
  checksum : Option Bytes
  stored : Option (S × Bytes × SnapshotID)

namespace Controller

/-- The row says what is known of the file, and the file was stored where the
    row's host has its repository. -/
def Attested (c : Controller S) (q : Option (Custody S)) (row : Snapshot) : Prop :=
  ∃ h sp, q = some h ∧ h.size = row.size ∧ h.checksum = some row.checksum ∧
    h.stored = some (sp, row.host, row.id) ∧ c.storageFor row.host = .ok sp

open Classical in
/-- A row is recorded only if it says what is known, and a file is removed only by
    the job that has it. -/
noncomputable def custody (c : Controller S) : Monitor (Op S) Ans (Option (Custody S))
  | _, .backup _ _ _, .ok a => some (some ⟨a.path, a.size, none, none⟩)
  | some h, .checksumFile path, .ok checksum =>
      some (some (if path = h.path then { h with checksum := some checksum } else h))
  | some h, .storeArtifact _ sp a, .ok id =>
      some (some (if a.path = h.path then { h with stored := some (sp, a.host, id) } else h))
  | q, .store _ (.recordSnapshot row), _ => if c.Attested q row then some q else none
  | some h, .removeFile path, _ => if path = h.path then some none else none
  | none, .removeFile _, _ => none
  | q, _, _ => some q

end Controller

/-- An operation that has nothing to do with the file of an artifact or with rows. -/
def Op.apart : Op S → Bool
  | .backup _ _ _ | .checksumFile _ | .storeArtifact _ _ _ | .removeFile _ => false
  | .store _ (.recordSnapshot _) => false
  | _ => true

namespace Controller

variable {c : Controller S}

theorem custody_apart (q : Option (Custody S)) (o : Op S) (ho : o.apart = true) (x : Ans o) :
    c.custody q o x = some q := by
  cases o with
  | backup | checksumFile | storeArtifact | removeFile => cases ho
  | store ctx o =>
      cases o with
      | recordSnapshot snap => cases ho
      | _ => cases q <;> rfl
  | _ => cases q <;> rfl

/-- A program that keeps to the monitor. -/
abbrev InOrder (c : Controller S) {α : Type} (q : Option (Custody S)) (p : Proc S α) : Prop :=
  Obeys c.custody q p (fun _ _ => True)

section Rules

variable {α β : Type}

/-- Calls that have nothing to do with the file. -/
theorem inOrder_of_calls (q : Option (Custody S)) (p : Proc S α)
    (hp : Calls (fun o => o.apart = true) p) : Obeys c.custody q p (fun _ q' => q' = q) :=
  obeys_of_calls c.custody (fun o => o.apart = true) q (fun o ho x => custody_apart q o ho x) p hp

/-- Such calls leave what is known to whatever comes after them. -/
theorem inOrder_bind (q : Option (Custody S)) (p : Proc S α) (f : α → Proc S β)
    (post : β → Option (Custody S) → Prop) (hp : Calls (fun o => o.apart = true) p)
    (hf : ∀ a, Obeys c.custody q (f a) post) : Obeys c.custody q (p >>= f) post := by
  refine obeys_bind c.custody p f q (fun _ q' => q' = q) _ (inOrder_of_calls q p hp) ?_
  rintro a _ rfl
  exact hf a

theorem inOrder_check (q : Option (Custody S)) (p : Proc S (Except Bytes α))
    (wrap : Bytes → Bytes) (k : α → Proc S (Except Bytes β))
    (post : Except Bytes β → Option (Custody S) → Prop)
    (hp : Calls (fun o => o.apart = true) p) (herr : ∀ err, post (.error err) q)
    (hk : ∀ a, Obeys c.custody q (k a) post) : Obeys c.custody q (check p wrap k) post := by
  refine inOrder_bind q p _ post hp fun r => ?_
  cases r with
  | ok a => exact hk a
  | error err => exact herr _

theorem calls_publish_apart (ctx : Ctx) (e : Event) :
    Calls (fun o : Op S => o.apart = true) (publish ctx e : Proc S Unit) :=
  calls_publish (P := fun o : Op S => o.apart = true) rfl (fun _ _ => rfl) ctx e

end Rules

variable (c) (job : Job) (sp : S) (hsp : c.storageFor job.host = .ok sp)

include hsp

/-- One resource: its file is hashed, stored, recorded and removed. -/
theorem kept_backupResource (ctx : Ctx) (p : Instance) (res : Resource) (v : Verification) :
    ∀ q, c.InOrder q (backupResource ctx job p sp res v) := by
  intro q
  refine obeys_check c.custody _ _ _ q
    (fun r q' => ∀ a, r = .ok a → q' = some ⟨a.path, a.size, none, none⟩) _ ?_ ?_
    (fun _ _ _ => trivial)
  · intro x
    cases x with
    | error err => exact ⟨q, by cases q <;> rfl, fun _ h => by cases h⟩
    | ok a => exact ⟨_, rfl, fun _ h => by cases h; rfl⟩
  intro produced q' hq'
  rcases hq' produced rfl with rfl
  -- The body ends with the file still in custody, and then the file is removed.
  refine obeys_bind c.custody _ _ _
    (fun _ q => ∃ h, q = some h ∧ h.path = produced.path) _ ?_ fun r q' hq' => ?_
  · refine inOrder_check _ _ _ _ _ ⟨rfl, fun _ => trivial⟩ (fun _ => ⟨_, rfl, rfl⟩) fun _ => ?_
    refine obeys_check c.custody _ _ _ _
      (fun r q => (∀ checksum, r = .ok checksum →
        q = some ⟨produced.path, produced.size, some checksum, none⟩) ∧
        ∃ h, q = some h ∧ h.path = produced.path) _ ?_ ?_ fun _ _ h => h.2
    · intro x
      cases x with
      | error err => exact ⟨_, rfl, (fun _ h => by cases h), _, rfl, rfl⟩
      | ok checksum =>
          refine ⟨_, rfl, fun _ h => ?_, _, rfl, ?_⟩
          · cases h
            exact congrArg some (if_pos rfl)
          · rw [if_pos rfl]
    intro checksum q' hq'
    rcases hq'.1 checksum rfl with rfl
    refine inOrder_bind _ _ _ _ (calls_publish_apart _ _) fun _ => ?_
    refine inOrder_bind _ _ _ _ (calls_publish_apart _ _) fun _ => ?_
    refine obeys_check c.custody _ _ _ _
      (fun r q => (∀ id, r = .ok id →
        q = some ⟨produced.path, produced.size, some checksum, some (sp, job.host, id)⟩) ∧
        ∃ h, q = some h ∧ h.path = produced.path) _ ?_ ?_ fun _ _ h => h.2
    · intro x
      cases x with
      | error err => exact ⟨_, rfl, (fun _ h => by cases h), _, rfl, rfl⟩
      | ok id =>
          refine ⟨_, rfl, fun _ h => ?_, _, rfl, ?_⟩
          · cases h
            exact congrArg some (if_pos rfl)
          · rw [if_pos rfl]
    intro id q' hq'
    rcases hq'.1 id rfl with rfl
    have hheld : ∃ h : Custody S, some (⟨produced.path, produced.size, some checksum,
        some (sp, job.host, id)⟩ : Custody S) = some h ∧ h.path = produced.path := ⟨_, rfl, rfl⟩
    refine inOrder_bind _ _ _ _ (calls_publish_apart _ _) fun _ => ?_
    refine inOrder_bind _ _ _ _ (calls_publish_apart _ _) fun _ => ?_
    refine inOrder_check _ _ _ _ _ ⟨rfl, fun _ => trivial⟩ (fun _ => hheld) fun _ => ?_
    refine inOrder_bind _ _ _ _ (calls_publish_apart _ _) fun _ => ?_
    refine inOrder_bind _ _ _ _ ⟨rfl, fun _ => trivial⟩ fun createdAt => ?_
    -- The row takes its fields from what was found.
    refine obeys_check c.custody _ _ _ _ (fun _ q => ∃ h, q = some h ∧ h.path = produced.path)
      _ ?_ ?_ fun _ _ h => h
    · exact fun _ => ⟨_, if_pos ⟨_, sp, rfl, rfl, rfl, rfl, hsp⟩, hheld⟩
    · intro _ q'' hq''
      refine obeys_mono c.custody _ _ (fun _ q => q = q'') _ (inOrder_of_calls _ _ ?_) ?_
      · split
        · refine calls_bind _ _ _ (calls_publish_apart _ _) fun _ => ?_
          refine calls_check _ _ _ _ ⟨rfl, fun _ => trivial⟩ fun _ => ?_
          exact calls_bind _ _ _ (calls_publish_apart _ _) fun _ => trivial
        · trivial
      · rintro _ _ rfl
        exact hq''
  · rcases hq' with ⟨h, rfl, hpath⟩
    refine obeys_bind c.custody _ _ _ (fun _ _ => True) _ ?_ fun _ _ _ => trivial
    unfold cleanupArtifact
    split
    · trivial
    · exact fun _ => ⟨none, if_pos hpath.symm, trivial⟩

theorem kept_backupResources (ctx : Ctx) (p : Instance) (v : Verification)
    (resources : List Resource) (q : Option (Custody S)) :
    c.InOrder q (backupResources ctx job p sp v resources) := by
  induction resources generalizing q with
  | nil => trivial
  | cons res rest ih =>
      refine obeys_bind c.custody _ _ q _ _
        (kept_backupResource c job sp hsp ctx p res v q) fun r q' _ => ?_
      refine obeys_bind c.custody _ _ q' _ _ (ih q') fun errs q'' _ => ?_
      cases r <;> trivial

theorem kept_runPipeline (ctx : Ctx) (srv : Server) (q : Option (Custody S)) :
    c.InOrder q (runPipeline c ctx job srv sp) := by
  refine inOrder_check q _ _ _ _ ?_ (fun _ => trivial) fun cfg => ?_
  · exact calls_check _ _ _ _ ⟨rfl, fun _ => trivial⟩ fun _ => trivial
  refine inOrder_check q _ _ _ _ ⟨rfl, fun _ => trivial⟩ (fun _ => trivial) fun _ => ?_
  refine inOrder_bind q _ _ _ (calls_publish_apart _ _) fun _ => ?_
  refine inOrder_check q _ _ _ _ ⟨rfl, fun _ => trivial⟩ (fun _ => trivial) fun resources => ?_
  refine inOrder_bind q _ _ _ (calls_publish_apart _ _) fun _ => ?_
  refine obeys_bind c.custody _ _ q _ _
    (kept_backupResources c job sp hsp ctx _ _ resources q) fun errs q' _ => ?_
  refine inOrder_bind q' _ _ _ ⟨rfl, fun _ => trivial⟩ fun r => ?_
  cases r with
  | error err => trivial
  | ok u => exact inOrder_bind q' _ _ _ (calls_publish_apart _ _) fun _ => trivial

omit hsp

/-- A job keeps to the monitor. -/
theorem kept_runJob (q : Option (Custody S)) : c.InOrder q (c.runJob job) := by
  unfold runJob
  split
  · trivial
  · next srv hsrv =>
      split
      · trivial
      · split
        · trivial
        · next sp hsp =>
            refine inOrder_check q _ _ _ _ ⟨rfl, fun _ => trivial⟩ (fun _ => trivial) fun _ => ?_
            refine inOrder_bind q _ _ _ (calls_publish_apart _ _) fun _ => ?_
            refine obeys_bind c.custody _ _ q _ _
              (kept_runPipeline c job sp hsp _ srv q) fun err q' _ => ?_
            refine inOrder_bind q' _ _ _ (calls_publish_apart _ _) fun _ => ?_
            exact inOrder_bind q' _ _ _ ⟨rfl, fun _ => trivial⟩ fun _ => trivial

end Controller

/-! ### Rows and what is stored -/

section Rows

variable (r : Restic) (sha256 : Bytes → Bytes) (c : Controller ResticProvider)

/-- The extra arguments of no repository interfere. -/
structure Controller.Transparent : Prop where
  storage : r.Transparent c.storage
  storageFor : ∀ host sp, c.storageFor host = .ok sp → r.Transparent sp

/-- The row's snapshot was added by a backup of its host's, and the row's size and
    checksum are those of the file it holds. -/
def Faithful (v : Vault) (row : Snapshot) : Prop :=
  ∃ sp file, c.storageFor row.host = .ok sp ∧ Added r v.restic sp row.host row.id ∧
    v.archive row.id = some file ∧ row.size = file.content.length ∧
    row.checksum = checksumText (sha256 file.content)

/-- What is known of a file is so. -/
structure Custody.Holds (h : Custody ResticProvider) (v : Vault) (content : Bytes) : Prop where
  file : v.files h.path = some content
  path : h.path.head? ≠ some 45
  size : h.size = content.length
  sum : ∀ checksum, h.checksum = some checksum → checksum = checksumText (sha256 content)
  stored : ∀ sp host id, h.stored = some (sp, host, id) → Added r v.restic sp host id ∧
    (r.Transparent sp → ∃ recorded, v.archive id = some ⟨recorded, content⟩)

/-- What the repositories hold was added to them, under identifiers. -/
structure OnlyAdded (w : ResticWorld) : Prop where
  added : ∀ repo, ∀ t ∈ w.repos repo, (repo, t) ∈ w.issued
  named : ∀ e ∈ w.issued, Identifier e.2.id

/-- What the monitors say of the world: what they know is so, no two of them have
    the same file, and every row is faithful. -/
structure InCustody {ι : Type} (q : ι → Option (Custody ResticProvider)) (v : Vault) : Prop where
  known : ∀ i h, q i = some h → ∃ content, h.Holds r sha256 v content
  own : ∀ i j h h', q i = some h → q j = some h' → h.path = h'.path → i = j
  rows : ∀ row ∈ v.restic.shared.store.snapshots.rows, Faithful r sha256 c v row
  added : OnlyAdded v.restic

end Rows

section Steps

variable {r : Restic} {built : Instance → BackupPlugin} {sha256 : Bytes → Bytes}
  {c : Controller ResticProvider} {v v' : Vault}

/-- What is archived stays. -/
structure Grows (v v' : Vault) : Prop where
  issued : v.restic.issued ⊆ v'.restic.issued
  archive : ∀ e ∈ v.restic.issued, v'.archive e.2.id = v.archive e.2.id

/-- An identifier that was added is still that of an added snapshot, which holds
    what it held. -/
theorem added_grows (sp : ResticProvider) (host : Bytes) (id : SnapshotID) (hgrows : Grows v v')
    (h : Added r v.restic sp host id) :
    Added r v'.restic sp host id ∧ v'.archive id = v.archive id := by
  refine ⟨added_mono hgrows.issued sp host id h, ?_⟩
  rcases h with ⟨_, _, _, _, rfl, hadded⟩
  exact hgrows.archive _ hadded.issued

theorem faithful_grows (row : Snapshot) (hgrows : Grows v v') (h : Faithful r sha256 c v row) :
    Faithful r sha256 c v' row := by
  rcases h with ⟨sp, file, hsp, hadded, hfile, hrow⟩
  rcases added_grows sp row.host row.id hgrows hadded with ⟨hadded', hsame⟩
  exact ⟨sp, file, hsp, hadded', hsame.trans hfile, hrow⟩

theorem holds_grows (h : Custody ResticProvider) (hgrows : Grows v v')
    (hfile : v'.files h.path = v.files h.path) (content : Bytes)
    (hh : h.Holds r sha256 v content) : h.Holds r sha256 v' content := by
  refine ⟨hfile.trans hh.file, hh.path, hh.size, hh.sum, fun sp host id hid => ?_⟩
  rcases hh.stored sp host id hid with ⟨hadded, harchived⟩
  rcases added_grows sp host id hgrows hadded with ⟨hadded', hsame⟩
  exact ⟨hadded', fun hsp => (harchived hsp).imp fun recorded h => hsame.trans h⟩

/-- A run of restic puts nothing into a repository that was not added to it. -/
theorem onlyAdded_run (w w' : ResticWorld) (args : List Bytes) (x : Except Bytes Bytes)
    (hstep : r.RunSem w args x w') (h : OnlyAdded w) : OnlyAdded w' := by
  cases hstep with
  | backup cmd t _ _ _ hid _ _ _ =>
      refine ⟨fun repo u hu => ?_, fun e he => ?_⟩
      · by_cases heq : repo = cmd.repository
        · subst heq
          change u ∈ (w.setRepo cmd.repository (w.repos cmd.repository ++ [t])).repos
            cmd.repository at hu
          rw [setRepo_self] at hu
          rcases List.mem_append.mp hu with hold | hnew
          · exact List.mem_append_left _ (h.added _ u hold)
          · rw [List.mem_singleton.mp hnew]
            exact List.mem_append_right _ List.mem_cons_self
        · change u ∈ (w.setRepo cmd.repository (w.repos cmd.repository ++ [t])).repos repo at hu
          rw [setRepo_of_ne _ _ _ heq] at hu
          exact List.mem_append_left _ (h.added repo u hu)
      · rcases List.mem_append.mp he with hold | hnew
        · exact h.named e hold
        · rw [List.mem_singleton.mp hnew]
          exact hid
  | forgotten cmd snaps _ _ hsub _ =>
      refine ⟨fun repo t ht => ?_, h.named⟩
      by_cases heq : repo = cmd.repository
      · subst heq
        rw [setRepo_self] at ht
        exact h.added _ t (hsub ht)
      · rw [setRepo_of_ne _ _ _ heq] at ht
        exact h.added repo t ht
  | _ => exact h

theorem onlyAdded_through (o : Op ResticProvider) (x : Ans o)
    (hstep : through resticImpl (VaultSem r built sha256) v o x v')
    (h : OnlyAdded v.restic) : OnlyAdded v'.restic := by
  rcases hstep with ⟨tr, _, hs⟩
  refine steps_invariant (VaultSem r built sha256) (fun _ => True)
    (fun v => OnlyAdded v.restic) (fun u o x u' _ hone hu => ?_) tr v v' hs (fun _ _ => trivial) h
  cases o with
  | run args => exact onlyAdded_run _ _ args x hone.1 hu
  | other o =>
      rcases hone.1 with ⟨shared, _, heq⟩
      rw [heq]
      exact ⟨hu.added, hu.named⟩

section Update

variable {ι : Type} [DecidableEq ι] {q : ι → Option (Custody ResticProvider)} (i : ι)

/-- A call of one job: the files of the others are as they were, its own is not one
    of theirs, and what it knows of it is so. -/
theorem inCustody_update (q' : Option (Custody ResticProvider)) (hgrows : Grows v v')
    (hfiles : ∀ j h, j ≠ i → q j = some h → v'.files h.path = v.files h.path)
    (hmine : ∀ h, q' = some h → (∃ content, h.Holds r sha256 v' content) ∧
      ∀ j h', j ≠ i → q j = some h' → h'.path ≠ h.path)
    (hrows : ∀ row ∈ v'.restic.shared.store.snapshots.rows, Faithful r sha256 c v' row)
    (hadded : OnlyAdded v'.restic) (hq : InCustody r sha256 c q v) :
    InCustody r sha256 c (Function.update q i q') v' := by
  refine ⟨fun j h hj => ?_, fun j k h h' hj hk hpath => ?_, hrows, hadded⟩
  · by_cases hij : j = i
    · subst hij
      rw [Function.update_self] at hj
      exact (hmine h hj).1
    · rw [Function.update_of_ne hij] at hj
      exact (hq.known j h hj).imp fun content => holds_grows h hgrows (hfiles j h hij hj) content
  · by_cases hji : j = i <;> by_cases hki : k = i
    · rw [hji, hki]
    · subst hji
      rw [Function.update_self] at hj
      rw [Function.update_of_ne hki] at hk
      exact absurd hpath.symm ((hmine h hj).2 k h' hki hk)
    · subst hki
      rw [Function.update_self] at hk
      rw [Function.update_of_ne hji] at hj
      exact absurd hpath ((hmine h' hk).2 j h hji hj)
    · rw [Function.update_of_ne hji] at hj
      rw [Function.update_of_ne hki] at hk
      exact hq.own j k h h' hj hk hpath

omit [DecidableEq ι] in
/-- What a job knew is not about the file of another. -/
theorem path_ne (hq : InCustody r sha256 c q v) (h : Custody ResticProvider) (hi : q i = some h)
    (j : ι) (h' : Custody ResticProvider) (hj : j ≠ i) (hh : q j = some h') :
    h'.path ≠ h.path := fun heq => hj (hq.own j i h' h hh hi heq)

/-- A call that touches no file and records no row, where what the job knows
    afterwards is about the same file and is so. -/
theorem inCustody_still (q' : Option (Custody ResticProvider)) (hgrows : Grows v v')
    (hfiles : v'.files = v.files)
    (hrows : v'.restic.shared.store.snapshots = v.restic.shared.store.snapshots)
    (hmine : ∀ h', q' = some h' → ∃ h, q i = some h ∧ h.path = h'.path ∧
      ∀ content, h.Holds r sha256 v' content → h'.Holds r sha256 v' content)
    (hadded : OnlyAdded v'.restic) (hq : InCustody r sha256 c q v) :
    InCustody r sha256 c (Function.update q i q') v' := by
  refine inCustody_update i q' hgrows (fun j h _ _ => by rw [hfiles]) ?_ ?_ hadded hq
  · intro h' hh'
    rcases hmine h' hh' with ⟨h, hi, hpath, hholds⟩
    refine ⟨(hq.known i h hi).imp fun content hh =>
      hholds content (holds_grows h hgrows (by rw [hfiles]) content hh), ?_⟩
    rw [← hpath]
    exact path_ne i hq h hi
  · intro row hrow
    rw [hrows] at hrow
    exact faithful_grows row hgrows (hq.rows row hrow)

/-- The calls that have nothing to do with files or rows. -/
theorem inCustody_apart (o : Op ResticProvider) (ho : o.apart = true) (x : Ans o)
    (hstep : through resticImpl (VaultSem r built sha256) v o x v')
    (hq : InCustody r sha256 c q v) : InCustody r sha256 c (Function.update q i (q i)) v' := by
  have hadded := onlyAdded_through o x hstep hq.added
  have hmine : ∀ h', q i = some h' → ∃ h, q i = some h ∧ h.path = h'.path ∧
      ∀ content, h.Holds r sha256 v' content → h'.Holds r sha256 v' content :=
    fun h hi => ⟨h, hi, rfl, fun _ => id⟩
  have hmethod : Method v v' → InCustody r sha256 c (Function.update q i (q i)) v' := fun h =>
    inCustody_still i (q i) ⟨h.issued, h.archive⟩ h.files (by rw [h.shared]) hmine hadded hq
  -- The other calls leave restic alone, and what a plugin reads it leaves as it was.
  have hother : resticImpl o = Prog.op (ResticOp.other o) →
      (∀ files', FilesSem built sha256 v.files o x files' → files' = v.files) →
      InCustody r sha256 c (Function.update q i (q i)) v' := by
    intro himpl hfiles
    rcases vault_other o x himpl hstep with ⟨⟨shared, hsem, hrestic⟩, harchive, hleft⟩
    refine inCustody_still i (q i) ⟨?_, fun e _ => by rw [harchive]⟩ (hfiles _ hleft) ?_ hmine
      hadded hq
    · rw [hrestic]
      exact List.Subset.refl _
    · rw [hrestic]
      refine snapshots_of_shared v.restic.shared shared o x hsem fun ctx snap heq => ?_
      subst heq
      cases ho
  cases o with
  | backup | checksumFile | storeArtifact | removeFile => cases ho
  | verifySnapshot ctx p id => exact hmethod (vault_verifySnapshot ctx p id x hstep)
  | applyRetention ctx p host policy =>
      exact hmethod (vault_applyRetention ctx p host policy x hstep)
  | verify ctx p a => exact hother rfl fun files' h => leaves_verify _ a x _ files' h
  | restore ctx p a => exact hother rfl fun files' h => leaves_restore _ a x _ files' h
  | _ => exact hother rfl fun files' h => h

/-- A plugin's backup makes a file that no other job has. -/
theorem inCustody_backup (ctx : Ctx) (p : Instance) (res : Resource) (x : Except Bytes Artifact)
    (q' : Option (Custody ResticProvider)) (hm : c.custody (q i) (.backup ctx p res) x = some q')
    (hstep : through resticImpl (VaultSem r built sha256) v (.backup ctx p res) x v')
    (hq : InCustody r sha256 c q v) : InCustody r sha256 c (Function.update q i q') v' := by
  have hadded := onlyAdded_through (.backup ctx p res) x hstep hq.added
  rcases vault_other (.backup ctx p res) x rfl hstep with
    ⟨⟨shared, rfl, hrestic⟩, harchive, hleft, hpath⟩
  have hgrows : Grows v v' :=
    ⟨by rw [hrestic]; exact List.Subset.refl _, fun e _ => by rw [harchive]⟩
  have hrows : v'.restic.shared.store.snapshots = v.restic.shared.store.snapshots := by
    rw [hrestic]
  have hmade := leaves_backup _ _ _ x _ _ hleft
  cases x with
  | error err =>
      have hq' : q' = q i := by
        cases hqi : q i <;> rw [hqi] at hm <;> exact (Option.some.inj hm).symm
      subst hq'
      exact inCustody_still i (q i) hgrows hmade hrows (fun h hi => ⟨h, hi, rfl, fun _ => id⟩)
        hadded hq
  | ok a =>
      cases hm
      rcases hmade with ⟨hfresh, content, hsize, hfiles⟩
      -- The name was free, and the files of the others exist.
      have hne : ∀ j h, q j = some h → h.path ≠ a.path := by
        intro j h hj heq
        rcases hq.known j h hj with ⟨held, hheld⟩
        have hfile := hheld.file
        rw [heq, hfresh] at hfile
        cases hfile
      refine inCustody_update i _ hgrows (fun j h _ hj => ?_) ?_ (fun row hrow => ?_) hadded hq
      · rw [hfiles, Function.update_of_ne (hne j h hj)]
      · rintro _ ⟨⟩
        refine ⟨⟨content, ?_, hpath a rfl, hsize, (fun _ h => by cases h),
          fun _ _ _ h => by cases h⟩, fun j h _ hj => hne j h hj⟩
        rw [hfiles, Function.update_self]
      · rw [hrows] at hrow
        exact faithful_grows row hgrows (hq.rows row hrow)

/-- Hashing a file finds out what its checksum is. -/
theorem inCustody_checksumFile (path : Bytes) (x : Except Bytes Bytes)
    (q' : Option (Custody ResticProvider)) (hm : c.custody (q i) (.checksumFile path) x = some q')
    (hstep : through resticImpl (VaultSem r built sha256) v (.checksumFile path) x v')
    (hq : InCustody r sha256 c q v) : InCustody r sha256 c (Function.update q i q') v' := by
  have hadded := onlyAdded_through (.checksumFile path) x hstep hq.added
  rcases vault_other (.checksumFile path) x rfl hstep with
    ⟨⟨shared, rfl, hrestic⟩, harchive, hfiles, hsum⟩
  have hgrows : Grows v v' :=
    ⟨by rw [hrestic]; exact List.Subset.refl _, fun e _ => by rw [harchive]⟩
  have hrows : v'.restic.shared.store.snapshots = v.restic.shared.store.snapshots := by
    rw [hrestic]
  refine inCustody_still i q' hgrows hfiles hrows (fun h' hh' => ?_) hadded hq
  subst hh'
  cases hqi : q i with
  | none =>
      rw [hqi] at hm
      cases x <;> cases hm
  | some h =>
      rw [hqi] at hm
      refine ⟨h, rfl, ?_⟩
      cases x with
      | error err =>
          cases hm
          exact ⟨rfl, fun _ => id⟩
      | ok checksum =>
          cases hm
          by_cases hpath : path = h.path
          · rw [if_pos hpath]
            refine ⟨rfl, fun content hh => ?_⟩
            refine ⟨hh.file, hh.path, hh.size, fun checksum' heq => ?_, hh.stored⟩
            cases heq
            rcases hsum checksum rfl with ⟨hashed, hhashed, rfl⟩
            rw [hpath, ← hfiles, hh.file] at hhashed
            cases hhashed
            rfl
          · rw [if_neg hpath]
            exact ⟨rfl, fun _ => id⟩

/-- Storing a file finds out where it is stored. -/
theorem inCustody_storeArtifact (ctx : Ctx) (sp : ResticProvider) (a : Artifact)
    (x : Except Bytes SnapshotID) (q' : Option (Custody ResticProvider))
    (hm : c.custody (q i) (.storeArtifact ctx sp a) x = some q')
    (hstep : through resticImpl (VaultSem r built sha256) v (.storeArtifact ctx sp a) x v')
    (hq : InCustody r sha256 c q v) : InCustody r sha256 c (Function.update q i q') v' := by
  have hadded := onlyAdded_through (.storeArtifact ctx sp a) x hstep hq.added
  rcases vault_storeArtifact ctx sp a x hstep with ⟨hmethod, hstored⟩
  refine inCustody_still i q' ⟨hmethod.issued, hmethod.archive⟩ hmethod.files
    (by rw [hmethod.shared]) (fun h' hh' => ?_) hadded hq
  subst hh'
  cases hqi : q i with
  | none =>
      rw [hqi] at hm
      cases x <;> cases hm
  | some h =>
      rw [hqi] at hm
      refine ⟨h, rfl, ?_⟩
      cases x with
      | error err =>
          cases hm
          exact ⟨rfl, fun _ => id⟩
      | ok id =>
          cases hm
          by_cases hpath : a.path = h.path
          · rw [if_pos hpath]
            refine ⟨rfl, fun content hh => ?_⟩
            refine ⟨hh.file, hh.path, hh.size, hh.sum, fun sp' host id' heq => ?_⟩
            cases heq
            rcases hstored id rfl with ⟨cmd, t, hadded, hid, harchived⟩
            refine ⟨⟨a, cmd, t, rfl, hid, hadded⟩, fun hsp => ?_⟩
            rcases harchived (hpath ▸ hh.path) hsp with ⟨held, recorded, hheld, harchive⟩
            have hfile := hh.file
            change v'.files h.path = some content at hfile
            rw [hpath, ← hmethod.files, hfile] at hheld
            cases hheld
            exact ⟨recorded, harchive⟩
          · rw [if_neg hpath]
            exact ⟨rfl, fun _ hh => hh⟩

/-- A job removes its own file and no other. -/
theorem inCustody_removeFile (path : Bytes) (x : Except Bytes Unit)
    (q' : Option (Custody ResticProvider)) (hm : c.custody (q i) (.removeFile path) x = some q')
    (hstep : through resticImpl (VaultSem r built sha256) v (.removeFile path) x v')
    (hq : InCustody r sha256 c q v) : InCustody r sha256 c (Function.update q i q') v' := by
  have hadded := onlyAdded_through (.removeFile path) x hstep hq.added
  rcases vault_other (.removeFile path) x rfl hstep with ⟨⟨shared, rfl, hrestic⟩, harchive, hleft⟩
  have hgrows : Grows v v' :=
    ⟨by rw [hrestic]; exact List.Subset.refl _, fun e _ => by rw [harchive]⟩
  cases hqi : q i with
  | none =>
      rw [hqi] at hm
      cases hm
  | some h =>
      rw [hqi] at hm
      by_cases hpath : path = h.path
      · simp only [Controller.custody, if_pos hpath] at hm
        cases hm
        refine inCustody_update i none hgrows (fun j h' hj hh => ?_) (fun _ heq => by cases heq)
          (fun row hrow => ?_) hadded hq
        · rcases hleft with hsame | hgone
          · rw [hsame]
          · rw [hgone, hpath, Function.update_of_ne (path_ne i hq h hqi j h' hj hh)]
        · rw [hrestic] at hrow
          exact faithful_grows row hgrows (hq.rows row hrow)
      · simp only [Controller.custody, if_neg hpath] at hm
        cases hm

/-- A row is recorded with what is known. -/
theorem inCustody_recordSnapshot (htransparent : c.Transparent r) (ctx : Ctx) (row : Snapshot)
    (x : Except Bytes Unit)
    (q' : Option (Custody ResticProvider))
    (hm : c.custody (q i) (.store ctx (.recordSnapshot row)) x = some q')
    (hstep : through resticImpl (VaultSem r built sha256) v
      (.store ctx (.recordSnapshot row)) x v')
    (hq : InCustody r sha256 c q v) : InCustody r sha256 c (Function.update q i q') v' := by
  have hadded := onlyAdded_through (.store ctx (.recordSnapshot row)) x hstep hq.added
  rcases vault_other (.store ctx (.recordSnapshot row)) x rfl hstep with
    ⟨⟨shared, hsem, hrestic⟩, harchive, hfiles⟩
  have hgrows : Grows v v' :=
    ⟨by rw [hrestic]; exact List.Subset.refl _, fun e _ => by rw [harchive]⟩
  by_cases hattested : c.Attested (q i) row
  · have hq' : q' = q i := by
      simp only [Controller.custody, if_pos hattested] at hm
      exact (Option.some.inj hm).symm
    subst hq'
    refine inCustody_update i (q i) hgrows (fun j h _ _ => by rw [hfiles]) (fun h hi => ?_)
      (fun row' hrow => ?_) hadded hq
    · exact ⟨(hq.known i h hi).imp fun content => holds_grows h hgrows (by rw [hfiles]) content,
        path_ne i hq h hi⟩
    · rw [hrestic] at hrow
      rcases mem_recordSnapshot _ _ row x hsem.1 row' hrow with hold | rfl
      · exact faithful_grows row' hgrows (hq.rows row' hold)
      · -- What is known of the file is what the row says.
        rcases hattested with ⟨h, sp, hi, hsize, hsum, hstored, hsp⟩
        rcases hq.known i h hi with ⟨content, hh⟩
        rcases hh.stored sp _ _ hstored with ⟨hadd, harchived⟩
        rcases harchived (htransparent.storageFor _ sp hsp) with ⟨recorded, harchive⟩
        refine faithful_grows row' hgrows ⟨sp, ⟨recorded, content⟩, hsp, hadd, harchive, ?_,
          hh.sum _ hsum⟩
        rw [← hsize, hh.size]
  · simp only [Controller.custody, if_neg hattested] at hm
    cases hm

/-- A call of one job keeps what the monitors of all of them say. -/
theorem inCustody_call (htransparent : c.Transparent r) (o : Op ResticProvider) (x : Ans o)
    (q' : Option (Custody ResticProvider))
    (hm : c.custody (q i) o x = some q')
    (hstep : through resticImpl (VaultSem r built sha256) v o x v')
    (hq : InCustody r sha256 c q v) : InCustody r sha256 c (Function.update q i q') v' := by
  by_cases ho : o.apart = true
  · rw [Controller.custody_apart (q i) o ho x] at hm
    cases hm
    exact inCustody_apart i o ho x hstep hq
  · cases o with
    | backup ctx p res => exact inCustody_backup i ctx p res x q' hm hstep hq
    | checksumFile path => exact inCustody_checksumFile i path x q' hm hstep hq
    | storeArtifact ctx sp a => exact inCustody_storeArtifact i ctx sp a x q' hm hstep hq
    | removeFile path => exact inCustody_removeFile i path x q' hm hstep hq
    | store ctx o =>
        cases o with
        | recordSnapshot row =>
            exact inCustody_recordSnapshot i htransparent ctx row x q' hm hstep hq
        | _ => exact absurd rfl ho
    | _ => exact absurd rfl ho

end Update

end Steps

end Bop
