import Bop.Cli.Restore
import Bop.Controller.TempFiles
import Bop.System.Custody
import Bop.System.Producers

/-!
# Restored Bytes Are the Bytes That Were Hashed

What a row says of a backup is true of what restic holds, however many jobs of
however many processes run at the same time and wherever they are stopped. So a
restore that succeeds writes bytes of the size and the checksum in the row: an
identifier or a prefix that only one snapshot was ever given cannot bring back
the file of another, whichever repository it is looked up in.

Beside the jobs, others may change anything in the database but the snapshot
rows, and may remove snapshots from repositories. The extra arguments of the
repositories are such that they do not change what restic archives and reads.

## Main definitions

* `Working`, `Others`: The threads, and what happens beside them.
* `JobPool`: Jobs of any processes.
* `VaultRestoreSem`: The restore command in the same world.

## Theorems

* `spares_producer`, `spares_startup`: The other threads of a controller only
  do what others may.
* `faithful_of_run`: Every row is faithful, in every state that is reached.
* `retrieve_reads`: What a retrieval writes.
* `restored_intact`: What a restore writes is what the row says.
-/

namespace Bop

open Prog Relation
open Remote (RemoteOp RemoteAns)

/-- The threads of the pool run jobs: those of a controller's consumer, and those
    that `bop backup` makes. -/
inductive Working {S : Type} (c : Controller S) : Proc S Unit → Prop
  | job (job : Job) : Working c (do let _ ← c.runJob job; return ())
  | backup (host plugin : Bytes) : Working c (do let _ ← Cli.backup c host plugin; return ())

/-- What others may do: anything to the database but to the snapshot rows, and
    removing snapshots. -/
structure Others (v v' : Vault) : Prop where
  rows : v'.restic.shared.store.snapshots = v.restic.shared.store.snapshots
  repos : ∀ repo, v'.restic.repos repo ⊆ v.restic.repos repo
  issued : v'.restic.issued = v.restic.issued
  files : v'.files = v.files
  archive : v'.archive = v.archive

/-! ### The other threads of a controller -/

section Users

variable {S : Type}

/-- The operation records a row. -/
def Op.records : Op S → Bool
  | .store _ (.recordSnapshot _) => true
  | _ => false

/-- The operation leaves the snapshot rows alone. -/
def SparesRows (o : Op S) : Prop :=
  ∀ (w : Shared) (x : Ans o) (w' : Shared), SharedSem w o x w' →
    w'.store.snapshots = w.store.snapshots

theorem sparesRows_of (o : Op S) (ho : o.records = false) : SparesRows o := by
  intro w x w' h
  refine snapshots_of_shared w w' o x h ?_
  rintro ctx snap rfl
  cases ho

/-- A schedule that fires and a request that is served only do what others may. -/
theorem spares_producer {D Digest : Type} [DecidableEq Digest] (api : Api.Server S D Digest)
    (p : Proc S Unit) (hp : Producer api p) : Calls SparesRows p := by
  refine calls_producer ⟨fun o ho => sparesRows_of o ?_, fun _ _ => sparesRows_of _ rfl,
    fun _ _ _ _ => sparesRows_of _ rfl, fun _ _ _ => sparesRows_of _ rfl,
    fun _ => sparesRows_of _ rfl⟩ api p hp
  cases o with
  | store ctx o => cases o <;> first | rfl | cases ho
  | _ => rfl

/-- So does the startup recovery. -/
theorem spares_startup : Calls SparesRows (Cli.startup : Proc S (Except Bytes Unit)) := by
  refine calls_check _ _ _ _ (calls_call _ (sparesRows_of _ rfl)) fun _ => ?_
  refine calls_check _ _ _ _ ?_ fun _ => trivial
  refine calls_check _ _ _ _ (calls_call _ (sparesRows_of _ rfl)) fun jobs => ?_
  refine calls_bind _ _ _ (calls_forEach _ _ _ fun job _ => ?_) fun _ => trivial
  exact calls_bind _ _ _ (calls_call _ (sparesRows_of _ rfl)) fun _ => trivial

end Users

/-! ### Every row is faithful -/

/-- Jobs of any processes over one world, beside which others use it too. -/
abbrev JobPool (ι : Type) := Pool ι (Ans (S := ResticProvider)) Vault

section Pool

variable {ι : Type} {r : Restic} {built : Instance → BackupPlugin}
  {sha256 : Bytes → Bytes} {c : Controller ResticProvider}

theorem kept_working (p : Proc ResticProvider Unit) (hp : Working c p) :
    c.InOrder none p := by
  cases hp with
  | job job =>
      exact obeys_bind c.custody _ _ none _ _ (Controller.kept_runJob c job none)
        fun _ _ _ => trivial
  | backup host plugin =>
      refine obeys_bind c.custody _ _ none (fun _ _ => True) _ ?_ fun _ _ _ => trivial
      unfold Cli.backup
      split
      · trivial
      · split
        · trivial
        · refine Controller.inOrder_bind none _ _ _ ⟨rfl, fun _ => ⟨rfl, fun _ => trivial⟩⟩
            fun job => ?_
          refine Controller.inOrder_check none _ _ _ _ ⟨rfl, fun _ => trivial⟩
            (fun _ => trivial) fun _ => ?_
          exact obeys_check c.custody _ _ _ none _ _ (Controller.kept_runJob c job none)
            (fun _ _ _ => trivial) fun _ _ _ => trivial

/-- What others do keeps everything that is known. -/
theorem inCustody_others (q : ι → Option (Custody ResticProvider)) (v v' : Vault)
    (hq : InCustody r sha256 c q v) (h : Others v v') : InCustody r sha256 c q v' := by
  have hgrows : Grows v v' :=
    ⟨by rw [h.issued]; exact List.Subset.refl _, fun e _ => by rw [h.archive]⟩
  refine ⟨fun i k hi => (hq.known i k hi).imp fun content =>
    holds_grows k hgrows (by rw [h.files]) content, hq.own, fun row hrow => ?_,
    fun repo t ht => ?_, fun e he => ?_⟩
  · rw [h.rows] at hrow
    exact faithful_grows row hgrows (hq.rows row hrow)
  · rw [h.issued]
    exact hq.added.added repo t (h.repos repo ht)
  · rw [h.issued] at he
    exact hq.added.named e he

/-- A job that has just begun knows nothing. -/
theorem inCustody_idle (q : ι → Option (Custody ResticProvider)) [DecidableEq ι] (i : ι)
    (v : Vault) (hq : InCustody r sha256 c q v) :
    InCustody r sha256 c (Function.update q i none) v :=
  inCustody_update i none ⟨List.Subset.refl _, fun _ _ => rfl⟩ (fun _ _ _ _ => rfl)
    (fun _ h => by cases h) hq.rows hq.added hq

theorem inCustody_initial (files : Files) :
    InCustody r sha256 c (fun _ : ι => none) (Vault.initial files) where
  known := fun _ _ h => by cases h
  own := fun _ _ _ _ h => by cases h
  rows := fun _ hrow => absurd hrow List.not_mem_nil
  added := ⟨fun _ _ ht => absurd ht List.not_mem_nil, fun _ he => absurd he List.not_mem_nil⟩

/-- In every state that is reached, every row is faithful, and the repositories
    hold only what was added to them. -/
theorem faithful_of_run [DecidableEq ι] (htransparent : c.Transparent r) (files : Files)
    (s : JobPool ι)
    (hrun : ReflTransGen (PoolStep (through resticImpl (VaultSem r built sha256)) (Working c)
      Others) ⟨fun _ => none, Vault.initial files⟩ s) :
    (∀ row ∈ s.world.restic.shared.store.snapshots.rows, Faithful r sha256 c s.world row) ∧
      OnlyAdded s.world.restic := by
  rcases pool_invariant c.custody none (InCustody r sha256 c) (fun p hp => kept_working p hp)
    (fun q i v o x q' v' hq hm hw => inCustody_call i htransparent o x q' hm hw hq)
    (fun q i v hq => inCustody_idle q i v hq)
    (fun q v v' hq hw => inCustody_others q v v' hq hw) _ (inCustody_initial files) s hrun with
    ⟨q, hq⟩
  exact ⟨hq.rows, hq.added⟩

end Pool

/-! ### Reading it back -/

section Restore

variable {r : Restic} {built : Instance → BackupPlugin} {sha256 : Bytes → Bytes}

/-- The restore command in the world of the jobs. -/
def VaultRestoreSem (r : Restic) (built : Instance → BackupPlugin)
    (sha256 : Bytes → Bytes) : Semantics (RestoreOp ResticProvider) RestoreAns Vault
  | v, .process o, x, v' => through resticImpl (VaultSem r built sha256) v o x v'
  | v, .retrieve _ sp id a, x, v' => Performs (RetrieveSem r) (sp.retrieve id a) v x v'

/-- The files after a retrieval: no file but the target is touched, and on success
    the target holds this file's content. -/
structure ReadBack (v : Vault) (target : Bytes) (file : StoredFile) (x : Except Bytes Unit)
    (v' : Vault) : Prop where
  others : ∀ path, path ≠ target → v'.files path = v.files path
  same : v'.restic = v.restic ∧ v'.archive = v.archive
  target : x = .ok () → v'.files target = some file.content

/-- The world in which a target was emptied, or could not be. -/
def Emptied (v : Vault) (target : Bytes) : Except Bytes Unit → Vault → Prop
  | .ok _, u => u = { v with files := Function.update v.files target (some []) }
  | .error _, u => u = v

/-- What a lookup lists for an identifier was recorded under the path of the file
    that its snapshots hold. -/
theorem lists_path (p : ResticProvider) (hp : r.Transparent p) (id : SnapshotID)
    (hid : Identifier id) (file : StoredFile) (v : Vault)
    (huniq : ∀ repo, ∀ t ∈ v.restic.repos repo, id <+: t.id → v.archive t.id = some file)
    (out : Bytes) (h : Lists r v (p.fullArgs (lookupArgs id)) out) (snaps : List ResticSnapshot)
    (hdecode : ResticSnapshot.decode out = some snaps) (s : ResticSnapshot) (hs : s ∈ snaps)
    (path : Bytes) (hpath : path ∈ Json.GoSlice.toList s.paths) :
    path = file.path ∧ path.head? ≠ some 45 := by
  rcases h with ⟨cmd, hread, hlists⟩
  rw [read_lookupArgs p id (head_of_identifier id hid)] at hread
  rcases Option.map_eq_some_iff.mp hread with ⟨extra, hextra, rfl⟩
  have hown : ∀ kv ∈ [(repoFlag, p.repository), (jsonFlag, "true")], kv.1 ∈ ownFlags :=
    List.forall_mem_cons.mpr ⟨(by decide : repoFlag ∈ ownFlags), List.forall_mem_singleton.mpr
      (by decide : jsonFlag ∈ ownFlags)⟩
  rcases direct_of_transparent p hp "snapshots" ⟨_, [id]⟩ extra hown hextra with
    ⟨hdirect, hoperands⟩
  rcases hlists rfl hdirect id hoperands hid snaps hdecode s hs with ⟨t, ht, hleads, hpaths⟩
  rcases hpaths path hpath with ⟨habsolute, hsame⟩
  exact ⟨hsame file (huniq _ t ht hleads), habsolute⟩

/-- What a dump of that path writes is the file. -/
theorem dumps_content (p : ResticProvider) (hp : r.Transparent p) (id : SnapshotID)
    (hid : Identifier id) (file : StoredFile) (v : Vault)
    (huniq : ∀ repo, ∀ t ∈ v.restic.repos repo, id <+: t.id → v.archive t.id = some file)
    (hpath : file.path.head? ≠ some 45) (written : Bytes)
    (h : Dumps r v (p.fullArgs (dumpArgs id file.path)) written) : written = file.content := by
  rcases h with ⟨cmd, hread, hdumps⟩
  rw [read_dumpArgs p id file.path (head_of_identifier id hid) hpath] at hread
  rcases Option.map_eq_some_iff.mp hread with ⟨extra, hextra, rfl⟩
  have hown : ∀ kv ∈ [(repoFlag, p.repository)], kv.1 ∈ ownFlags :=
    List.forall_mem_singleton.mpr (by decide : repoFlag ∈ ownFlags)
  rcases direct_of_transparent p hp "dump" ⟨_, [id, resticDumpPath file.path]⟩ extra hown hextra
    with ⟨hdirect, hoperands⟩
  rcases hdumps rfl hdirect id _ hoperands hid with ⟨t, ht, hleads, hheld⟩
  exact hheld file (huniq _ t ht hleads) rfl

/-- A retrieval writes the file of the snapshots its identifier is a prefix of. -/
theorem retrieve_reads (p : ResticProvider) (hp : r.Transparent p) (id : SnapshotID)
    (hid : Identifier id) (a : Artifact) (file : StoredFile) (v v' : Vault)
    (x : Except Bytes Unit)
    (huniq : ∀ repo, ∀ t ∈ v.restic.repos repo, id <+: t.id → v.archive t.id = some file)
    (h : Performs (RetrieveSem r) (p.retrieve id a) v x v') : ReadBack v a.path file x v' := by
  have hstay : ∀ err, ReadBack v a.path file (.error err) v := fun err =>
    ⟨fun _ _ => rfl, ⟨rfl, rfl⟩, fun h => by cases h⟩
  revert h
  refine fun h => (?_ : Triple (RetrieveSem r) (· = v) (p.retrieve id a)
    (ReadBack v a.path file)) v x v' rfl h
  -- The lookup finds the path the file was recorded under.
  refine triple_check (fun x u => u = v ∧ ∀ out, x = .ok out →
    Lists r v (p.fullArgs (lookupArgs id)) out) _ _ _ ?_ (fun out => ?_) ?_
  · refine triple_op _ _ fun u x u' hu hs => ?_
    subst hu
    exact hs
  · rcases hdecode : ResticSnapshot.decode out with _ | snaps
    · exact triple_ret _ fun u hu => hu.1 ▸ hstay _
    rcases hsource : sourcePath snaps with _ | source
    · simp only [hsource]
      exact triple_ret _ fun u hu => hu.1 ▸ hstay _
    simp only [hsource]
    have hrecorded : ∀ u : Vault, (u = v ∧ ∀ out', Except.ok (ε := Bytes) out = .ok out' →
        Lists r v (p.fullArgs (lookupArgs id)) out') →
        u = v ∧ source = file.path ∧ source.head? ≠ some 45 := by
      rintro u ⟨hu, hlists⟩
      refine ⟨hu, ?_⟩
      unfold sourcePath at hsource
      rcases Option.bind_eq_some_iff.mp hsource with ⟨s, hs, hpath⟩
      exact lists_path p hp id hid file v huniq out (hlists out rfl) snaps hdecode s
        (List.mem_of_mem_head? hs) source (List.mem_of_mem_head? hpath)
    refine triple_pre ?_ hrecorded
    -- The target is emptied, and the dump fills it.
    refine triple_check (fun x u => (source = file.path ∧ source.head? ≠ some 45) ∧
      Emptied v a.path x u) _ _ _ ?_ (fun _ => ?_) ?_
    · refine triple_op _ _ fun u x u' hu hs => ⟨hu.2, ?_⟩
      rcases hu with ⟨rfl, _⟩
      cases x with
      | ok _ => exact hs
      | error _ => exact hs
    · refine triple_deferring (ReadBack v a.path file) _ _ ?_ fun x => ?_
      · refine triple_check (ReadBack v a.path file) _ _ _ ?_ (fun _ => triple_ret _ fun u hu => hu)
          fun err u hu => ⟨hu.others, hu.same, fun h => by cases h⟩
        refine triple_op _ _ fun u x u' hu hs => ?_
        rcases hu with ⟨⟨rfl, habsolute⟩, rfl⟩
        rcases hs with ⟨written, rfl, hdump⟩
        refine ⟨fun path hne => ?_, ⟨rfl, rfl⟩, fun hx => ?_⟩
        · simp only [Function.update_of_ne hne]
        · have hcontent : written = file.content :=
            dumps_content p hp id hid file _ huniq habsolute written (hdump hx)
          rw [hcontent]
          simp only [Function.update_self, Option.map_some, List.nil_append]
      · refine triple_op _ _ fun u x u' hu hs => ?_
        rw [show u' = u from hs]
        exact hu
    · rintro err u ⟨_, hu⟩
      rw [show u = v from hu]
      exact hstay _
  · rintro err u ⟨hu, _⟩
    rw [hu]
    exact hstay _

/-- Looking up the host changes nothing. -/
theorem snapshotHost_reads (order : List Bytes) (snapshotID : Bytes) (v : Vault) :
    Triple (VaultRestoreSem r built sha256) (· = v) (Cli.snapshotHost order snapshotID)
      (fun _ => (· = v)) := by
  have hlist : ∀ (hosts found : List Bytes), Triple (VaultRestoreSem r built sha256) (· = v)
      (Cli.findHosts snapshotID found hosts) (fun _ => (· = v)) := by
    intro hosts
    induction hosts with
    | nil => exact fun found => triple_ret _ fun u hu => hu
    | cons host rest ih =>
        intro found
        refine triple_check (fun _ => (· = v)) _ _ _ ?_ (fun snaps => ?_) fun _ u hu => hu
        · refine triple_op _ _ fun u x u' hu hs => ?_
          subst hu
          rcases vault_other (.store .caller (.listSnapshots host)) x rfl hs with
            ⟨⟨shared, hsem, hrestic⟩, harchive, hfiles⟩
          have hsame : shared = u.restic.shared := shared_of_readsOnly _ _
            (.store .caller (.listSnapshots host) : Op ResticProvider) x rfl hsem
          subst hsame
          cases u'
          simp only at hrestic harchive hfiles
          rw [hrestic, harchive, show _ = u.files from hfiles]
        · split
          · exact ih _
          · exact ih _
  refine triple_check (fun _ => (· = v)) _ _ _ (hlist order []) (fun found => ?_) fun _ u hu => hu
  split <;> exact triple_ret _ fun u hu => hu

/-- What a restore writes is what the row says: if what is passed begins the
    row's identifier and that of no other snapshot that was ever added, then a
    restore that succeeds leaves a target of the row's size and checksum. Whatever
    becomes of it, no other file is touched, and nothing else is. -/
theorem restored_intact {ι : Type} [DecidableEq ι] (c c' : Controller ResticProvider)
    (htransparent : c.Transparent r) (htransparent' : c'.Transparent r)
    (files : Files) (s : JobPool ι)
    (hrun : ReflTransGen (PoolStep (through resticImpl (VaultSem r built sha256)) (Working c)
      Others) ⟨fun _ => none, Vault.initial files⟩ s)
    (row : Snapshot) (hrow : row ∈ s.world.restic.shared.store.snapshots.rows)
    (snapshotID : Bytes) (hleads : snapshotID <+: row.id)
    (huniq : ∀ e ∈ s.world.restic.issued, snapshotID <+: e.2.id → e.2.id = row.id)
    (order : List Bytes) (target host : Bytes) (x : Except Bytes Unit) (v : Vault)
    (hrestore : Performs (VaultRestoreSem r built sha256)
      (Cli.restore c' order snapshotID target host) s.world x v) :
    (∀ path, path ≠ target → v.files path = s.world.files path) ∧
      (v.restic = s.world.restic ∧ v.archive = s.world.archive) ∧
      (x = .ok () → ∃ content, v.files target = some content ∧ row.size = content.length ∧
        row.checksum = checksumText (sha256 content)) := by
  rcases faithful_of_run htransparent files s hrun with ⟨hfaithful, honly⟩
  rcases hfaithful row hrow with ⟨_, file, _, ⟨_, _, t, _, hid, hadded⟩, hfile, hsize, hsum⟩
  -- What begins an identifier is one itself.
  have hidentifier : Identifier snapshotID := by
    have hrowid : Identifier row.id := hid ▸ honly.named _ hadded.issued
    exact fun b hb => hrowid b (hleads.subset hb)
  -- Whatever repository is read, the snapshots it may be read from hold the row's file.
  have hmatching : ∀ repo, ∀ t ∈ s.world.restic.repos repo,
      snapshotID <+: t.id → s.world.archive t.id = some file := by
    intro repo t ht hbegins
    rw [huniq _ (honly.added _ t ht) hbegins]
    exact hfile
  have hread : ReadBack s.world target file x v := by
    have hstay : ∀ err, ReadBack s.world target file (.error err) s.world := fun err =>
      ⟨fun _ _ => rfl, ⟨rfl, rfl⟩, fun h => by cases h⟩
    refine (?_ : Triple (VaultRestoreSem r built sha256) (· = s.world)
      (Cli.restore c' order snapshotID target host) (ReadBack s.world target file)) _ x v rfl
      hrestore
    unfold Cli.restore
    split
    · exact triple_ret _ fun u hu => hu ▸ hstay _
    refine triple_check (fun _ => (· = s.world)) _ _ _ ?_ (fun host => ?_)
      fun err u hu => hu ▸ hstay _
    · split
      · exact snapshotHost_reads order snapshotID s.world
      · exact triple_ret _ fun u hu => hu
    -- Whichever repository it is, its extra arguments do not interfere.
    refine triple_check (fun x u => u = s.world ∧ ∀ sp, x = .ok sp → r.Transparent sp) _ _ _
      (triple_ret _ fun u hu => ⟨hu, fun sp hsp => ?_⟩) (fun sp => ?_)
      fun err u hu => hu.1 ▸ hstay _
    · unfold Cli.restoreStorage at hsp
      split at hsp
      · exact htransparent'.storageFor host sp hsp
      · cases hsp
        exact htransparent'.storage
    refine triple_check (ReadBack s.world target file) _ _ _ ?_
      (fun _ => triple_ret _ fun u hu => hu)
      fun err u hu => ⟨hu.others, hu.same, fun h => by cases h⟩
    refine triple_op _ _ fun u x u' hu hs => ?_
    rcases hu with ⟨rfl, hsp⟩
    exact retrieve_reads sp (hsp sp rfl) snapshotID hidentifier (Cli.restoreTarget target) file _
      u' x hmatching hs
  refine ⟨hread.others, hread.same, fun hok => ⟨file.content, hread.target hok, hsize, hsum⟩⟩

/-! ### One job and its restore -/

/-- A machine whose plugin finds the journal. -/
def journalSite : Plugin := ⟨[⟨Logs.journalResource, "systemd journal"⟩], idlePlugin.artifact⟩

/-- The line the journal has. -/
def journalLine : Bytes := [117, 112, 10]

/-- Its hash. -/
def journalHash : Bytes := [109, 202, 179, 103, 70, 118, 35, 151, 213, 49, 187, 61, 14, 0, 195, 27,
  122, 234, 33, 171, 51, 113, 193, 20, 158, 60, 161, 186, 32, 65, 123, 97]

/-- A host whose journal has one line. -/
def journalHost : (o : RemoteOp) → LocalFiles → RemoteAns o × LocalFiles
  | .run _ _ (some path), w =>
      if w.files path = none then (.error "no such file", w)
      else (.ok (), { w with files := Function.update w.files path (some journalLine) })
  | .stat path, w => (match w.files path with
      | some content => .ok (byteSize content)
      | none => .error "no such file", w)
  | o, w => Controller.quietHost o w

theorem sizedFiles_journalHost (o : RemoteOp) (w : LocalFiles) :
    Remote.sizedFiles w o (journalHost o w).1 (journalHost o w).2 := by
  cases o with
  | run command stdin stdout =>
      refine ⟨?_, fun path n h => by cases h⟩
      cases stdout with
      | none => exact rfl
      | some path =>
          by_cases h : w.files path = none
          · simp only [journalHost, if_pos h]
            exact Touches.unwritten w path
          · simp only [journalHost, if_neg h]
            exact Touches.written w path journalLine h
  | stat path =>
      refine ⟨rfl, fun path' n h => ?_⟩
      cases hfile : w.files path with
      | none => simp [journalHost, hfile, Remote.looked] at h
      | some content =>
          simp only [journalHost, hfile, Remote.looked, Option.some.injEq, Prod.mk.injEq] at h
          rcases h with ⟨rfl, rfl⟩
          exact ⟨content, hfile, rfl⟩
  | createTemp dir pattern =>
      exact ⟨Controller.files_quietHost (.createTemp dir pattern) w, fun path n h => by cases h⟩
  | closeFile path =>
      exact ⟨Controller.files_quietHost (.closeFile path) w, fun path n h => by cases h⟩
  | removeFile path =>
      exact ⟨Controller.files_quietHost (.removeFile path) w, fun path n h => by cases h⟩
  | openFile path => exact ⟨rfl, fun path n h => by cases h⟩
  | now => exact ⟨rfl, fun path n h => by cases h⟩

/-- The files as a plugin finds them. -/
def seenFiles (files : Files) : LocalFiles := ⟨files, ∅, ∅, ∅⟩

/-- The one file that is made on it. -/
theorem journal_artifact (tempDir : Bytes) (res : Resource) (files : Files) (a : Artifact)
    (h : (exec journalHost (Logs.backup ⟨true, [], [], 0⟩ tempDir res) (seenFiles files)).1 =
      .ok a) : a.path = Controller.journalFile := by
  have hdelivered := (backup_delivered (seenFiles files) Controller.journalPlugin tempDir res _ _ _
    (settled_self _ rfl rfl) (steps_exec Remote.sizedFiles journalHost sizedFiles_journalHost
      (Logs.backup ⟨true, [], [], 0⟩ tempDir res) (seenFiles files))).handedOver
  rw [h] at hdelivered
  -- No other file is ever made.
  rcases steps_exec (fun w o x w' => journalHost o w = (x, w')) journalHost (fun _ _ => rfl)
    (Logs.backup ⟨true, [], [], 0⟩ tempDir res) (seenFiles files) with ⟨tr, _, hs⟩
  refine steps_invariant _ (fun _ => True) (fun w => ∀ path ∈ w.made, path = Controller.journalFile)
    (fun w o x w' _ hstep hw => ?_) tr _ _ hs (fun _ _ => trivial)
    (fun path hpath => absurd hpath (Set.notMem_empty path)) _ hdelivered.1.mine
  have hw' : w' = (journalHost o w).2 := by rw [hstep]
  rw [hw']
  cases o with
  | createTemp dir pattern =>
      simp only [journalHost, Controller.quietHost, Controller.making]
      split
      · rintro path (rfl | hpath)
        · rfl
        · exact hw path hpath
      · exact hw
  | run command stdin stdout =>
      cases stdout with
      | none => exact hw
      | some path =>
          simp only [journalHost]
          split <;> exact hw
  | removeFile path =>
      simp only [journalHost, Controller.quietHost, Controller.removing]
      split <;> exact hw
  | _ => exact hw

/-- The file that a command names. -/
def operandFile (v : Vault) (args : List Bytes) : Option StoredFile :=
  (dailyRestic.read args).bind fun cmd => cmd.given.operands.head?.bind fun path =>
    (v.files path).map (StoredFile.mk path)

/-- The world of that machine. A backup is refused if there is no file. -/
def Vault.answer : (o : ResticOp) → Vault → ResticAns o × Vault
  | .other (.backup _ p res), v =>
      let backup := Logs.backup ⟨true, [], [], 0⟩ p.tempDir res
      let after := exec journalHost backup (seenFiles v.files)
      (after.1, { v with files := after.2.files })
  | .other (.verify _ _ a), v =>
      let after := exec journalHost (Logs.verify a) (seenFiles v.files)
      (after.1, { v with files := after.2.files })
  | .other (.restore _ _ _), v =>
      let after := exec journalHost Logs.restore (seenFiles v.files)
      (after.1, { v with files := after.2.files })
  | .other (.checksumFile path), v => (match v.files path with
      | some _ => .ok (checksumText journalHash)
      | none => .error "no such file", v)
  | .other (.removeFile path), v =>
      (.ok (), { v with files := Function.update v.files path none })
  | .other o, v =>
      let after := Shared.answer journalSite 9 o v.restic.shared
      (after.1, { v with restic := { v.restic with shared := after.2 } })
  | .run args, v =>
      let after := ResticWorld.answer journalSite 9 (.run args) v.restic
      match operandFile v args with
      | some file => (after.1, { v with
          restic := after.2
          archive := fun id => if v.restic.issued.any (fun e => e.2.id = id) then v.archive id
            else some file })
      | none => match dailyRestic.read args with
        | some cmd =>
            if cmd.name = "backup" then (.error "no such file", v)
            else (after.1, { v with restic := after.2 })
        | none => (after.1, { v with restic := after.2 })

/-- A snapshot that a run adds has a new identifier, and the run is a backup. -/
theorem added_of_run {w w' : ResticWorld} (args : List Bytes) (x : Except Bytes Bytes)
    (h : r.RunSem w args x w') (e : Bytes × StoredSnapshot) (he : e ∈ w'.issued)
    (hnew : e ∉ w.issued) :
    (∃ cmd, r.read args = some cmd ∧ cmd.name = "backup") ∧ ∀ e' ∈ w.issued, e'.2.id ≠ e.2.id := by
  cases h with
  | backup cmd t hread hname hfresh _ _ _ _ =>
      rcases List.mem_append.mp he with hold | heq
      · exact absurd hold hnew
      · rw [List.mem_singleton.mp heq]
        exact ⟨⟨cmd, hread, hname⟩, hfresh⟩
  | _ => exact absurd he hnew

/-- Running restic on that machine. -/
theorem vaultSem_run (args : List Bytes) (v : Vault) :
    VaultSem dailyRestic (fun _ => Controller.journalPlugin) (fun _ => journalHash) v (.run args)
      (Vault.answer (.run args) v).1 (Vault.answer (.run args) v).2 := by
  have hbase : dailyRestic.RunSem v.restic args
      (ResticWorld.answer journalSite 9 (.run args) v.restic).1
      (ResticWorld.answer journalSite 9 (.run args) v.restic).2 :=
    resticSem_answer journalSite 9 (.run args) v.restic
  simp only [Vault.answer]
  split
  · next file hfile =>
      refine ⟨hbase, rfl, fun e he => ?_, fun cmd path hread _ hoperands out _ e he hnew => ?_⟩
      · have hany : (v.restic.issued.any fun e' => e'.2.id = e.2.id) = true :=
          List.any_eq_true.mpr ⟨e, he, decide_eq_true rfl⟩
        exact if_pos hany
      · -- The file is the one that the operand names.
        have hoperand : (v.files path).map (StoredFile.mk path) = some file := by
          simp only [operandFile, hread, Option.bind_some, hoperands, List.head?_cons] at hfile
          exact hfile
        rcases Option.map_eq_some_iff.mp hoperand with ⟨content, hcontent, rfl⟩
        refine ⟨content, path, hcontent, if_neg fun hany => ?_⟩
        rcases List.any_eq_true.mp hany with ⟨e', he', heq⟩
        exact (added_of_run args _ hbase e he hnew).2 e' he' (of_decide_eq_true heq)
  · -- Without a file nothing is added.
    have hnone : ∀ (hnot : ∀ cmd, dailyRestic.read args = some cmd → cmd.name ≠ "backup"),
        VaultSem dailyRestic (fun _ => Controller.journalPlugin) (fun _ => journalHash) v
          (.run args) (ResticWorld.answer journalSite 9 (.run args) v.restic).1
          { v with restic := (ResticWorld.answer journalSite 9 (.run args) v.restic).2 } := by
      intro hnot
      refine ⟨hbase, rfl, fun _ _ => rfl, fun _ _ _ _ _ out _ e he hnew => ?_⟩
      rcases (added_of_run args _ hbase e he hnew).1 with ⟨cmd, hread, hname⟩
      exact absurd hname (hnot cmd hread)
    split
    · next cmd hread =>
        split
        · next hname =>
            refine ⟨Restic.RunSem.notBackedUp cmd hread hname fun id h => ?_, rfl, fun _ _ => rfl,
              fun _ _ _ _ _ _ h => by cases h⟩
            rcases h with ⟨out, hout, _⟩
            cases hout
        · next hname =>
            refine hnone fun cmd' hread' => ?_
            rw [hread] at hread'
            cases hread'
            exact hname
    · next hread =>
        refine hnone fun cmd' hread' => ?_
        rw [hread] at hread'
        cases hread'

theorem vaultSem_answer (o : ResticOp) (v : Vault) :
    VaultSem dailyRestic (fun _ => Controller.journalPlugin) (fun _ => journalHash) v o
      (Vault.answer o v).1 (Vault.answer o v).2 := by
  cases o with
  | run args => exact vaultSem_run args v
  | other o =>
      have hplugin : ∀ {α : Type} (p : Remote.Proc α), (PluginProc.shell p).Leaves v.files
          (exec journalHost p (seenFiles v.files)).1
          (exec journalHost p (seenFiles v.files)).2.files := fun p =>
        ⟨seenFiles v.files, _, rfl, rfl, rfl,
          steps_exec Remote.sizedFiles journalHost sizedFiles_journalHost p _, rfl⟩
      cases o with
      | backup ctx p res =>
          refine ⟨⟨_, rfl, rfl⟩, rfl, hplugin _, fun a ha => ?_⟩
          rw [journal_artifact p.tempDir res v.files a ha]
          decide
      | verify ctx p a => exact ⟨⟨_, rfl, rfl⟩, rfl, hplugin _⟩
      | restore ctx p a => exact ⟨⟨_, rfl, rfl⟩, rfl, hplugin _⟩
      | checksumFile path =>
          refine ⟨⟨_, rfl, rfl⟩, rfl, rfl, fun checksum h => ?_⟩
          cases hfile : v.files path with
          | none => simp [Vault.answer, hfile] at h
          | some content =>
              simp only [Vault.answer, hfile, Except.ok.injEq] at h
              exact ⟨content, rfl, h.symm⟩
      | removeFile path => exact ⟨⟨_, rfl, rfl⟩, rfl, Or.inr rfl⟩
      | _ => exact ⟨⟨_, sharedSem_answer journalSite 9 _ v.restic.shared, rfl⟩, rfl, rfl⟩

/-- A backup of that machine's journal. -/
def journalBackup : Proc ResticProvider Unit := do
  let _ ← Cli.backup siteController "web" "files"
  return ()

/-- The world after it. -/
def journalVault : Vault :=
  (exec Vault.answer (withRestic journalBackup) (Vault.initial fun _ => none)).2

/-- It is reached. -/
theorem journalVault_reached : ∃ s : JobPool Nat,
    ReflTransGen (PoolStep (through resticImpl (VaultSem dailyRestic
      (fun _ => Controller.journalPlugin) fun _ => journalHash)) (Working siteController) Others)
      ⟨fun _ => none, Vault.initial fun _ => none⟩ s ∧ s.world = journalVault := by
  rcases steps_exec_unit _ Vault.answer vaultSem_answer (withRestic journalBackup)
    (Vault.initial fun _ => none) with ⟨tr, hr, hs⟩
  rcases steps_interp _ resticImpl journalBackup tr _ _ _ hr hs with ⟨tr', hr', hs'⟩
  rcases reaches_of_runs _ (PoolStep (ι := Nat) (through resticImpl (VaultSem dailyRestic
      (fun _ => Controller.journalPlugin) fun _ => journalHash)) (Working siteController) Others)
    (fun w p s => s.world = w ∧ s.threads 0 = some p)
    (fun s w o k x w' h hw => ⟨_, PoolStep.call s 0 o k x w' h.2 (h.1 ▸ hw), rfl,
      by simp only [Function.update_self]⟩) journalBackup tr' () hr' _ _ hs'
    ⟨Function.update (fun _ => none) 0 (some journalBackup), Vault.initial fun _ => none⟩
    ⟨rfl, rfl⟩ with ⟨s, hreach, hworld, _⟩
  exact ⟨s, ReflTransGen.head (PoolStep.start _ 0 _ (Working.backup _ _)) hreach, hworld⟩

/-- What the lookup of its snapshot answers. -/
def journalListing : Bytes :=
  "[\x7b\"id\":\"e0\",\"paths\":[\"/tmp/logs-journal-1\"]\x7d]"

theorem journalListing_paths (snaps : List ResticSnapshot)
    (h : ResticSnapshot.decode journalListing = some snaps) (s : ResticSnapshot) (hs : s ∈ snaps) :
    Json.GoSlice.toList s.paths = [Controller.journalFile] := by
  have hpaths : ∀ decoded, ResticSnapshot.decode journalListing = some decoded →
      decoded.map (fun s => Json.GoSlice.toList s.paths) = [[Controller.journalFile]] := by
    intro decoded hdecoded
    have hall : (ResticSnapshot.decode journalListing).map (fun snaps =>
        snaps.map fun s => Json.GoSlice.toList s.paths) = some [[Controller.journalFile]] := by
      decide +kernel
    rw [hdecoded] at hall
    exact Option.some.inj hall
  have hmem : Json.GoSlice.toList s.paths ∈ snaps.map fun s => Json.GoSlice.toList s.paths :=
    List.mem_map_of_mem hs
  rw [hpaths snaps h, List.mem_singleton] at hmem
  exact hmem

/-- The repository holds the journal's file, in a snapshot with that identifier. -/
def JournalStored (v : Vault) : Prop :=
  ∃ t ∈ v.restic.repos backupRepo.repository, ("e0" : Bytes) <+: t.id ∧
    ∀ file, v.archive t.id = some file →
      file.path = Controller.journalFile ∧ file.content = journalLine

section Journal

variable (v : Vault) (h : JournalStored v)

include h

/-- The lookup of the snapshot and the dump of its file. -/
theorem lists_journal :
    Lists dailyRestic v (backupRepo.fullArgs (lookupArgs "e0")) journalListing := by
  rcases h with ⟨t, ht, hleads, hheld⟩
  refine ⟨_, read_lookupArgs backupRepo "e0" (by decide), fun _ _ id hid _ snaps hsnaps s hs => ?_⟩
  cases hid
  refine ⟨t, ht, hleads, fun path hp => ?_⟩
  rw [journalListing_paths snaps hsnaps s hs, List.mem_singleton] at hp
  subst hp
  exact ⟨by decide, fun file hfile => (hheld file hfile).1.symm⟩

theorem dumps_journal : Dumps dailyRestic v
    (backupRepo.fullArgs (dumpArgs "e0" Controller.journalFile)) journalLine := by
  rcases h with ⟨t, ht, hleads, hheld⟩
  refine ⟨_, read_dumpArgs backupRepo "e0" _ (by decide) (by decide), fun _ _ id source hid _ => ?_⟩
  cases hid
  exact ⟨t, ht, hleads, fun file hfile _ => (hheld file hfile).2.symm⟩

/-- A retrieval of it. -/
theorem retrieves_journal : ∃ v', Performs (RetrieveSem dailyRestic)
    (backupRepo.retrieve "e0" (Cli.restoreTarget "/tmp/out")) v (.ok ()) v' := by
  have hsource : (ResticSnapshot.decode journalListing).bind sourcePath =
      some Controller.journalFile := by
    decide +kernel
  rcases Option.bind_eq_some_iff.mp hsource with ⟨snaps, hdecode, hpath⟩
  let emptied : Vault := { v with files := Function.update v.files "/tmp/out" (some []) }
  let written : Vault := { emptied with
    files := Function.update emptied.files "/tmp/out"
      ((emptied.files "/tmp/out").map (· ++ journalLine)) }
  refine ⟨written, [⟨.run (backupRepo.fullArgs (lookupArgs "e0")), .ok journalListing⟩,
    ⟨.create "/tmp/out", .ok ()⟩,
    ⟨.runToWriter "/tmp/out" (backupRepo.fullArgs (dumpArgs "e0" Controller.journalFile)), .ok ()⟩,
    ⟨.close "/tmp/out", ()⟩], ?_, ?_⟩
  · refine (runs_check_iff _ _ _ _ _).mpr (Or.inl ⟨[_], _, journalListing, rfl,
      (runs_call_iff _ _ _ _).mpr ⟨_, _, rfl, Runs.ret _⟩, ?_⟩)
    simp only [hdecode, hpath]
    refine (runs_call_iff _ _ _ _).mpr ⟨_, _, rfl, (runs_call_iff _ _ _ _).mpr ⟨_, _, rfl, ?_⟩⟩
    exact (runs_call_iff _ _ _ _).mpr ⟨_, _, rfl, Runs.ret _⟩
  · refine Steps.cons v v _ _ _ _ ⟨rfl, ?_⟩ <|
      Steps.cons v emptied _ _ _ _ rfl <|
      Steps.cons emptied written _ _ _ _ ⟨journalLine, rfl, fun _ => dumps_journal emptied h⟩ <|
      Steps.cons written written _ _ _ _ rfl (Steps.nil written)
    rintro out ⟨⟩
    exact lists_journal v h

end Journal

/-- That world is one. -/
theorem journalVault_stored : JournalStored journalVault := by
  have hheld : ∀ t ∈ journalVault.restic.repos backupRepo.repository,
      (journalVault.archive t.id).map StoredFile.path = some Controller.journalFile ∧
        (journalVault.archive t.id).map StoredFile.content = some journalLine := by
    decide +kernel
  have hthere : ∃ t ∈ journalVault.restic.repos backupRepo.repository, ("e0" : Bytes) <+: t.id := by
    decide +kernel
  rcases hthere with ⟨t, ht, hleads⟩
  refine ⟨t, ht, hleads, fun file hfile => ?_⟩
  have hboth := hheld t ht
  rw [hfile] at hboth
  exact ⟨Option.some.inj hboth.1, Option.some.inj hboth.2⟩

/-- A restore of it. -/
theorem journalVault_restored : ∃ v, Performs (VaultRestoreSem dailyRestic
    (fun _ => Controller.journalPlugin) fun _ => journalHash)
    (Cli.restore siteController [] "e0" "/tmp/out" "web") journalVault (.ok ()) v := by
  rcases retrieves_journal journalVault journalVault_stored with ⟨v, hv⟩
  refine ⟨v, [⟨.retrieve .caller backupRepo "e0" (Cli.restoreTarget "/tmp/out"), .ok ()⟩], ?_,
    Steps.cons journalVault v v _ _ _ hv (Steps.nil v)⟩
  exact (runs_call_iff _ _ _ _).mpr ⟨_, _, rfl, Runs.ret _⟩

/-- Its extra arguments do not interfere. -/
theorem siteController_transparent : siteController.Transparent dailyRestic := by
  have hrepo : dailyRestic.Transparent backupRepo := fun command extra hextra => by
    rcases within_backupRepo keepDaily command extra hextra with ⟨hoperands, hinert⟩
    exact ⟨hoperands, fun kv hkv => Or.inr (hinert kv hkv)⟩
  refine ⟨hrepo, fun host sp hsp => ?_⟩
  -- It has one server, and that uses the default repository.
  rw [Controller.storageFor, siteController, lookup_host] at hsp
  by_cases hhost : host = "web"
  · simp only [if_pos hhost] at hsp
    rw [if_pos (by rfl)] at hsp
    cases hsp
    exact hrepo
  · simp only [if_neg hhost] at hsp
    cases hsp

/-- The line is back. -/
theorem restored_intact_journal : ∃ row ∈ journalVault.restic.shared.store.snapshots.rows, ∃ v,
    Performs (VaultRestoreSem dailyRestic (fun _ => Controller.journalPlugin) fun _ => journalHash)
      (Cli.restore siteController [] "e0" "/tmp/out" "web") journalVault (.ok ()) v ∧
    ∃ content, v.files "/tmp/out" = some content ∧ row.size = content.length ∧
      row.checksum = checksumText journalHash := by
  have hrow : ∃ row ∈ journalVault.restic.shared.store.snapshots.rows, row.id = "e0" := by
    decide +kernel
  rcases hrow with ⟨row, hrow, hid⟩
  rcases journalVault_restored with ⟨v, hv⟩
  rcases journalVault_reached with ⟨s, hrun, hworld⟩
  have huniq : ∀ e ∈ journalVault.restic.issued, ("e0" : Bytes) <+: e.2.id → e.2.id = "e0" := by
    decide +kernel
  refine ⟨row, hrow, v, hv, ?_⟩
  rw [← hworld] at hrow hv huniq
  exact (restored_intact siteController siteController siteController_transparent
    siteController_transparent _ s hrun row hrow "e0" (hid ▸ List.prefix_refl _)
    (fun e he hleads => (huniq e he hleads).trans hid.symm) [] "/tmp/out" "web" _ v hv).2.2 rfl

end Restore

end Bop
