import Bop.Plugin.ArtifactSize
import Bop.Storage.Presence
import Bop.Storage.Retrieve

/-!
# The Bytes a Snapshot Holds

Repositories, the metadata store and the files of the controller's machine as
one world. A backup reads the file it is given, and from then on the snapshot
holds what the file held. The entry points of a plugin do to the files what
their programs do. A checksum is that of the file it is computed from.

Restic documents what reading a snapshot back answers: a lookup lists snapshots
that the identifier is a prefix of, with the path each was recorded under, and
a dump of that path writes the file that was recorded, if the identifier is a
prefix of only one. All of this is said of commands without options that archive
something else, list something else or write somewhere else.

The hash function is a parameter, and nothing is assumed of it.

## Main definitions

* `Vault`: The world.
* `checksumText`: `checksumFile`'s result for a hash.
* `FilesSem`, `Archives`, `VaultSem`: What operations do to it.
* `Lists`, `Dumps`, `RetrieveSem`: What reading back does to it.
* `Restic.Transparent`: A provider whose extra arguments do not interfere.

## Theorems

* `vault_storeArtifact`: A stored artifact's snapshot holds its file.
* `vault_applyRetention`, `vault_verifySnapshot`: No snapshot's file changes.
* `leaves_backup`: What a plugin's backup leaves of the files.
-/

namespace Bop

open Prog

/-- A file as it is held in a snapshot, with the path it is recorded under. -/
structure StoredFile where
  path : Bytes
  content : Bytes

/-- Repositories and the store, the files of the machine, and the file that each
    snapshot holds. -/
structure Vault where
  restic : ResticWorld
  files : Files
  archive : SnapshotID → Option StoredFile

/-- No database, no snapshot, and any files. -/
def Vault.initial (files : Files) : Vault := ⟨ResticWorld.initial, files, fun _ => none⟩

/-- `%x` of bytes. -/
def hexText (data : Bytes) : Bytes :=
  data.flatMap fun b => [hexDigit (b.toNat / 16), hexDigit (b.toNat % 16)]

/-- What `checksumFile` returns for a file with this hash. -/
def checksumText (digest : Bytes) : Bytes := "sha256:" ++ hexText digest

/-- What an entry point of a plugin leaves of the files, seen from the moment it is
    called. -/
def PluginProc.Leaves {α : Type} (p : PluginProc α) (files : Files) (a : α) (files' : Files) :
    Prop :=
  ∃ w w' : LocalFiles, w.files = files ∧ w.made = ∅ ∧ w.removed = ∅ ∧ p.Measures w a w' ∧
    w'.files = files'

section Semantics

variable (r : Restic) (built : Instance → BackupPlugin) (sha256 : Bytes → Bytes)

/-- What the operations of a process do to the files. The files that plugins make
    lie in a directory, whose name is no option. A removal may fail. -/
def FilesSem {S : Type} (files : Files) : (o : Op S) → Ans o → Files → Prop
  | .backup _ p res, x, files' => ((built p).backup p.tempDir res).Leaves files x files' ∧
      ∀ a, x = .ok a → a.path.head? ≠ some 45
  | .verify _ p a, x, files' => ((built p).verify a).Leaves files x files'
  | .restore _ p a, x, files' => ((built p).restore a).Leaves files x files'
  | .checksumFile path, x, files' => files' = files ∧ ∀ checksum, x = .ok checksum →
      ∃ content, files path = some content ∧ checksum = checksumText (sha256 content)
  | .removeFile path, _, files' => files' = files ∨ files' = Function.update files path none
  | _, _, files' => files' = files

/-- What a run of restic archives: a snapshot that is added holds the one file the
    command names, unless the run fails. What is archived stays. -/
structure Archives (v : Vault) (args : List Bytes) (x : Except Bytes Bytes) (v' : Vault) :
    Prop where
  stays : ∀ e ∈ v.restic.issued, v'.archive e.2.id = v.archive e.2.id
  added : ∀ cmd path, r.read args = some cmd → r.Direct cmd → cmd.given.operands = [path] →
    ∀ out, x = .ok out → ∀ e ∈ v'.restic.issued, e ∉ v.restic.issued →
      ∃ content recorded, v.files path = some content ∧
        v'.archive e.2.id = some ⟨recorded, content⟩

/-- What a process does to the world. -/
def VaultSem : Semantics ResticOp ResticAns Vault
  | v, .run args, x, v' =>
      r.RunSem v.restic args x v'.restic ∧ v'.files = v.files ∧ Archives r v args x v'
  | v, .other o, x, v' => r.Sem v.restic (.other o) x v'.restic ∧
      v'.archive = v.archive ∧ FilesSem built sha256 v.files o x v'.files

/-- What a lookup of one identifier lists: snapshots that it is a prefix of, with
    the absolute paths they were recorded under. -/
def Lists (v : Vault) (args : List Bytes) (out : Bytes) : Prop :=
  ∃ cmd, r.read args = some cmd ∧ (cmd.name = "snapshots" → r.Direct cmd → ∀ id,
    cmd.given.operands = [id] → Identifier id → ∀ snaps, ResticSnapshot.decode out = some snaps →
      ∀ s ∈ snaps, ∃ t ∈ v.restic.repos cmd.repository, id <+: t.id ∧
        ∀ path ∈ Json.GoSlice.toList s.paths, path.head? ≠ some 45 ∧
          ∀ file, v.archive t.id = some file → path = file.path)

/-- What a dump of one path writes: the file a snapshot holds, if it was recorded
    under that path. -/
def Dumps (v : Vault) (args : List Bytes) (written : Bytes) : Prop :=
  ∃ cmd, r.read args = some cmd ∧ (cmd.name = "dump" → r.Direct cmd → ∀ id source,
    cmd.given.operands = [id, source] → Identifier id →
      ∃ t ∈ v.restic.repos cmd.repository, id <+: t.id ∧
        ∀ file, v.archive t.id = some file → source = resticDumpPath file.path →
          written = file.content)

/-- What reading a snapshot back does to the world. A dump that fails may have
    written anything. -/
def RetrieveSem : Semantics RetrieveOp RetrieveAns Vault
  | v, .run args, x, v' => v' = v ∧ ∀ out, x = .ok out → Lists r v args out
  | v, .create path, .ok _, v' =>
      v' = { v with files := Function.update v.files path (some []) }
  | v, .create _, .error _, v' => v' = v
  | v, .runToWriter path args, x, v' => ∃ written,
      v' = { v with
        files := Function.update v.files path ((v.files path).map (· ++ written)) } ∧
      (x = .ok () → Dumps r v args written)
  | v, .close _, _, v' => v' = v

end Semantics

variable {r : Restic} {built : Instance → BackupPlugin} {sha256 : Bytes → Bytes} {v v' : Vault}

/-- A call that restic has no part in. -/
theorem vault_other (o : Op ResticProvider) (x : Ans o)
    (himpl : resticImpl o = Prog.op (ResticOp.other o))
    (h : through resticImpl (VaultSem r built sha256) v o x v') :
    (∃ shared, SharedSem v.restic.shared o x shared ∧
      v'.restic = { v.restic with shared := shared }) ∧ v'.archive = v.archive ∧
      FilesSem built sha256 v.files o x v'.files := by
  rcases h with ⟨tr, hr, hs⟩
  rw [himpl] at hr
  rcases (runs_call_iff _ _ _ _).mp hr with ⟨y, tr', rfl, hrest⟩
  rcases (runs_ret_iff _ _ _).mp hrest with ⟨rfl, rfl⟩
  exact steps_single _ _ _ _ _ hs

/-- A method of the provider: the files stay, and so does what is archived. -/
structure Method (v v' : Vault) : Prop where
  shared : v'.restic.shared = v.restic.shared
  files : v'.files = v.files
  issued : v.restic.issued ⊆ v'.restic.issued
  archive : ∀ e ∈ v.restic.issued, v'.archive e.2.id = v.archive e.2.id

theorem method_refl (v : Vault) : Method v v := ⟨rfl, rfl, List.Subset.refl _, fun _ _ => rfl⟩

theorem method_run (args : List Bytes) (x : Except Bytes Bytes)
    (h : VaultSem r built sha256 v (.run args) x v') : Method v v' :=
  ⟨shared_of_run args x h.1, h.2.1, issued_of_run args x h.1, h.2.2.stays⟩

/-- Verifying a snapshot and applying a retention are such methods. -/
theorem vault_verifySnapshot (ctx : Ctx) (p : ResticProvider) (id : SnapshotID)
    (x : Except Bytes Unit)
    (h : through resticImpl (VaultSem r built sha256) v (.verifySnapshot ctx p id) x v') :
    Method v v' := by
  rcases h with ⟨tr, hr, hs⟩
  rcases runs_checked p _ _ _ (fun out => by split <;> exact ⟨_, rfl⟩) tr x hr with ⟨y, rfl, _⟩
  exact method_run _ y (steps_single _ _ _ _ _ hs)

theorem vault_applyRetention (ctx : Ctx) (p : ResticProvider) (host : Bytes) (policy : Policy)
    (x : Except Bytes Unit)
    (h : through resticImpl (VaultSem r built sha256) v (.applyRetention ctx p host policy)
      x v') : Method v v' := by
  rcases h with ⟨tr, hr, hs⟩
  change Runs (ResticProvider.applyRetention p host policy) tr x at hr
  unfold ResticProvider.applyRetention at hr
  split at hr
  · -- A policy without a rule is refused before anything is run.
    rcases (runs_ret_iff _ _ _).mp hr with ⟨rfl, _⟩
    cases hs
    exact method_refl v
  · rcases runs_checked p _ _ _ (fun out => ⟨_, rfl⟩) tr x hr with ⟨y, rfl, _⟩
    exact method_run _ y (steps_single _ _ _ _ _ hs)

/-- The extra arguments of a provider only repeat its options or bear on how
    restic works. -/
def Restic.Transparent (r : Restic) (p : ResticProvider) : Prop :=
  ∀ command, r.Within (fun name => name ∈ ownFlags ∨ r.inert name = true) p command

/-- A command of such a provider has no other options, and no operands but its
    own. -/
theorem direct_of_transparent (p : ResticProvider) (hp : r.Transparent p) (command : Bytes)
    (g extra : Given) (hg : ∀ kv ∈ g.flags, kv.1 ∈ ownFlags)
    (hextra : (r.table command).parse p.extraArgs = some extra) :
    r.Direct ⟨command, g.append extra⟩ ∧ (g.append extra).operands = g.operands := by
  rcases hp command extra hextra with ⟨hoperands, hflags⟩
  refine ⟨fun kv hkv => ?_, by rw [Given.append, hoperands, List.append_nil]⟩
  rcases List.mem_append.mp hkv with hkv | hkv
  · exact Or.inl (hg kv hkv)
  · exact hflags kv hkv

theorem storeGiven_flags (p : ResticProvider) (a : Artifact) (kv : Bytes × Bytes)
    (h : kv ∈ (storeGiven p a).flags) : kv.1 ∈ ownFlags := by
  simp only [storeGiven, List.mem_append, List.mem_cons, List.not_mem_nil, or_false] at h
  have hone : ∀ name ∈ [repoFlag, jsonFlag, groupFlag, hostFlag, tagFlag], name ∈ ownFlags := by
    decide
  rcases h with (rfl | rfl | rfl) | h | h
  · exact hone repoFlag (by decide)
  · exact hone jsonFlag (by decide)
  · exact hone groupFlag (by decide)
  · rw [mem_hostOption _ _ h]
    exact hone hostFlag (by decide)
  · rw [mem_tagOptions _ _ h]
    exact hone tagFlag (by decide)

/-- An identifier is no option. -/
theorem head_of_identifier (id : SnapshotID) (h : Identifier id) : id.head? ≠ some 45 := by
  intro hhead
  have hdigit := h 45 (List.mem_of_mem_head? hhead)
  exact absurd hdigit (by decide)

/-- A lookup. -/
theorem read_lookupArgs (p : ResticProvider) (id : SnapshotID) (hid : id.head? ≠ some 45) :
    r.read (p.fullArgs (lookupArgs id)) =
      ((r.table "snapshots").parse p.extraArgs).map fun extra =>
        ⟨"snapshots", (⟨[(repoFlag, p.repository), (jsonFlag, "true")], [id]⟩ : Given).append
          extra⟩ := by
  refine read_fullArgs r p _ _ _ ?_
  rw [scan_repo, FlagTable.scan_operand _ _ _ hid,
    FlagTable.scan_alone _ _ _ _ (by decide) (r.takes_json _ (by decide))]
  rfl

/-- A dump. -/
theorem read_dumpArgs (p : ResticProvider) (id : SnapshotID) (source : Bytes)
    (hid : id.head? ≠ some 45) (hsource : source.head? ≠ some 45) :
    r.read (p.fullArgs (dumpArgs id source)) =
      ((r.table "dump").parse p.extraArgs).map fun extra =>
        ⟨"dump", (⟨[(repoFlag, p.repository)], [id, resticDumpPath source]⟩ : Given).append
          extra⟩ := by
  have hpath : (resticDumpPath source).head? ≠ some 45 := by
    unfold resticDumpPath
    split
    · split
      · exact fun h => absurd (Option.some.inj h) (by decide)
      · exact hsource
    · exact hsource
  refine read_fullArgs r p _ _ _ ?_
  rw [scan_repo, FlagTable.scan_operand _ _ _ hid, FlagTable.scan_operand _ _ _ hpath]
  rfl

/-- Storing an artifact is such a method, and a snapshot it returns was added for
    the artifact. Where the extra arguments do not interfere, it holds the
    artifact's file. -/
theorem vault_storeArtifact (ctx : Ctx) (p : ResticProvider) (a : Artifact)
    (x : Except Bytes SnapshotID)
    (h : through resticImpl (VaultSem r built sha256) v (.storeArtifact ctx p a) x v') :
    Method v v' ∧ ∀ id, x = .ok id → ∃ cmd t, AddedBy r v'.restic p a cmd t ∧ t.id = id ∧
      (a.path.head? ≠ some 45 → r.Transparent p → ∃ content recorded,
        v.files a.path = some content ∧ v'.archive id = some ⟨recorded, content⟩) := by
  rcases h with ⟨tr, hr, hs⟩
  rcases summarises_of_store p a tr x hr with ⟨y, rfl, hsummary⟩
  have hstep : VaultSem r built sha256 v (.run (p.fullArgs (ResticProvider.storeArgs a))) y v' :=
    steps_single _ _ _ _ _ hs
  refine ⟨method_run _ y hstep, fun id hid => ?_⟩
  rcases added_of_summary p a y id (hsummary id hid) hstep.1 with ⟨cmd, t, hadded, rfl, hfresh⟩
  refine ⟨cmd, t, hadded, rfl, fun hpath hp => ?_⟩
  -- The snapshot that the summary names is the one that is added.
  have hread := hadded.read
  rw [read_storeArgs r p a hpath] at hread
  rcases Option.map_eq_some_iff.mp hread with ⟨extra, hextra, rfl⟩
  rcases direct_of_transparent p hp "backup" (storeGiven p a) extra (storeGiven_flags p a) hextra
    with ⟨hdirect, hoperands⟩
  rcases hsummary t.id hid with ⟨out, hout, _⟩
  exact hstep.2.2.added _ a.path hadded.read hdirect hoperands out hout _ hadded.issued
    fun hold => hfresh _ hold rfl

/-! ### The files -/

/-- A backup leaves a new file of its artifact's size, or all as it was. -/
theorem leaves_backup (b : BackupPlugin) (tempDir : Bytes) (res : Resource)
    (r : Except Bytes Artifact) (files files' : Files)
    (h : (b.backup tempDir res).Leaves files r files') :
    match r with
    | .ok a => files a.path = none ∧ ∃ content, a.size = content.length ∧
        files' = Function.update files a.path (some content)
    | .error _ => files' = files := by
  rcases h with ⟨w, w', rfl, hmade, hremoved, hdoes, rfl⟩
  rcases backup_delivered w b tempDir res r w w' (settled_self w hmade hremoved) hdoes with
    ⟨hover, hmeasured⟩
  cases r with
  | error err => exact hover.same
  | ok a =>
      rcases hover.1.file with ⟨content, hfile⟩
      rcases hmeasured a rfl with ⟨content', hheld, hsize⟩
      rw [hfile, Function.update_self] at hheld
      cases hheld
      exact ⟨hover.1.fresh _ hover.1.mine, content, hsize.symm, hfile⟩

/-- A verification leaves the files alone, and so does a restore. -/
theorem leaves_verify (b : BackupPlugin) (a : Artifact) (r : Except Bytes Unit)
    (files files' : Files) (h : (b.verify a).Leaves files r files') : files' = files := by
  rcases h with ⟨w, w', rfl, _, _, hdoes, rfl⟩
  rw [verify_same b a r w w' (does_of_measures _ w w' r hdoes)]

theorem leaves_restore (b : BackupPlugin) (a : Artifact) (r : Except Bytes Unit)
    (files files' : Files) (h : (b.restore a).Leaves files r files') : files' = files := by
  rcases h with ⟨w, w', rfl, _, _, hdoes, rfl⟩
  rw [restore_same b a r w w' (does_of_measures _ w w' r hdoes)]

end Bop
