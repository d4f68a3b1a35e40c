import Bop.Effect.Files
import Bop.Plugin.Filesystem.Plugin
import Bop.Plugin.Informix.Restore
import Bop.Plugin.Logs
import Bop.Plugin.Mariadb.Verify
import Bop.Plugin.Sql.Client

/-!
# The Five Plugins

The plugins as the controller sees them: something that makes an artifact of a
resource, checks an artifact and restores one. Four of them work through a
remote shell and one through an agent, so their programs are of two languages,
but what either does to the files of the machine is the same few events.

A backup owns the file it makes until it returns. On every way out it has
either closed the file and handed it over in the artifact, or removed it. The
other entry points leave files alone.

## Main definitions

* `Postgres.verify`, `Filesystem.verify`: The checks not given elsewhere.
* `BackupPlugin`, `PluginProc`: The plugins and their programs.
* `Remote.fileEvent`, `Informix.fileEvent`: What their operations do to files.
* `PluginProc.Does`: What a program can do to the files.
* `HandedOver`: What a backup leaves.

## Theorems

* `backup_handedOver`: Every plugin's backup hands its file over or removes it.
* `verify_same`, `restore_same`: The other entry points leave files alone.
-/

namespace Bop

open Prog
open Remote (RemoteOp RemoteAns)
open Informix (PluginOp PluginAns)

/-! ### The checks not given elsewhere -/

/-- `io.ReadFull` where a file that ends too early is an error. -/
def readExactly (f : FileContent) (size : Nat) : Except Bytes Bytes :=
  if size ≤ f.data.length then .ok (f.data.take size)
  else match f.readErr with
    | some err => .error err
    | none => .error (if f.data = [] then "EOF" else "unexpected EOF")

/-- `pgDumpHeaderMarker`. -/
def Postgres.pgDumpHeaderMarker : Bytes := "PostgreSQL database dump"

/-- `Plugin.Verify` of the postgres plugin. -/
def Postgres.verify (a : Artifact) : Remote.Proc (Except Bytes Unit) :=
  check (op (RemoteOp.stat a.path)) ("postgres: verify: stat artifact: " ++ ·) fun size =>
  if size = 0 then return .error "postgres: verify: artifact is empty"
  else check (op (RemoteOp.openFile a.path)) ("postgres: verify: open artifact: " ++ ·) fun f =>
  match Mariadb.readFull f 4096 with
  | .error err => return .error ("postgres: verify: read artifact: " ++ err)
  | .ok head =>
      if ¬ pgDumpHeaderMarker <:+: head then
        return .error ("postgres: verify: artifact does not look like pg_dump output (missing " ++
          quoteGo pgDumpHeaderMarker ++ " header)")
      else return .ok ()

/-- `gzipMagic`. -/
def Filesystem.gzipMagic : Bytes := [0x1f, 0x8b]

/-- `Plugin.Verify` of the filesystem plugin. -/
def Filesystem.verify (a : Artifact) : Remote.Proc (Except Bytes Unit) :=
  check (op (RemoteOp.stat a.path)) ("filesystem: verify: stat artifact: " ++ ·) fun size =>
  if size = 0 then return .error "filesystem: verify: artifact is empty"
  else check (op (RemoteOp.openFile a.path)) ("filesystem: verify: open artifact: " ++ ·) fun f =>
  match readExactly f gzipMagic.length with
  | .error err => return .error ("filesystem: verify: read artifact: " ++ err)
  | .ok magic =>
      if magic ≠ gzipMagic then
        return .error ("filesystem: verify: artifact does not look like a gzip stream (missing " ++
          "magic bytes)")
      else return .ok ()

/-! ### The plugins -/

/-- A program of a plugin, through a remote shell or through an agent. -/
inductive PluginProc (α : Type)
  | shell (p : Remote.Proc α)
  | agent (p : Informix.Proc α)

/-- A plugin with its configuration. -/
inductive BackupPlugin
  | sql (c : Sql.SqlConfig)
  | filesystem (cfg : Filesystem.Config)
  | logs (cfg : Logs.Config)
  | informix (cfg : Informix.Config)

namespace BackupPlugin

/-- `Plugin.Backup`. -/
def backup (tempDir : Bytes) (res : Resource) : BackupPlugin → PluginProc (Except Bytes Artifact)
  | sql c => .shell (Sql.backup c.plugin tempDir res)
  | filesystem cfg => .shell (Filesystem.backup cfg tempDir res)
  | logs cfg => .shell (Logs.backup cfg tempDir res)
  | informix cfg => .agent (Informix.backup cfg tempDir res)

/-- `Plugin.Verify`. -/
def verify (a : Artifact) : BackupPlugin → PluginProc (Except Bytes Unit)
  | sql (.postgres _) => .shell (Postgres.verify a)
  | sql (.mariadb _) => .shell (Mariadb.verify a)
  | filesystem _ => .shell (Filesystem.verify a)
  | logs _ => .shell (Logs.verify a)
  | informix _ => .agent (Informix.verify a)

/-- `Plugin.Restore`. -/
def restore (a : Artifact) : BackupPlugin → PluginProc (Except Bytes Unit)
  | sql c => .shell (Sql.restore c.plugin a)
  | filesystem _ => .shell (Filesystem.restore a)
  | logs _ => .shell Logs.restore
  | informix cfg => .agent (Informix.restore cfg a)

end BackupPlugin

/-! ### Their files -/

/-- What an operation of a plugin with a remote shell does to files. -/
def Remote.fileEvent : (o : RemoteOp) → RemoteAns o → Option (FileEvent Bytes Bytes)
  | .createTemp _ _, x => some (.created x)
  | .run _ _ (some path), _ => some (.written path)
  | .closeFile path, _ => some (.closed path)
  | .removeFile path, x => some (.removed path x)
  | _, _ => none

/-- What an operation of the plugin with an agent does to files. -/
def Informix.fileEvent : (o : PluginOp) → PluginAns o → Option (FileEvent Bytes Bytes)
  | .createTemp _ _, x => some (.created x)
  | .write path _, _ => some (.written path)
  | .closeFile path, _ => some (.closed path)
  | .removeFile path, x => some (.removed path x)
  | _, _ => none

/-- The files of the machine the controller runs on. -/
abbrev LocalFiles := Dir Bytes Bytes

/-- A new file has a name that is not empty. -/
abbrev Named (path : Bytes) : Prop := path ≠ []

/-- What the programs do to the files. -/
abbrev Remote.files : Semantics RemoteOp RemoteAns LocalFiles := fileSem Named Remote.fileEvent

abbrev Informix.files : Semantics PluginOp PluginAns LocalFiles := fileSem Named Informix.fileEvent

/-- What a program can do to the files. -/
def PluginProc.Does {α : Type} (p : PluginProc α) (w : LocalFiles) (a : α) (w' : LocalFiles) :
    Prop :=
  match p with
  | .shell p => Performs Remote.files p w a w'
  | .agent p => Performs Informix.files p w a w'

/-- The files after a backup, compared with those before: the artifact's is new
    and closed, or all is as it was. -/
def HandedOver (d : LocalFiles) : Except Bytes Artifact → LocalFiles → Prop
  | .ok a, w => Closed Named d a.path w
  | .error _, w => Settled d w

section Backup

variable (d : LocalFiles) (path : Bytes)

/-- What asking for a file leaves: an owned one, or all as it was. -/
def Made (d : LocalFiles) : Except Bytes Bytes → LocalFiles → Prop
  | .ok path, w => Owns Named d path w
  | .error _, w => Settled d w

theorem made_of_created (x : Except Bytes Bytes) (w w' : LocalFiles) (h : Settled d w)
    (ht : Touches Named w (.created x) w') : Made d x w' := by
  have hmade := settled_created x h ht
  cases x with
  | ok path => exact hmade
  | error err => exact hmade

namespace Remote

/-- A file that is given up is gone. -/
theorem discard_settled :
    Triple files (Owns Named d path) (discard path) (fun _ => Settled d) :=
  triple_discarded d path (RemoteOp.closeFile path) (RemoteOp.removeFile path) (fun x => x)
    (fun _ => rfl) (fun _ => rfl)

/-- A backup over a remote shell hands its file over or removes it. -/
theorem backupInto_handedOver (name tempDir pattern command : Bytes)
    (commandErr : Bytes → Bytes) (res : Resource) :
    Triple files (Settled d) (backupInto name tempDir pattern command commandErr res)
      (HandedOver d) := by
  refine triple_check (Made d) _ _ _ ?_ (fun path => ?_) fun err w h => h
  · exact triple_event _ (fun x => .created x) (fun _ => rfl) _ fun w x w' h ht =>
      made_of_created d x w w' h ht
  have hgone : ∀ err : Bytes, Triple files (Owns Named d path) (do
      discard path
      return .error err : Proc (Except Bytes Artifact)) (HandedOver d) := fun err =>
    triple_bind (fun _ => Settled d) _ _ (discard_settled d path) fun _ => triple_ret _ fun w h => h
  -- The output goes into the file, however much of it there is.
  refine triple_bind (fun _ => Owns Named d path) (op (RemoteOp.run command none (some path))) _
    (triple_event _ (fun _ => .written path) (fun _ => rfl) _ fun w x w' h ht =>
      owns_written h ht) fun ran => ?_
  cases ran with
  | error err => exact hgone _
  | ok u =>
      refine triple_bind (fun _ => Owns Named d path) (op (RemoteOp.stat path)) _
        (triple_untouched _ _ ⟨fun _ => rfl, fun _ => trivial⟩) fun size => ?_
      cases size with
      | error err => exact hgone _
      | ok size =>
          refine triple_bind (fun _ => Closed Named d path) (op (RemoteOp.closeFile path)) _
            (triple_event _ (fun _ => .closed path) (fun _ => rfl) _ fun w x w' h ht =>
              owns_closed h ht) fun closed => ?_
          cases closed with
          | error err =>
              refine triple_bind (fun _ => Settled d) (op (RemoteOp.removeFile path)) _ ?_
                fun _ => triple_ret _ fun w h => h
              exact triple_event _ (fun x => .removed path x) (fun _ => rfl) _
                fun w x w' h ht => closed_removed x h ht
          | ok u =>
              refine triple_bind (fun _ => Closed Named d path) (op RemoteOp.now) _
                (triple_untouched _ _ ⟨fun _ => rfl, fun _ => trivial⟩) fun createdAt => ?_
              exact triple_ret _ fun w h => h

end Remote

/-- The logs plugin refuses an unknown resource, or backs up like the others. -/
theorem Logs.backup_handedOver (cfg : Logs.Config) (tempDir : Bytes) (res : Resource) :
    Triple Remote.files (Settled d) (Logs.backup cfg tempDir res) (HandedOver d) := by
  refine triple_bind (fun _ => Settled d) (op RemoteOp.now) _
    (triple_untouched _ _ ⟨fun _ => rfl, fun _ => trivial⟩) fun started => ?_
  cases logsCommand (started - cfg.window) res.id with
  | none => exact triple_ret _ fun w h => h
  | some command => exact Remote.backupInto_handedOver d _ _ _ _ _ _

namespace Informix

/-- The operation does nothing to files. -/
def Quiet (o : PluginOp) : Prop := ∀ x, fileEvent o x = none

theorem calls_connect (cfg : Config) : Calls Quiet (connect cfg) := by
  refine calls_check Quiet _ _ _ ⟨fun _ => rfl, fun _ => trivial⟩ fun _ => ?_
  refine ⟨fun _ => rfl, fun answer => ?_⟩
  cases answer with
  | error err => exact ⟨fun _ => rfl, fun _ => trivial⟩
  | ok connID => trivial

theorem calls_disconnect (connID : Bytes) : Calls Quiet (disconnect connID) :=
  ⟨fun _ => rfl, fun _ => ⟨fun _ => rfl, fun _ => trivial⟩⟩

/-- A file that is given up is gone. -/
theorem discard_settled :
    Triple files (Owns Named d path) (discard path) (fun _ => Settled d) :=
  triple_discarded d path (PluginOp.closeFile path) (PluginOp.removeFile path) (fun x => x)
    (fun _ => rfl) (fun _ => rfl)

/-- Writing a dump only writes its file. -/
theorem writeDump_owns (table : Bytes) (result : QueryResult) :
    Triple files (Owns Named d path) (writeDump path table result)
      (fun _ => Owns Named d path) := by
  have hline : ∀ v : Json, Triple files (Owns Named d path) (encodeLine path v)
      (fun _ => Owns Named d path) := fun v =>
    triple_event _ (fun _ => .written path) (fun _ => rfl) _ fun w x w' h ht => owns_written h ht
  have hrows : ∀ rows, Triple files (Owns Named d path) (writeRows path rows)
      (fun _ => Owns Named d path) := by
    intro rows
    induction rows with
    | nil => exact triple_ret _ fun w h => h
    | cons row rows ih =>
        exact triple_check (fun _ => Owns Named d path) _ _ _ (hline _) (fun _ => ih)
          fun err w h => h
  exact triple_check (fun _ => Owns Named d path) _ _ _ (hline _) (fun _ => hrows _)
    fun err w h => h

/-- The file a result goes into is handed over or removed. -/
theorem writeArtifact_handedOver (tempDir resID : Bytes) (result : QueryResult) :
    Triple files (Settled d) (writeArtifact tempDir resID result) (HandedOver d) := by
  refine triple_check (Made d) _ _ _ ?_ (fun path => ?_) fun err w h => h
  · exact triple_event _ (fun x => .created x) (fun _ => rfl) _ fun w x w' h ht =>
      made_of_created d x w w' h ht
  have hgone : ∀ err : Bytes, Triple files (Owns Named d path) (do
      discard path
      return .error err : Proc (Except Bytes Artifact)) (HandedOver d) := fun err =>
    triple_bind (fun _ => Settled d) _ _ (discard_settled d path) fun _ => triple_ret _ fun w h => h
  refine triple_bind (fun _ => Owns Named d path) _ _ (writeDump_owns d path resID result)
    fun wrote => ?_
  cases wrote with
  | error err => exact hgone _
  | ok u =>
      refine triple_bind (fun _ => Owns Named d path) (op (PluginOp.stat path)) _
        (triple_untouched _ _ ⟨fun _ => rfl, fun _ => trivial⟩) fun size => ?_
      cases size with
      | error err => exact hgone _
      | ok size =>
          refine triple_bind (fun _ => Closed Named d path) (op (PluginOp.closeFile path)) _
            (triple_event _ (fun _ => .closed path) (fun _ => rfl) _ fun w x w' h ht =>
              owns_closed h ht) fun closed => ?_
          cases closed with
          | error err =>
              refine triple_bind (fun _ => Settled d) (op (PluginOp.removeFile path)) _ ?_
                fun _ => triple_ret _ fun w h => h
              exact triple_event _ (fun x => .removed path x) (fun _ => rfl) _
                fun w x w' h ht => closed_removed x h ht
          | ok u =>
              refine triple_bind (fun _ => Closed Named d path) (op PluginOp.now) _
                (triple_untouched _ _ ⟨fun _ => rfl, fun _ => trivial⟩) fun createdAt => ?_
              exact triple_ret _ fun w h => h

/-- A backup through the agent hands its file over or removes it. -/
theorem backup_handedOver (cfg : Config) (tempDir : Bytes) (res : Resource) :
    Triple files (Settled d) (backup cfg tempDir res) (HandedOver d) := by
  refine triple_check (fun _ => Settled d) _ _ _ (triple_untouched _ _ (calls_connect cfg))
    (fun connID => ?_) fun err w h => h
  -- The connection is given up last, and that does nothing to the file.
  refine triple_deferring (HandedOver d) _ _ ?_ fun r =>
    triple_untouched _ _ (calls_disconnect connID)
  refine triple_check (fun _ => Settled d) _ _ _
    (triple_untouched _ _ ⟨fun _ => rfl, fun _ => trivial⟩) (fun result => ?_) fun err w h => h
  exact writeArtifact_handedOver d tempDir res.id result

end Informix

/-- Every plugin's backup hands its file over or removes it, whatever fails. -/
theorem backup_handedOver (b : BackupPlugin) (tempDir : Bytes) (res : Resource)
    (r : Except Bytes Artifact) (w w' : LocalFiles) (h : Settled d w)
    (hdoes : (b.backup tempDir res).Does w r w') : HandedOver d r w' := by
  cases b with
  | sql c => exact Remote.backupInto_handedOver d _ _ _ _ _ _ w r w' h hdoes
  | filesystem cfg => exact Remote.backupInto_handedOver d _ _ _ _ _ _ w r w' h hdoes
  | logs cfg => exact Logs.backup_handedOver d cfg tempDir res w r w' h hdoes
  | informix cfg => exact Informix.backup_handedOver d cfg tempDir res w r w' h hdoes

end Backup

/-! ### The other entry points -/

namespace Remote

/-- The operation does nothing to files. -/
def Quiet (o : RemoteOp) : Prop := ∀ x, fileEvent o x = none

theorem calls_run (command : Bytes) (stdin : Option FileContent) :
    Calls Quiet (run command stdin) := calls_op Quiet (.run command stdin none) fun _ => rfl

theorem calls_openFile (path : Bytes) :
    Calls Quiet (op (RemoteOp.openFile path) : Proc (Except Bytes FileContent)) :=
  calls_op Quiet (.openFile path) fun _ => rfl

theorem calls_stat (path : Bytes) :
    Calls Quiet (op (RemoteOp.stat path) : Proc (Except Bytes Int)) :=
  calls_op Quiet (.stat path) fun _ => rfl

end Remote

namespace Sql

open Remote

theorem calls_dropScratchDatabase (p : SqlPlugin) (database : Bytes) :
    Calls Quiet (dropScratchDatabase p database) :=
  calls_bind Quiet _ _ (calls_run _ _) fun _ => trivial

theorem calls_restore (p : SqlPlugin) (a : Artifact) : Calls Quiet (restore p a) := by
  refine calls_check Quiet _ _ _ (calls_openFile a.path) fun f => ?_
  refine calls_check Quiet _ _ _ ?_ fun _ => ?_
  · split
    · exact calls_run _ _
    · trivial
  · -- The drop follows in a test, whatever became of the script.
    have hend : ∀ r : Except Bytes Unit, Calls Quiet (do
        if hasSuffix a.resourceID restoreTestSuffix then dropScratchDatabase p a.resourceID
        return r : Proc (Except Bytes Unit)) := by
      intro r
      split
      · exact calls_bind Quiet _ _ (calls_dropScratchDatabase p a.resourceID) fun _ => trivial
      · trivial
    refine calls_bind Quiet _ _ (calls_run _ _) fun ran => ?_
    cases ran with
    | error err => exact hend _
    | ok u => exact hend _

end Sql

theorem Filesystem.calls_restore (a : Artifact) : Calls Remote.Quiet (Filesystem.restore a) := by
  refine calls_check Remote.Quiet _ _ _ (Remote.calls_openFile a.path) fun f => ?_
  refine calls_check Remote.Quiet _ _ _ (Remote.calls_run _ _) fun _ => ?_
  split
  · exact calls_bind Remote.Quiet _ _ (Remote.calls_run _ _) fun _ => trivial
  · trivial

namespace Informix

theorem calls_insertRows (connID sql : Bytes) (n : Nat) (err : Option Bytes)
    (lines : List Bytes) : Calls Quiet (insertRows connID sql n err lines) := by
  induction lines with
  | nil => cases err <;> trivial
  | cons line rest ih =>
      rcases insertRows_cons connID sql n err line rest with ⟨params, _, heq⟩ | ⟨_, msg, heq⟩
      · rw [heq]
        exact calls_check Quiet _ _ _ ⟨fun _ => rfl, fun _ => trivial⟩ fun _ => ih
      · rw [heq]
        trivial

theorem calls_restore (cfg : Config) (a : Artifact) : Calls Quiet (restore cfg a) := by
  refine calls_check Quiet _ _ _ ⟨fun _ => rfl, fun _ => trivial⟩ fun file => ?_
  unfold restoreFrom
  split
  · trivial
  · next d _ =>
      refine calls_check Quiet _ _ _ (calls_connect cfg) fun connID => ?_
      refine calls_bind Quiet _ _ ?_ fun _ =>
        calls_bind Quiet _ _ (calls_disconnect connID) fun _ => trivial
      refine calls_check Quiet _ _ _ ⟨fun _ => rfl, fun _ => trivial⟩ fun _ => ?_
      refine calls_bind Quiet _ _ (calls_insertRows _ _ _ _ _) fun inserted => ?_
      split
      · refine ⟨fun _ => rfl, fun _ => ?_⟩
        cases inserted <;> trivial
      · exact calls_check Quiet _ _ _ ⟨fun _ => rfl, fun _ => trivial⟩ fun _ => trivial

theorem calls_verify (a : Artifact) : Calls Quiet (verify a) := by
  refine calls_check Quiet _ _ _ ⟨fun _ => rfl, fun _ => trivial⟩ fun file => ?_
  dsimp only
  split
  · split <;> trivial
  · split
    · trivial
    · split <;> trivial

end Informix

/-- A restore leaves the files alone. -/
theorem restore_same (b : BackupPlugin) (a : Artifact) (r : Except Bytes Unit) (w w' : LocalFiles)
    (hdoes : (b.restore a).Does w r w') : w' = w := by
  cases b with
  | sql c => exact triple_untouched (· = w) _ (Sql.calls_restore c.plugin a) w r w' rfl hdoes
  | filesystem cfg => exact triple_untouched (· = w) _ (Filesystem.calls_restore a) w r w' rfl hdoes
  | logs cfg => exact triple_untouched (· = w) Logs.restore trivial w r w' rfl hdoes
  | informix cfg => exact triple_untouched (· = w) _ (Informix.calls_restore cfg a) w r w' rfl hdoes

/-- A check leaves the files alone. -/
theorem verify_same (b : BackupPlugin) (a : Artifact) (r : Except Bytes Unit) (w w' : LocalFiles)
    (hdoes : (b.verify a).Does w r w') : w' = w := by
  -- It is enough that no operation touches files. All of them read.
  have hshell : ∀ p : Remote.Proc (Except Bytes Unit), Calls Remote.Quiet p →
      Performs Remote.files p w r w' → w' = w := fun p hp hdoes =>
    triple_untouched (· = w) p hp w r w' rfl hdoes
  cases b with
  | sql c => cases c with
    | postgres cfg =>
        refine hshell (Postgres.verify a) ?_ hdoes
        refine calls_check Remote.Quiet _ _ _ (Remote.calls_stat a.path) fun size => ?_
        split
        · trivial
        · refine calls_check Remote.Quiet _ _ _ (Remote.calls_openFile a.path) fun f => ?_
          split
          · trivial
          · split <;> trivial
    | mariadb cfg =>
        exact hshell (Mariadb.verify a) (calls_check Remote.Quiet _ _ _
          (Remote.calls_openFile a.path) fun f =>
            calls_check Remote.Quiet _ _ _ (Remote.calls_stat a.path) fun size => trivial) hdoes
  | filesystem cfg =>
      refine hshell (Filesystem.verify a) ?_ hdoes
      refine calls_check Remote.Quiet _ _ _ (Remote.calls_stat a.path) fun size => ?_
      split
      · trivial
      · refine calls_check Remote.Quiet _ _ _ (Remote.calls_openFile a.path) fun f => ?_
        split
        · trivial
        · split <;> trivial
  | logs cfg =>
      exact hshell (Logs.verify a) (calls_check Remote.Quiet _ _ _ (Remote.calls_stat a.path)
        fun size => trivial) hdoes
  | informix cfg => exact triple_untouched (· = w) _ (Informix.calls_verify a) w r w' rfl hdoes

end Bop
