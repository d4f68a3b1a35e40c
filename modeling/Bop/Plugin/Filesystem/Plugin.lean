import Bop.Plugin.Filesystem.Command
import Bop.Plugin.Remote

/-!
# The Filesystem Plugin

Every configured directory is a resource, named by its path. A backup is the
archive of one. A restore extracts an archive into the directory its resource
names, unless the resource is marked as a test: then the directory is one
below a base that anybody may write to, and it is deleted again once the
extraction has succeeded.

## Main definitions

* `discover`, `backup`, `restore`: The plugin.
* `restoreTarget`: The directory a restore extracts into.
-/

namespace Bop

namespace Filesystem

open Prog Remote

/-- `Plugin.Discover`. -/
def discover (cfg : Config) : List Resource := cfg.paths.map (fun path => ⟨path, path⟩)

/-- `Plugin.Backup`. -/
def backup (cfg : Config) (tempDir : Bytes) (res : Resource) : Proc (Except Bytes Artifact) :=
  backupInto "filesystem" tempDir "fs-*.tar.gz" (tarCommand cfg res.id)
    (fun err => "filesystem: tar " ++ res.id ++ ": " ++ err) res

/-- `restoreTestBase`: where the directories of tests are made. -/
def restoreTestBase : Bytes := "/tmp/bop-restore-test"

/-- The directory a restore extracts into. -/
def restoreTarget (resourceID : Bytes) : Bytes :=
  if hasSuffix resourceID restoreTestSuffix then Paths.pathJoin [restoreTestBase, resourceID]
  else resourceID

/-- A restore from an artifact that was opened. A test's directory that cannot
    be deleted is only logged. -/
def restoreFrom (a : Artifact) (f : FileContent) : Proc (Except Bytes Unit) :=
  let target := restoreTarget a.resourceID
  check (run (untarCommand target) (some f))
    (fun err => "filesystem: restore " ++ target ++ ": " ++ err) fun _ => do
    if hasSuffix a.resourceID restoreTestSuffix then
      let _ ← run (removeCommand target) none
      return .ok ()
    return .ok ()

/-- `Plugin.Restore`. -/
def restore (a : Artifact) : Proc (Except Bytes Unit) :=
  check (op (RemoteOp.openFile a.path)) (fun err => "filesystem: open artifact: " ++ err)
    fun f => restoreFrom a f

end Filesystem

end Bop
