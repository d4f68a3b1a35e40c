import Bop.Storage.Retention
import Bop.System.Model
import Mathlib.Logic.Function.Basic

/-!
# Repositories over Time

What restic documents of the two commands that change a repository. A backup
adds one snapshot, under an identifier that was never given before, and its
summary names it. A retention looks at the snapshots of the hosts it is given,
in groups of one host and one set of tags, and removes from each group those
that none of its rules keeps. One that fails may have removed some of them, and
so may one that is told not to remove any. One that is given snapshots by their
identifiers removes those.

Which repository, which host and which rules these are is read from all the
arguments of the command. What a rule keeps of a group is a parameter.

## Main definitions

* `Identifier`: What restic calls a snapshot.
* `ResticWorld`: The store, the queue and every repository.
* `Restic.selects`, `Restic.groupOf`, `Restic.removes`, `Restic.afterForget`: A
  retention.
* `Restic.Sem`: What a process that runs restic does to the world.

## Theorems

* `lost_of_step`: Only a retention removes a snapshot.
* `stored_of_step`: A snapshot is in its repository when it is added.
* `gone_of_issued`: A snapshot is in its repository or was removed.
-/

namespace Bop

open Prog

/-- What restic calls a snapshot: hexadecimal digits. -/
def Identifier (id : SnapshotID) : Prop := ∀ b ∈ id, (48 ≤ b ∧ b ≤ 57) ∨ (97 ≤ b ∧ b ≤ 102)

instance (id : SnapshotID) : Decidable (Identifier id) := List.decidableBAll _ id

/-- What a process and restic work on. -/
structure ResticWorld where
  shared : Shared
  /-- What each repository holds. -/
  repos : Bytes → List StoredSnapshot
  /-- Every snapshot that was ever added, with its repository. -/
  issued : List (Bytes × StoredSnapshot)

/-- A fresh database and no snapshot anywhere. -/
def ResticWorld.initial : ResticWorld :=
  ⟨⟨Store.empty, Memory.new queueCapacity⟩, fun _ => [], []⟩

/-- The world with other contents of one repository. -/
def ResticWorld.setRepo (w : ResticWorld) (repo : Bytes) (snaps : List StoredSnapshot) :
    ResticWorld :=
  { w with repos := Function.update w.repos repo snaps }

/-- The host a backup is told to store under, if it is told one. -/
def ResticCommand.host (c : ResticCommand) : Option Bytes :=
  (c.given.last hostFlag).filter (· ≠ [])

namespace Restic

variable (r : Restic)

/-- The retention looks at this snapshot. -/
def selects (cmd : ResticCommand) (t : StoredSnapshot) : Bool :=
  cmd.considers t.hostname &&
    cmd.given.flags.all fun kv => !r.leavesOut kv.1 (cmd.given.values kv.1) t

/-- The snapshots it looks at that are grouped with this one. -/
def groupOf (cmd : ResticCommand) (snaps : List StoredSnapshot) (t : StoredSnapshot) :
    List StoredSnapshot :=
  snaps.filter fun u => r.selects cmd u && r.groups ((cmd.given.last groupFlag).getD []) t u

/-- Some rule keeps the snapshot in its group. -/
def kept (cmd : ResticCommand) (snaps : List StoredSnapshot) (t : StoredSnapshot) : Bool :=
  cmd.given.flags.any fun kv => t ∈ r.keeps kv.1 (cmd.given.values kv.1) (r.groupOf cmd snaps t)

/-- The retention is to remove this snapshot: it is named, or no rule keeps it. -/
def removes (cmd : ResticCommand) (snaps : List StoredSnapshot) (t : StoredSnapshot) : Bool :=
  if cmd.given.operands = [] then r.selects cmd t && !r.kept cmd snaps t
  else cmd.given.operands.any fun operand => r.names operand t

/-- What a retention leaves. -/
def afterForget (cmd : ResticCommand) (snaps : List StoredSnapshot) : List StoredSnapshot :=
  snaps.filter fun t => !r.removes cmd snaps t

/-- The output of a backup names this snapshot. -/
def Summarises (x : Except Bytes Bytes) (id : SnapshotID) : Prop :=
  ∃ out, x = .ok out ∧ parseBackupSnapshotID out = .ok id

/-- What one run of restic does. -/
inductive RunSem (w : ResticWorld) (args : List Bytes) (x : Except Bytes Bytes) :
    ResticWorld → Prop
  /-- Arguments that restic does not take. -/
  | refused (err : Bytes) (hread : r.read args = none) (hx : x = .error err) : RunSem w args x w
  /-- A backup adds one snapshot, which its summary names. -/
  | backup (cmd : ResticCommand) (t : StoredSnapshot) (hread : r.read args = some cmd)
      (hname : cmd.name = "backup") (hfresh : ∀ e ∈ w.issued, e.2.id ≠ t.id)
      (hid : Identifier t.id) (hhost : ∀ host, cmd.host = some host → t.hostname = host)
      (htags : t.tags = r.tags (cmd.given.values tagFlag))
      (hout : ∀ id, Summarises x id → id = t.id) :
      RunSem w args x
        { w.setRepo cmd.repository (w.repos cmd.repository ++ [t]) with
          issued := w.issued ++ [(cmd.repository, t)] }
  /-- A backup without a summary may add none. -/
  | notBackedUp (cmd : ResticCommand) (hread : r.read args = some cmd)
      (hname : cmd.name = "backup") (hout : ∀ id, ¬ Summarises x id) : RunSem w args x w
  /-- A retention removes what no rule keeps, or some of it. -/
  | forgotten (cmd : ResticCommand) (snaps : List StoredSnapshot) (hread : r.read args = some cmd)
      (hname : cmd.name = "forget") (hsub : snaps ⊆ w.repos cmd.repository)
      (hkept : r.afterForget cmd (w.repos cmd.repository) ⊆ snaps) :
      RunSem w args x (w.setRepo cmd.repository snaps)
  /-- The other commands change nothing. -/
  | reading (cmd : ResticCommand) (hread : r.read args = some cmd) (hbackup : cmd.name ≠ "backup")
      (hforget : cmd.name ≠ "forget") : RunSem w args x w

/-- What a process that runs restic does to the world. -/
def Sem : Semantics ResticOp ResticAns ResticWorld
  | w, .run args, x, w' => r.RunSem w args x w'
  | w, .other o, x, w' => ∃ shared, SharedSem w.shared o x shared ∧ w' = { w with shared := shared }

end Restic

variable {r : Restic} {w w' : ResticWorld}

theorem setRepo_self (repo : Bytes) (snaps : List StoredSnapshot) :
    (w.setRepo repo snaps).repos repo = snaps := Function.update_self _ _ _

theorem setRepo_of_ne (repo repo' : Bytes) (snaps : List StoredSnapshot) (h : repo' ≠ repo) :
    (w.setRepo repo snaps).repos repo' = w.repos repo' := Function.update_of_ne h _ _

/-- Only a retention removes a snapshot, and only one it is to remove. -/
theorem lost_of_step (o : ResticOp) (x : ResticAns o) (h : r.Sem w o x w')
    (repo : Bytes) (t : StoredSnapshot) (ht : t ∈ w.repos repo) (hgone : t ∉ w'.repos repo) :
    ∃ args cmd, o = .run args ∧ r.read args = some cmd ∧ cmd.name = "forget" ∧
      cmd.repository = repo ∧ r.removes cmd (w.repos repo) t = true := by
  cases o with
  | other o =>
      rcases h with ⟨shared, _, rfl⟩
      exact absurd ht hgone
  | run args =>
      -- Only the repository of the command changes.
      have hrepo : ∀ (cmd : ResticCommand) (snaps : List StoredSnapshot),
          t ∉ (w.setRepo cmd.repository snaps).repos repo → cmd.repository = repo ∧ t ∉ snaps := by
        intro cmd snaps hnot
        by_cases heq : repo = cmd.repository
        · subst heq
          rw [setRepo_self] at hnot
          exact ⟨rfl, hnot⟩
        · rw [setRepo_of_ne _ _ _ heq] at hnot
          exact absurd ht hnot
      cases h with
      | backup cmd u _ _ _ _ _ _ _ =>
          rcases hrepo cmd (w.repos cmd.repository ++ [u]) hgone with ⟨rfl, hnot⟩
          exact absurd (List.mem_append_left [u] ht) hnot
      | forgotten cmd snaps hread hname _ hkept =>
          rcases hrepo cmd snaps hgone with ⟨rfl, hnot⟩
          refine ⟨args, cmd, rfl, hread, hname, rfl, ?_⟩
          -- However far it gets, it leaves what it is not to remove.
          by_contra hstays
          refine hnot (hkept (List.mem_filter.mpr ⟨ht, ?_⟩))
          rw [eq_false_of_ne_true hstays, Bool.not_false]
      | _ => exact absurd ht hgone

/-- A snapshot is in its repository when it is added. -/
theorem stored_of_step (o : ResticOp) (x : ResticAns o) (h : r.Sem w o x w')
    (e : Bytes × StoredSnapshot) (hnew : e ∉ w.issued) (hadded : e ∈ w'.issued) :
    e.2 ∈ w'.repos e.1 := by
  cases o with
  | other o =>
      rcases h with ⟨shared, _, rfl⟩
      exact absurd hadded hnew
  | run args =>
      cases h with
      | backup cmd t _ _ _ _ _ _ _ =>
          rcases List.mem_append.mp hadded with hold | heq
          · exact absurd hold hnew
          · rw [List.mem_singleton.mp heq]
            change t ∈ (w.setRepo cmd.repository (w.repos cmd.repository ++ [t])).repos
              cmd.repository
            rw [setRepo_self]
            exact List.mem_append_right _ List.mem_cons_self
      | _ => exact absurd hadded hnew

/-- A snapshot that was added is in its repository, or a retention removed it
    from there since. -/
theorem gone_of_issued (tr : Trace ResticOp ResticAns) (hs : Steps r.Sem w tr w')
    (e : Bytes × StoredSnapshot) (hnew : e ∉ w.issued) (he : e ∈ w'.issued)
    (hgone : e.2 ∉ w'.repos e.1) :
    ∃ tr₁ args cmd x tr₂ u u', tr = tr₁ ++ ⟨.run args, x⟩ :: tr₂ ∧
      Steps r.Sem w tr₁ u ∧ r.Sem u (.run args) x u' ∧ Steps r.Sem u' tr₂ w' ∧
      e.2 ∈ u.repos e.1 ∧ r.read args = some cmd ∧ cmd.name = "forget" ∧
      cmd.repository = e.1 ∧ r.removes cmd (u.repos e.1) e.2 = true := by
  -- First it was added, and from then on it is lost at some step.
  rcases exists_loss r.Sem (fun w => e ∉ w.issued) tr w w' hs hnew
    (fun h => h he) with ⟨tr₁, o, x, tr₂, v, v', rfl, h₁, hstep, h₂, hbefore, hafter⟩
  have hthere : e.2 ∈ v'.repos e.1 := stored_of_step o x hstep e hbefore (not_not.mp hafter)
  rcases exists_loss r.Sem (fun w => e.2 ∈ w.repos e.1) tr₂ v' w' h₂ hthere hgone with
    ⟨tr₃, o', x', tr₄, u, u', rfl, h₃, hloss, h₄, hu, hu'⟩
  rcases lost_of_step o' x' hloss e.1 e.2 hu hu' with
    ⟨args, cmd, rfl, hread, hname, hrepo, hremoves⟩
  refine ⟨tr₁ ++ ⟨o, x⟩ :: tr₃, args, cmd, x', tr₄, u, u', by simp, ?_, hloss, h₄, hu, hread,
    hname, hrepo, hremoves⟩
  exact (steps_append_iff _ _ _ _ _).mpr ⟨v, h₁, Steps.cons v v' u o x tr₃ hstep h₃⟩

end Bop
