import Bop.Plugin.BackupPlugin

/-!
# The Size of an Artifact

A plugin looks at its file before it closes it and reports the size it found.
Nothing is written to the file after that, so an artifact that is handed over
has a file of exactly the size it says.

## Main definitions

* `sizedSem`: Files that have the size they are found to have.
* `PluginProc.Measures`: What a program does to such files.
* `Delivered`: The files after a backup whose artifact has its size.

## Theorems

* `backup_delivered`: Every plugin's backup delivers or leaves nothing.
-/

namespace Bop

namespace Prog

variable {P C N ε Op α : Type} {Ans : Op → Type} [DecidableEq P] {named : P → Prop}
  {view : (o : Op) → Ans o → Option (FileEvent P ε)}

/-- The file is there and has this size. -/
def HasSize (size : C → N) (path : P) (n : N) (w : Dir P C) : Prop :=
  ∃ c, w.files path = some c ∧ size c = n

/-- The directory as the world of a program that also looks at sizes: `looked`
    tells which answers are sizes, and of which file. -/
def sizedSem (named : P → Prop) (view : (o : Op) → Ans o → Option (FileEvent P ε))
    (looked : (o : Op) → Ans o → Option (P × N)) (size : C → N) : Semantics Op Ans (Dir P C) :=
  fun w o x w' => fileSem named view w o x w' ∧
    ∀ path n, looked o x = some (path, n) → HasSize size path n w

variable {looked : (o : Op) → Ans o → Option (P × N)} {size : C → N}

/-- What is done to files that have their sizes is done to files. -/
theorem performs_of_sized (p : Prog Op Ans α) (w w' : Dir P C) (a : α)
    (h : Performs (sizedSem named view looked size) p w a w') :
    Performs (fileSem named view) p w a w' := by
  rcases h with ⟨tr, hr, hs⟩
  exact ⟨tr, hr, steps_map _ _ id (fun _ _ _ _ hstep => hstep.1) tr w w' hs⟩

/-- Looking at a file finds its size. -/
theorem triple_looked (o : Op) (path : P) (hview : ∀ x, view o x = none) (pre : Dir P C → Prop) :
    Triple (sizedSem named view looked size) pre (op o)
      (fun x w => ∀ n, looked o x = some (path, n) → HasSize size path n w) := by
  refine triple_op o _ fun w x w' _ hs n hn => ?_
  have hsame : w' = w := by simpa only [fileSem, hview] using hs.1
  rw [hsame]
  exact hs.2 path n hn

/-- A call that closes a file or does nothing to files keeps every size. -/
theorem triple_kept (o : Op) (path : P) (n : N)
    (hview : ∀ x, view o x = none ∨ ∃ q, view o x = some (.closed q)) :
    Triple (sizedSem named view looked size) (HasSize size path n) (op o)
      (fun _ => HasSize size path n) := by
  refine triple_op o _ fun w x w' h hs => ?_
  rcases hview x with hnone | ⟨q, hclosed⟩
  · have hsame : w' = w := by simpa only [fileSem, hnone] using hs.1
    rw [hsame]
    exact h
  · have htouch : Touches named w (FileEvent.closed (ε := ε) q) w' := by
      simpa only [fileSem, hclosed] using hs.1
    cases htouch with
    | closed => exact h

end Prog

open Prog
open Remote (RemoteOp RemoteAns)
open Informix (PluginOp PluginAns)

/-- The sizes a plugin with a remote shell finds. -/
def Remote.looked : (o : RemoteOp) → RemoteAns o → Option (Bytes × Int)
  | .stat path, .ok n => some (path, n)
  | _, _ => none

/-- The sizes the plugin with an agent finds. -/
def Informix.looked : (o : PluginOp) → PluginAns o → Option (Bytes × Int)
  | .stat path, .ok n => some (path, n)
  | _, _ => none

/-- The number of bytes. -/
abbrev byteSize (content : Bytes) : Int := content.length

abbrev Remote.sizedFiles : Semantics RemoteOp RemoteAns LocalFiles :=
  sizedSem Named Remote.fileEvent Remote.looked byteSize

abbrev Informix.sizedFiles : Semantics PluginOp PluginAns LocalFiles :=
  sizedSem Named Informix.fileEvent Informix.looked byteSize

/-- What a program can do to files that have the sizes it finds. -/
def PluginProc.Measures {α : Type} (p : PluginProc α) (w : LocalFiles) (a : α)
    (w' : LocalFiles) : Prop :=
  match p with
  | .shell p => Performs Remote.sizedFiles p w a w'
  | .agent p => Performs Informix.sizedFiles p w a w'

theorem does_of_measures {α : Type} (p : PluginProc α) (w w' : LocalFiles) (a : α)
    (h : p.Measures w a w') : p.Does w a w' := by
  cases p with
  | shell p => exact performs_of_sized p w w' a h
  | agent p => exact performs_of_sized p w w' a h

/-- The file of an artifact has the size the artifact says. -/
def Measured (r : Except Bytes Artifact) (w : LocalFiles) : Prop :=
  ∀ a, r = .ok a → HasSize byteSize a.path a.size w

/-- The files after a backup, compared with those before: the artifact's is new,
    closed and of its size, or all is as it was. -/
structure Delivered (d : LocalFiles) (r : Except Bytes Artifact) (w : LocalFiles) : Prop where
  handedOver : HandedOver d r w
  measured : Measured r w

theorem measured_error (err : Bytes) (w : LocalFiles) : Measured (.error err) w := by
  rintro a ⟨⟩

namespace Remote

/-- A backup over a remote shell says the size of its file. -/
theorem backupInto_measured (name tempDir pattern command : Bytes) (commandErr : Bytes → Bytes)
    (res : Resource) :
    Triple sizedFiles (fun _ => True) (backupInto name tempDir pattern command commandErr res)
      Measured := by
  have hanything : ∀ {α : Type} (pre : LocalFiles → Prop) (p : Proc α),
      Triple sizedFiles pre p (fun _ _ => True) := fun _ _ _ _ _ _ _ => trivial
  have hfails : ∀ (err : Bytes) (p : Proc Unit) (pre : LocalFiles → Prop),
      Triple sizedFiles pre (p >>= fun _ => return .error err) Measured := fun err p pre =>
    triple_bind (fun _ _ => True) p _ (hanything _ _) fun _ =>
      triple_ret _ fun w _ => measured_error err w
  refine triple_check (fun _ _ => True) _ _ _ (hanything _ _) (fun path => ?_)
    fun err w _ => measured_error _ w
  refine triple_bind (fun _ _ => True) (op (RemoteOp.run command none (some path))) _
    (hanything _ _) fun ran => ?_
  cases ran with
  | error err => exact hfails _ _ _
  | ok u =>
      -- The size that is reported is the one found here.
      refine triple_bind _ (op (RemoteOp.stat path)) _ (triple_looked _ path (fun _ => rfl) _)
        fun size => ?_
      cases size with
      | error err => exact hfails _ _ _
      | ok size =>
          refine triple_bind (fun _ => HasSize byteSize path size)
            (op (RemoteOp.closeFile path)) _ (triple_pre (triple_kept _ path size
              fun _ => Or.inr ⟨path, rfl⟩) fun w h => h size rfl) fun closed => ?_
          cases closed with
          | error err =>
              exact triple_bind (fun _ _ => True) (op (RemoteOp.removeFile path)) _
                (hanything _ _) fun _ => triple_ret _ fun w _ => measured_error _ w
          | ok u =>
              refine triple_bind (fun _ => HasSize byteSize path size) (op RemoteOp.now) _
                (triple_kept _ path size fun _ => Or.inl rfl) fun createdAt =>
                triple_ret _ fun w h => ?_
              rintro a ⟨⟩
              exact h

end Remote

/-- A refused resource has no artifact. -/
theorem Logs.backup_measured (cfg : Logs.Config) (tempDir : Bytes) (res : Resource) :
    Triple Remote.sizedFiles (fun _ => True) (Logs.backup cfg tempDir res) Measured := by
  refine triple_bind (fun _ _ => True) (op RemoteOp.now) _ (fun _ _ _ _ _ => trivial)
    fun started => ?_
  cases logsCommand (started - cfg.window) res.id with
  | none => exact triple_ret _ fun w _ => measured_error _ w
  | some command => exact Remote.backupInto_measured _ _ _ _ _ _

namespace Informix

/-- What a result is written to is measured before it is closed. -/
theorem writeArtifact_measured (tempDir resID : Bytes) (result : QueryResult) :
    Triple sizedFiles (fun _ => True) (writeArtifact tempDir resID result) Measured := by
  have hanything : ∀ {α : Type} (pre : LocalFiles → Prop) (p : Proc α),
      Triple sizedFiles pre p (fun _ _ => True) := fun _ _ _ _ _ _ _ => trivial
  have hfails : ∀ (err : Bytes) (p : Proc Unit) (pre : LocalFiles → Prop),
      Triple sizedFiles pre (p >>= fun _ => return .error err) Measured := fun err p pre =>
    triple_bind (fun _ _ => True) p _ (hanything _ _) fun _ =>
      triple_ret _ fun w _ => measured_error err w
  refine triple_check (fun _ _ => True) _ _ _ (hanything _ _) (fun path => ?_)
    fun err w _ => measured_error _ w
  refine triple_bind (fun _ _ => True) (writeDump path resID result) _ (hanything _ _)
    fun wrote => ?_
  cases wrote with
  | error err => exact hfails _ _ _
  | ok u =>
      refine triple_bind _ (op (PluginOp.stat path)) _ (triple_looked _ path (fun _ => rfl) _)
        fun size => ?_
      cases size with
      | error err => exact hfails _ _ _
      | ok size =>
          refine triple_bind (fun _ => HasSize byteSize path size)
            (op (PluginOp.closeFile path)) _ (triple_pre (triple_kept _ path size
              fun _ => Or.inr ⟨path, rfl⟩) fun w h => h size rfl) fun closed => ?_
          cases closed with
          | error err =>
              exact triple_bind (fun _ _ => True) (op (PluginOp.removeFile path)) _
                (hanything _ _) fun _ => triple_ret _ fun w _ => measured_error _ w
          | ok u =>
              refine triple_bind (fun _ => HasSize byteSize path size) (op PluginOp.now) _
                (triple_kept _ path size fun _ => Or.inl rfl) fun createdAt =>
                triple_ret _ fun w h => ?_
              rintro a ⟨⟩
              exact h

/-- Giving up the connection does nothing to files. -/
theorem backup_measured (cfg : Config) (tempDir : Bytes) (res : Resource) :
    Triple sizedFiles (fun _ => True) (backup cfg tempDir res) Measured := by
  refine triple_check (fun _ _ => True) _ _ _ (fun _ _ _ _ _ => trivial) (fun connID => ?_)
    fun err w _ => measured_error _ w
  refine triple_deferring Measured _ _ ?_ fun r => ?_
  · refine triple_check (fun _ _ => True) _ _ _ (fun _ _ _ _ _ => trivial)
      (fun result => writeArtifact_measured tempDir res.id result)
      fun err w _ => measured_error _ w
  · refine triple_of_calls Quiet (Measured r) (fun w o x w' ho hs hw a ha => ?_) _
      (calls_disconnect connID)
    have hsame : w' = w := by simpa only [fileSem, ho x] using hs.1
    rw [hsame]
    exact hw a ha

end Informix

/-- Every plugin's backup delivers a file of the size it says, or leaves nothing. -/
theorem backup_delivered (d : LocalFiles) (b : BackupPlugin) (tempDir : Bytes) (res : Resource)
    (r : Except Bytes Artifact) (w w' : LocalFiles) (h : Settled d w)
    (hdoes : (b.backup tempDir res).Measures w r w') : Delivered d r w' := by
  refine ⟨backup_handedOver d b tempDir res r w w' h (does_of_measures _ w w' r hdoes), ?_⟩
  cases b with
  | sql c => exact Remote.backupInto_measured _ _ _ _ _ _ w r w' trivial hdoes
  | filesystem cfg => exact Remote.backupInto_measured _ _ _ _ _ _ w r w' trivial hdoes
  | logs cfg => exact Logs.backup_measured cfg tempDir res w r w' trivial hdoes
  | informix cfg => exact Informix.backup_measured cfg tempDir res w r w' trivial hdoes

end Bop
