import Bop.Effect.Handler
import Bop.Storage.Restic
import Bop.Text.Calendar

/-!
# Retrieving a Snapshot

`Retrieve` looks up where the stored file lay, creates the target and lets
`restic dump` write to it. The target is emptied by being created, before a
byte is dumped, and a dump that fails in the middle leaves what it has written.
The backups of the plugins write their artifacts in the same way but remove a
file that a failed command has begun.

## Main definitions

* `ResticSnapshot`: One entry of the listing.
* `sourcePath`: The recorded path, `resticDumpPath`: where it is dumped from.
* `ResticProvider.retrieve`: The port's method.
* `RetrieveOutcomes`: What the invocations do, and the world in which they do.
* `AllOrNothing`: What is asked of a run.

## Theorems

* `retrieve_all_or_nothing_iff`: When the target is left alone on an error.
* `not_all_or_nothing`: A dump that fails after some bytes.
-/

namespace Bop

open Prog (check deferring exec)

/-- `resticSnapshot`. The time is only checked. -/
structure ResticSnapshot where
  id : Bytes
  hostname : Bytes
  tags : Option (Json.GoSlice Bytes)
  paths : Option (Json.GoSlice Bytes)

/-- An entry before it is decoded. -/
def ResticSnapshot.zero : ResticSnapshot := ⟨[], [], none, none⟩

/-- `Time.UnmarshalJSON`, apart from the time. -/
def decodeTime : Json → Option Unit
  | .null => some ()
  | .str s => guard (isTime s)
  | _ => none

/-- Decoding one member of an entry. -/
def ResticSnapshot.member (key : Bytes) (v : Json) (snap : ResticSnapshot) :
    Option ResticSnapshot :=
  if Json.isField "id" key then
    (Json.decodeString v snap.id).map (fun s => { snap with id := s })
  else if Json.isField "hostname" key then
    (Json.decodeString v snap.hostname).map (fun s => { snap with hostname := s })
  else if Json.isField "time" key then
    (decodeTime v).map (fun _ => snap)
  else if Json.isField "tags" key then
    (Json.decodeSlice Json.decodeString [] v snap.tags).map (fun s => { snap with tags := s })
  else if Json.isField "paths" key then
    (Json.decodeSlice Json.decodeString [] v snap.paths).map (fun s => { snap with paths := s })
  else some snap

/-- `json.Unmarshal` of the listing. -/
def ResticSnapshot.decode (out : Bytes) : Option (List ResticSnapshot) := do
  let v ← Json.parse out
  let snaps ← Json.decodeSlice (Json.decodeObject ResticSnapshot.member) ResticSnapshot.zero v none
  return Json.GoSlice.toList snaps

/-- The path the first entry records, if it records one. -/
def sourcePath (snaps : List ResticSnapshot) : Option Bytes :=
  snaps.head?.bind fun snap => (Json.GoSlice.toList snap.paths).head?

/-- `isASCIILetter`. -/
def isASCIILetter (b : UInt8) : Bool := (65 ≤ b ∧ b ≤ 90) ∨ (97 ≤ b ∧ b ≤ 122)

/-- `resticDumpPath`: a drive letter becomes the first directory. -/
def resticDumpPath : Bytes → Bytes
  | drive :: 58 :: sep :: rest =>
      if (sep = 92 ∨ sep = 47) ∧ isASCIILetter drive = true then
        "/" ++ [drive] ++ replaceByte 92 "/" (sep :: rest)
      else drive :: 58 :: sep :: rest
  | p => p

/-- What `Retrieve` calls: restic, and the operations on the target. -/
inductive RetrieveOp
  | run (fullArgs : List Bytes)
  | create (path : Bytes)
  | runToWriter (path : Bytes) (fullArgs : List Bytes)
  | close (path : Bytes)

/-- Their answers. -/
abbrev RetrieveAns : RetrieveOp → Type
  | .run _ => Except Bytes Bytes
  | .create _ => Except Bytes Unit
  | .runToWriter _ _ => Except Bytes Unit
  | .close _ => Unit

/-- A program that retrieves. -/
abbrev RetrieveProc (α : Type) := Prog RetrieveOp RetrieveAns α

/-- The arguments of a lookup. -/
def lookupArgs (id : SnapshotID) : List Bytes := ["snapshots", id, "--json"]

/-- The arguments of a dump. -/
def dumpArgs (id : SnapshotID) (source : Bytes) : List Bytes := ["dump", id, resticDumpPath source]

/-- `Retrieve`. -/
def ResticProvider.retrieve (p : ResticProvider) (id : SnapshotID) (a : Artifact) :
    RetrieveProc (Except Bytes Unit) :=
  check (Prog.op (RetrieveOp.run (p.fullArgs (lookupArgs id)))) ("restic snapshots: " ++ ·)
    fun out =>
  match ResticSnapshot.decode out with
  | none => return .error ("parse restic snapshots output: " ++ Json.decodeError)
  | some snaps => match sourcePath snaps with
    | none => return .error ("snapshot " ++ id ++ ": no source path recorded")
    | some source =>
        check (Prog.op (RetrieveOp.create a.path))
          (fun err => "create restore target " ++ a.path ++ ": " ++ err) fun _ =>
        deferring (Prog.op (RetrieveOp.close a.path))
          (check (Prog.op (RetrieveOp.runToWriter a.path (p.fullArgs (dumpArgs id source))))
            ("restic dump: " ++ ·) fun _ =>
          return .ok ())

/-! ### The invocations and the files -/

/-- What the invocations do: what the lookup answers, whether the target can be
    created, and for each dump the bytes it writes and how it ends. -/
structure RetrieveOutcomes where
  snapshots : Except Bytes Bytes
  create : Except Bytes Unit
  dump : List Bytes → Bytes × Except Bytes Unit

/-- The dump of the recorded path. -/
abbrev RetrieveOutcomes.dumpOf (o : RetrieveOutcomes) (p : ResticProvider) (id : SnapshotID)
    (source : Bytes) : Bytes × Except Bytes Unit :=
  o.dump (p.fullArgs (dumpArgs id source))

/-- The files by their paths, absent ones being `none`. -/
abbrev Files := Bytes → Option Bytes

/-- Creating a file empties it, and a dump writes to its end. -/
def RetrieveOutcomes.answer (o : RetrieveOutcomes) :
    (op : RetrieveOp) → Files → RetrieveAns op × Files
  | .run _, files => (o.snapshots, files)
  | .create path, files => match o.create with
    | .ok () => (.ok (), Function.update files path (some []))
    | .error err => (.error err, files)
  | .runToWriter path args, files =>
      ((o.dump args).2,
        Function.update files path ((files path).map (fun held => held ++ (o.dump args).1)))
  | .close _, files => ((), files)

/-- The path that the lookup finds for the snapshot. -/
def RetrieveOutcomes.source (o : RetrieveOutcomes) : Option Bytes := match o.snapshots with
  | .ok out => (ResticSnapshot.decode out).bind sourcePath
  | .error _ => none

/-- On success the target holds what the dump of the recorded path produced, and
    on an error it is as it was. -/
def AllOrNothing (o : RetrieveOutcomes) (p : ResticProvider) (id : SnapshotID) (a : Artifact)
    (files : Files) : Prop :=
  let after := exec o.answer (p.retrieve id a) files
  match after.1 with
  | .ok () => ∃ source, o.source = some source ∧
      after.2 a.path = some (o.dumpOf p id source).1
  | .error _ => after.2 a.path = files a.path

/-! ### The ways out -/

section Ways

variable (o : RetrieveOutcomes) (p : ResticProvider) (id : SnapshotID) (a : Artifact)
  (files : Files)

/-- Without a recorded path nothing is touched. -/
theorem retrieve_unknown (hsource : o.source = none) :
    ∃ err, exec o.answer (p.retrieve id a) files = (.error err, files) := by
  unfold RetrieveOutcomes.source at hsource
  unfold ResticProvider.retrieve
  cases hout : o.snapshots with
  | error err =>
      refine ⟨_, Prog.exec_check_error _ _ _ _ _ files err ?_⟩
      rw [Prog.exec_op, RetrieveOutcomes.answer, hout]
  | ok out =>
      rw [hout] at hsource
      have hlookup : exec o.answer (Prog.op (RetrieveOp.run (p.fullArgs (lookupArgs id)))) files =
          (.ok out, files) := by
        rw [Prog.exec_op, RetrieveOutcomes.answer, hout]
      rw [Prog.exec_check_ok _ _ _ _ _ _ _ hlookup]
      cases hdecode : ResticSnapshot.decode out with
      | none => exact ⟨_, rfl⟩
      | some snaps =>
          simp only [hdecode, Option.bind_some] at hsource
          simp only [hsource]
          exact ⟨_, rfl⟩

/-- With one, what is left to run is the creation and the dump. -/
theorem exec_retrieve_source (source : Bytes) (hsource : o.source = some source) :
    exec o.answer (p.retrieve id a) files =
      exec o.answer (check (Prog.op (RetrieveOp.create a.path))
        (fun err => "create restore target " ++ a.path ++ ": " ++ err) fun _ =>
      deferring (Prog.op (RetrieveOp.close a.path))
        (check (Prog.op (RetrieveOp.runToWriter a.path (p.fullArgs (dumpArgs id source))))
          ("restic dump: " ++ ·) fun _ =>
        return .ok ())) files := by
  unfold RetrieveOutcomes.source at hsource
  unfold ResticProvider.retrieve
  -- A source means that the lookup answered and that its answer was decoded.
  cases hout : o.snapshots with
  | error err =>
      rw [hout] at hsource
      cases hsource
  | ok out =>
      rw [hout] at hsource
      have hlookup : exec o.answer (Prog.op (RetrieveOp.run (p.fullArgs (lookupArgs id)))) files =
          (.ok out, files) := by
        rw [Prog.exec_op, RetrieveOutcomes.answer, hout]
      rw [Prog.exec_check_ok _ _ _ _ _ _ _ hlookup]
      cases hdecode : ResticSnapshot.decode out with
      | none =>
          simp only [hdecode, Option.bind_none] at hsource
          cases hsource
      | some snaps =>
          simp only [hdecode, Option.bind_some] at hsource
          simp only [hsource]

/-- A target that cannot be created is left alone. -/
theorem retrieve_refused (source err : Bytes) (hsource : o.source = some source)
    (hcreate : o.create = .error err) :
    exec o.answer (p.retrieve id a) files =
      (.error ("create restore target " ++ a.path ++ ": " ++ err), files) := by
  rw [exec_retrieve_source o p id a files source hsource]
  refine Prog.exec_check_error _ _ _ _ _ files err ?_
  rw [Prog.exec_op, RetrieveOutcomes.answer, hcreate]

/-- Once it is created, the target holds what the dump wrote, however the dump
    ended. -/
theorem retrieve_dumped (source : Bytes) (hsource : o.source = some source)
    (hcreate : o.create = .ok ()) :
    exec o.answer (p.retrieve id a) files =
      ((o.dumpOf p id source).2.mapError (fun err => ("restic dump: " : Bytes) ++ err),
        Function.update files a.path (some (o.dumpOf p id source).1)) := by
  have hcreated : exec o.answer (Prog.op (RetrieveOp.create a.path)) files =
      (.ok (), Function.update files a.path (some [])) := by
    rw [Prog.exec_op, RetrieveOutcomes.answer, hcreate]
  rw [exec_retrieve_source o p id a files source hsource,
    Prog.exec_check_ok _ _ _ _ _ _ _ hcreated]
  -- The dump appends to the file that was just emptied.
  have hwritten : exec o.answer
      (Prog.op (RetrieveOp.runToWriter a.path (p.fullArgs (dumpArgs id source))))
      (Function.update files a.path (some [])) =
      ((o.dumpOf p id source).2,
        Function.update files a.path (some (o.dumpOf p id source).1)) := by
    rw [Prog.exec_op, RetrieveOutcomes.answer, Function.update_self, Function.update_idem,
      Option.map_some, List.nil_append]
  unfold deferring
  rw [Prog.exec_bind]
  cases hdump : (o.dumpOf p id source).2 with
  | ok done =>
      rw [hdump] at hwritten
      rw [Prog.exec_check_ok _ _ _ _ _ _ _ hwritten]
      rfl
  | error err =>
      rw [hdump] at hwritten
      rw [Prog.exec_check_error _ _ _ _ _ _ _ hwritten]
      rfl

/-- If a failing dump leaves the target as it was, the target held what the dump
    wrote. -/
theorem held_of_allOrNothing (source err : Bytes) (hsource : o.source = some source)
    (hcreate : o.create = .ok ()) (hdump : (o.dumpOf p id source).2 = .error err)
    (h : AllOrNothing o p id a files) : files a.path = some (o.dumpOf p id source).1 := by
  unfold AllOrNothing at h
  rw [retrieve_dumped o p id a files source hsource hcreate, hdump] at h
  -- The error is returned, so the target is what it was, and it is what was written.
  change Function.update files a.path _ a.path = files a.path at h
  rw [Function.update_self] at h
  exact h.symm

/-- The target is left alone on an error, unless a dump that was begun fails:
    then only a target that already held what the dump wrote is as it was. -/
theorem retrieve_all_or_nothing_iff :
    AllOrNothing o p id a files ↔
      ∀ source err, o.source = some source → o.create = .ok () →
        (o.dumpOf p id source).2 = .error err →
        files a.path = some (o.dumpOf p id source).1 := by
  constructor
  · intro h source err hsource hcreate hdump
    exact held_of_allOrNothing o p id a files source err hsource hcreate hdump h
  · intro h
    unfold AllOrNothing
    cases hsource : o.source with
    | none =>
        rcases retrieve_unknown o p id a files hsource with ⟨err, hrun⟩
        rw [hrun]
    | some source => cases hcreate : o.create with
      | error err => rw [retrieve_refused o p id a files source err hsource hcreate]
      | ok created =>
          rw [retrieve_dumped o p id a files source hsource hcreate]
          cases hdump : (o.dumpOf p id source).2 with
          | ok done => exact ⟨source, rfl, Function.update_self _ _ _⟩
          | error err =>
              -- The target was cut to nothing and refilled with what it held.
              change Function.update files a.path _ a.path = files a.path
              rw [Function.update_self, h source err hsource hcreate hdump]

end Ways

/-! ### A dump that is cut off -/

/-- The listing of one snapshot of a dump, whose dump fails after four bytes. -/
def cutOff : RetrieveOutcomes where
  snapshots := .ok
    "[\x7b\"id\":\"b0ff\",\"time\":\"2026-07-01T02:00:00Z\",\"paths\":[\"/tmp/pg\"]\x7d]"
  create := .ok ()
  dump := fun _ => ("-- d", .error "exit status 1")

/-- The target's content is lost and what was dumped so far is left in place. -/
theorem not_all_or_nothing :
    ¬ ∀ o p id a files, AllOrNothing o p id a files := by
  intro h
  have hsource : cutOff.source = some "/tmp/pg" := by decide +kernel
  have htarget := held_of_allOrNothing cutOff ⟨"/srv/restic", []⟩ "b0ff"
    ⟨[], [], [], "/tmp/out", 0, [], false, 0⟩ (fun _ => some "kept") "/tmp/pg" "exit status 1"
    hsource rfl rfl (h _ _ _ _ _)
  exact absurd htarget (by decide)

end Bop
