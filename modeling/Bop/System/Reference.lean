import Bop.Effect.Handler
import Bop.Storage.Repository
import Mathlib.Data.List.Sort

/-!
# A World That Works

A store, a queue, a plugin and a restic that answer every call as they should.
What they answer is among what their specifications allow, so running a program
against them is one of its runs, and one that can be computed.

## Main definitions

* `Store.answer`: A store that never fails.
* `Plugin`, `Shared.answer`: The same with a queue and a plugin.
* `keepDaily`: The rule of `--keep-daily`.
* `ResticWorld.answer`: The same with a restic.

## Theorems

* `storeSem_answer`, `sharedSem_answer`, `resticSem_answer`: What they answer
  is allowed.
-/

namespace Bop

/-- A statement of a store that never fails. -/
def Store.answer : (o : StoreOp) → Store → StoreAns o × Store
  | .createJob job, s => match s.createJob? job with
    | some s' => (.ok (), s')
    | none => (.error "UNIQUE constraint failed: jobs.id", s)
  | .updateJobStatus id st, s =>
      if (s.jobs.find? id).isSome then (.ok (), s.setStatus id st) else (.error errJobNotFound, s)
  | .getJob id, s => match s.jobs.find? id with
    | some job => (.ok job, s)
    | none => (.error .notFound, s)
  | .listJobsByStatus st, s =>
      (.ok ((s.jobsIn st).insertionSort (fun a b => a.queuedAt ≤ b.queuedAt)), s)
  | .listJobs, s => (.ok (s.jobs.rows.insertionSort (fun a b => b.queuedAt ≤ a.queuedAt)), s)
  | .failOrphanedJobs, s => (.ok (s.jobsIn .inProgress).length, s.failOrphaned)
  | .recordSnapshot snap, s => match s.recordSnapshot? snap with
    | some s' => (.ok (), s')
    | none => (.error "UNIQUE constraint failed: snapshots.id", s)
  | .listSnapshots host, s =>
      (.ok ((s.snapshots.rows.filter (fun r => r.host = host)).insertionSort
        (fun a b => b.createdAt ≤ a.createdAt)), s)
  | .listEventsPage f, s =>
      let all := (s.eventsMatching f).insertionSort (fun a b => b.timestamp ≤ a.timestamp)
      (.ok (if f.limit > 0 then all.take f.limit.toNat else all), s)
  | .getPluginSettings host plugin, s =>
      (.ok ((s.pluginSettings.find? (host, plugin)).map PluginSettings.configJSON), s)
  | .setPluginSettings host plugin json, s => (.ok (), s.setPluginSettings host plugin json)

/-- A plugin that works: what it finds, and what it makes of each resource. -/
structure Plugin where
  resources : List Resource
  artifact : Resource → Artifact

/-- A plugin that finds nothing. -/
def idlePlugin : Plugin := ⟨[], fun res => ⟨res.id, [], [], [], 0, [], false, 0⟩⟩

/-- A plugin with one directory to back up. -/
def sitePlugin : Plugin where
  resources := [⟨"/srv/site", "/srv/site"⟩]
  artifact := fun res => ⟨res.id, [], [], "/tmp/bop/fs-1.tar.gz", 512, [], false, 7⟩

/-- An operation of a process over such a store. The clock stands still, and a
    process that is given no repository cannot use one. -/
def Shared.answer {S : Type} (plugin : Plugin) (clock : Time) :
    (o : Op S) → Shared → Ans o × Shared
  | .store _ o, w => ((Store.answer o w.store).1, ⟨(Store.answer o w.store).2, w.queue⟩)
  | .publish _ e, w => ((), ⟨w.store.recordEvent e, w.queue⟩)
  | .enqueue job, w => match w.queue.enqueue? job with
    | some q => (.ok (), ⟨w.store, q⟩)
    | none => (.error Memory.errQueueFull, w)
  | .now, w => (clock, w)
  | .factory _, w => (.ok (), w)
  | .discover _ _, w => (.ok plugin.resources, w)
  | .backup _ _ res, w => (.ok (plugin.artifact res), w)
  | .verify _ _ _, w => (.ok (), w)
  | .restore _ _ _, w => (.ok (), w)
  | .checksumFile _, w => (.ok [], w)
  | .removeFile _, w => (.ok (), w)
  | .storeArtifact _ _ _, w => (.error [], w)
  | .verifySnapshot _ _ _, w => (.error [], w)
  | .applyRetention _ _ _ _, w => (.error [], w)

/-- What such a store answers is allowed. -/
theorem storeSem_answer (o : StoreOp) (s : Store) :
    StoreSem s o (Store.answer o s).1 (Store.answer o s).2 := by
  have hle : ∀ {α : Type} (f : α → Time) (xs : List α),
      (xs.insertionSort (fun a b => f a ≤ f b)).Perm xs ∧
        (xs.insertionSort (fun a b => f a ≤ f b)).Pairwise (fun a b => f a ≤ f b) := by
    intro α f xs
    have : Std.Total (fun a b : α => f a ≤ f b) := ⟨fun a b => Int.le_total (f a) (f b)⟩
    have : IsTrans α (fun a b : α => f a ≤ f b) := ⟨fun a b c => Int.le_trans⟩
    exact ⟨List.perm_insertionSort _ xs, List.pairwise_insertionSort _ xs⟩
  have hge : ∀ {α : Type} (f : α → Time) (xs : List α),
      (xs.insertionSort (fun a b => f b ≤ f a)).Perm xs ∧
        (xs.insertionSort (fun a b => f b ≤ f a)).Pairwise (fun a b => f b ≤ f a) := by
    intro α f xs
    have : Std.Total (fun a b : α => f b ≤ f a) := ⟨fun a b => Int.le_total (f b) (f a)⟩
    have : IsTrans α (fun a b : α => f b ≤ f a) := ⟨fun a b c hab hbc => Int.le_trans hbc hab⟩
    exact ⟨List.perm_insertionSort _ xs, List.pairwise_insertionSort _ xs⟩
  -- Each answer is the one the operation describes, with the lists sorted.
  cases o with
  | createJob job =>
      simp only [Store.answer]
      cases h : s.createJob? job with
      | none => exact Or.inl rfl
      | some s' => exact h
  | updateJobStatus id st =>
      simp only [Store.answer]
      split
      · next h => exact ⟨h, rfl⟩
      · exact Or.inl rfl
  | getJob id =>
      simp only [Store.answer]
      cases h : s.jobs.find? id with
      | none => exact ⟨rfl, h⟩
      | some job => exact ⟨rfl, h⟩
  | listJobsByStatus st => exact ⟨rfl, hle Job.queuedAt (s.jobsIn st)⟩
  | listJobs => exact ⟨rfl, hge Job.queuedAt s.jobs.rows⟩
  | failOrphanedJobs => exact ⟨rfl, rfl⟩
  | recordSnapshot snap =>
      simp only [Store.answer]
      cases h : s.recordSnapshot? snap with
      | none => exact Or.inl rfl
      | some s' => exact h
  | listSnapshots host => exact ⟨rfl, hge Snapshot.createdAt _⟩
  | listEventsPage f =>
      exact ⟨rfl, _, (hge Event.timestamp (s.eventsMatching f)).1,
        (hge Event.timestamp (s.eventsMatching f)).2, rfl⟩
  | getPluginSettings host plugin => exact ⟨rfl, rfl⟩
  | setPluginSettings host plugin json => exact rfl

/-- What such a process is answered is allowed. -/
theorem sharedSem_answer {S : Type} (plugin : Plugin) (clock : Time) (o : Op S) (w : Shared) :
    SharedSem w o (Shared.answer plugin clock o w).1 (Shared.answer plugin clock o w).2 := by
  cases o with
  | store ctx o => exact ⟨storeSem_answer o w.store, rfl⟩
  | publish ctx e => exact ⟨Or.inr rfl, rfl⟩
  | enqueue job =>
      simp only [Shared.answer]
      cases h : w.queue.enqueue? job with
      | none => exact rfl
      | some q => exact ⟨rfl, h⟩
  | _ => exact rfl

/-! ### Restic -/

/-- The days of UTC. -/
def utcDay (t : Time) : Int := t / 86400000000000

/-- Of snapshots from the newest to the oldest, the newest of each of the first
    so many days. -/
def newestPerDay : Nat → Option Int → List StoredSnapshot → List StoredSnapshot
  | _, _, [] => []
  | 0, _, _ :: _ => []
  | n + 1, day, t :: rest =>
      if day = some (utcDay t.time) then newestPerDay (n + 1) day rest
      else t :: newestPerDay n (some (utcDay t.time)) rest

/-- What `--keep-daily` keeps of a group. -/
def keepDaily : KeepRule := fun name values group =>
  if name = "--keep-daily" then
    newestPerDay (Json.parseDigits (values.getLast?.getD [])) none
      (group.insertionSort (fun a b => b.time ≤ a.time))
  else []

/-- A restic with this rule. -/
def dailyRestic : Restic := sampleRestic keepDaily

/-- The summary of a backup. -/
def resticSummary (id : SnapshotID) : Bytes :=
  "\x7b\"message_type\":\"summary\",\"snapshot_id\":\"" ++ id ++ "\"\x7d"

/-- A restic that numbers its snapshots, one every second. -/
def ResticWorld.answer (plugin : Plugin) (clock : Time) :
    (o : ResticOp) → ResticWorld → ResticAns o × ResticWorld
  | .other o, w =>
      ((Shared.answer plugin clock o w.shared).1,
        { w with shared := (Shared.answer plugin clock o w.shared).2 })
  | .run args, w => match dailyRestic.read args with
    | none => (.error "unknown flag", w)
    | some cmd =>
        if cmd.name = "backup" then
          match parseBackupSnapshotID (resticSummary ("e" ++ itoaNat w.issued.length)) with
          | .error err => (.error err, w)
          | .ok id =>
              if Identifier id ∧ ∀ e ∈ w.issued, e.2.id ≠ id then
                let t : StoredSnapshot := ⟨id, cmd.host.getD [], cmd.given.values tagFlag,
                  w.issued.length * 1000000000⟩
                (.ok (resticSummary ("e" ++ itoaNat w.issued.length)),
                  { w.setRepo cmd.repository (w.repos cmd.repository ++ [t]) with
                    issued := w.issued ++ [(cmd.repository, t)] })
              else (.error "no identifier", w)
        else if cmd.name = "forget" then
          (.ok [], w.setRepo cmd.repository
            (dailyRestic.afterForget cmd (w.repos cmd.repository)))
        else (.ok "[0]", w)

/-- What such a restic does is documented. -/
theorem resticSem_answer (plugin : Plugin) (clock : Time) (o : ResticOp) (w : ResticWorld) :
    dailyRestic.Sem w o (ResticWorld.answer plugin clock o w).1
      (ResticWorld.answer plugin clock o w).2 := by
  -- By the command: a backup, a removal or one that reads.
  cases o with
  | other o => exact ⟨_, sharedSem_answer plugin clock o w.shared, rfl⟩
  | run args =>
      change dailyRestic.RunSem w args _ _
      simp only [ResticWorld.answer]
      split
      · next hread => exact Restic.RunSem.refused _ hread rfl
      · next cmd hread =>
          have hfailed : ∀ (err : Bytes) id, ¬ Restic.Summarises (.error err) id :=
            fun _ _ ⟨_, hx, _⟩ => by cases hx
          split
          · next hname =>
              split
              · next err _ => exact Restic.RunSem.notBackedUp cmd hread hname (hfailed err)
              · next id hid =>
                  split
                  · next hfresh =>
                      refine Restic.RunSem.backup cmd _ hread hname hfresh.2 hfresh.1
                        (fun host hhost => ?_) rfl fun id' hout => ?_
                      · rw [hhost]
                        rfl
                      · rcases hout with ⟨out, hx, hparsed⟩
                        cases hx
                        rw [hid] at hparsed
                        cases hparsed
                        rfl
                  · exact Restic.RunSem.notBackedUp cmd hread hname (hfailed _)
          · next hbackup =>
              split
              · next hname =>
                  exact Restic.RunSem.forgotten cmd _ hread hname
                    (fun t ht => List.mem_of_mem_filter ht) (List.Subset.refl _)
              · next hforget => exact Restic.RunSem.reading cmd hread hbackup hforget

end Bop
