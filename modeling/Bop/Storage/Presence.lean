import Bop.Controller.Provenance
import Bop.System.Reference

/-!
# Where Listed Snapshots Are

The metadata service lists a host's snapshots from rows that a job added when
it had stored them. Rows are never removed, and repositories are pruned after
every job, so a listed snapshot is in the repository that the host's backups go
to or was removed from it by the retention of a later job. That retention
looked at the snapshot and none of its rules kept it in its group, or the
operator's extra arguments named it.

Where a backup goes and what a retention looks at is what restic reads in the
arguments. With extra arguments that only bear on how restic works it is what
the provider asks for: the host's own repository and name, and the job's host
and policy.

## Main definitions

* `runJobs`: Jobs that are persisted and run one after the other.
* `InRepository`: A snapshot that can be retrieved.
* `AddedBy`, `RemovedBy`: A snapshot that a backup added, or the retention of a
  job removed.
* `Added`, `Backed`: What the monitor and the rows say of the repositories.

## Theorems

* `through_storeArtifact`, `through_verifySnapshot`, `through_applyRetention`:
  What the provider's methods do to the world.
* `backed_run`: Every row is backed by a snapshot that was added.
* `listed_present`: Every listed snapshot is there or was removed.
-/

namespace Bop

open Prog

/-- Jobs that are persisted and run one after the other. -/
def runJobs {S : Type} (c : Controller S) (jobs : List Job) : Proc S Unit :=
  forEach jobs (fun job => do
    let _ ← store .caller (.createJob job)
    let _ ← c.runJob job
    return ())

/-- The repository holds the snapshot. -/
def InRepository (w : ResticWorld) (repo : Bytes) (id : SnapshotID) : Prop :=
  ∃ t ∈ w.repos repo, t.id = id

section

variable (r : Restic)

/-- The extra arguments of these commands only bear on how restic works. -/
abbrev Restic.Plain (p : ResticProvider) (command : Bytes) : Prop :=
  r.Within (fun name => r.inert name = true) p command

/-- The snapshot was added for the artifact, to the repository and under the host
    that restic reads in the command. Without extra arguments that say otherwise
    these are the ones the provider asks for. -/
structure AddedBy (w : ResticWorld) (p : ResticProvider) (a : Artifact) (cmd : ResticCommand)
    (t : StoredSnapshot) : Prop where
  read : r.read (p.fullArgs (ResticProvider.storeArgs a)) = some cmd
  issued : (cmd.repository, t) ∈ w.issued
  host : ∀ host, cmd.host = some host → t.hostname = host
  own : a.path.head? ≠ some 45 → r.Plain p "backup" →
    cmd.repository = p.repository ∧ (a.host ≠ [] → t.hostname = a.host)

/-- The snapshots with the host and the tags of this one. -/
def hostTagsGroup (snaps : List StoredSnapshot) (t : StoredSnapshot) : List StoredSnapshot :=
  snaps.filter (fun u => u.hostname = t.hostname ∧ u.tags = t.tags)

/-- During a run, the retention of this job was to remove the snapshot from this
    repository and did. Without extra arguments that say otherwise the snapshot
    is one of the job's host, and no rule of the job's policy kept it. -/
def RemovedBy (c : Controller ResticProvider) (job : Job) (w : ResticWorld)
    (tr : Trace ResticOp ResticAns) (w' : ResticWorld) (repo : Bytes) (t : StoredSnapshot) : Prop :=
  ∃ tr₁ p cmd x tr₂ u u', c.storageFor job.host = .ok p ∧
    r.read (p.fullArgs (ResticProvider.forgetArgs job.host job.policy)) = some cmd ∧
    cmd.repository = repo ∧
    tr = tr₁ ++ ⟨.run (p.fullArgs (ResticProvider.forgetArgs job.host job.policy)), x⟩ :: tr₂ ∧
    Steps r.Sem w tr₁ u ∧
    r.Sem u (.run (p.fullArgs (ResticProvider.forgetArgs job.host job.policy))) x u' ∧
    Steps r.Sem u' tr₂ w' ∧ t ∈ u.repos repo ∧ r.removes cmd (u.repos repo) t = true ∧
    (r.Plain p "forget" → (job.host = [] ∨ t.hostname = job.host) ∧
      ∀ rule ∈ keptOptions job.policy,
        t ∉ r.keeps rule.1 [itoa rule.2] (hostTagsGroup (u.repos repo) t))

end

variable {r : Restic} {w w' : ResticWorld}

/-! ### What a run of restic leaves alone -/

theorem shared_of_run (args : List Bytes) (x : Except Bytes Bytes) (h : r.RunSem w args x w') :
    w'.shared = w.shared := by
  cases h <;> rfl

theorem issued_of_run (args : List Bytes) (x : Except Bytes Bytes) (h : r.RunSem w args x w') :
    w.issued ⊆ w'.issued := by
  cases h with
  | backup _ t _ _ _ _ _ _ _ => exact List.subset_append_left _ _
  | _ => exact List.Subset.refl _

/-! ### Commands without further say -/

/-- The host a backup asks for. -/
theorem storeGiven_host (p : ResticProvider) (a : Artifact) (hhost : a.host ≠ []) :
    (storeGiven p a).last hostFlag = some a.host := by
  have htags : (tagOptions a).filter (fun kv => kv.1 = hostFlag) = [] := by
    refine List.filter_eq_nil_iff.mpr fun kv hkv heq => ?_
    rw [mem_tagOptions a kv hkv] at heq
    exact absurd (of_decide_eq_true heq) (by decide)
  have hown : (storeGiven p a).values hostFlag = [a.host] := by
    change ((hostOption a.host ++ tagOptions a).filter _).map _ = _
    rw [List.filter_append, htags, List.append_nil, hostOption, if_pos hhost]
    rfl
  rw [Given.last, hown, List.getLast?_singleton]

/-- A backup goes where the provider asks, under the host it asks for. -/
theorem store_plain (p : ResticProvider) (a : Artifact) (cmd : ResticCommand)
    (hpath : a.path.head? ≠ some 45) (hextra : r.Plain p "backup")
    (hread : r.read (p.fullArgs (ResticProvider.storeArgs a)) = some cmd) :
    cmd.repository = p.repository ∧ (a.host ≠ [] → cmd.host = some a.host) := by
  rw [read_storeArgs r p a hpath] at hread
  rcases Option.map_eq_some_iff.mp hread with ⟨extra, hparse, rfl⟩
  have hinert := (hextra extra hparse).2
  constructor
  · rw [ResticCommand.repository, Given.last_append,
      last_of_inert r extra hinert repoFlag (by decide), Option.none_or]
    have hown : (storeGiven p a).last repoFlag = some p.repository := by
      have hrest : (hostOption a.host ++ tagOptions a).filter (fun kv => kv.1 = repoFlag) = [] := by
        refine List.filter_eq_nil_iff.mpr fun kv hkv heq => ?_
        rcases List.mem_append.mp hkv with hkv | hkv
        · rw [mem_hostOption _ _ hkv] at heq
          exact absurd (of_decide_eq_true heq : hostFlag = repoFlag) (by decide)
        · rw [mem_tagOptions a kv hkv] at heq
          exact absurd (of_decide_eq_true heq) (by decide)
      have hvalues : (storeGiven p a).values repoFlag = [p.repository] := by
        change (((repoFlag, p.repository) ::
          (hostOption a.host ++ tagOptions a).filter _).map _) = _
        rw [hrest]
        rfl
      rw [Given.last, hvalues, List.getLast?_singleton]
    rw [hown, Option.getD_some]
  · intro hhost
    rw [ResticCommand.host, Given.last_append,
      last_of_inert r extra hinert hostFlag (by decide), Option.none_or, storeGiven_host p a hhost,
      Option.filter_some, if_pos (decide_eq_true hhost)]

section Removal

variable (p : ResticProvider) (host : Bytes) (policy : Policy) (extra : Given)
  (hinert : ∀ kv ∈ extra.flags, r.inert kv.1 = true)

include hinert

/-- An option of a retention has the values it is given by the provider. -/
theorem values_forgetGiven (name : Bytes) (hname : name ∈ ownFlags) :
    ((forgetGiven p host policy).append extra).values name =
      (forgetGiven p host policy).values name := by
  rw [Given.values_append, values_of_inert r extra hinert name hname, List.append_nil]

/-- No option of such a retention narrows it but the host. -/
theorem selects_forgetGiven (t : StoredSnapshot) :
    r.selects ⟨"forget", (forgetGiven p host policy).append extra⟩ t =
      ResticCommand.considers ⟨"forget", (forgetGiven p host policy).append extra⟩ t.hostname := by
  refine Bool.and_eq_left_iff_imp.mpr fun _ => List.all_eq_true.mpr fun kv hkv => ?_
  rw [Bool.not_eq_true']
  rcases List.mem_append.mp hkv with hkv | hkv
  · exact r.own_leavesOut kv.1 (forgetGiven_flags p host policy kv hkv) _ t
  · exact r.inert_leavesOut kv.1 _ t (hinert kv hkv)

/-- It looks at the snapshots of the host it is given, if it is given one. -/
theorem considers_forgetGiven (hostname : Bytes)
    (h : ResticCommand.considers ⟨"forget", (forgetGiven p host policy).append extra⟩ hostname =
      true) : host = [] ∨ hostname = host := by
  by_cases hhost : host = []
  · exact Or.inl hhost
  · have hmem : (hostFlag, host) ∈ (forgetGiven p host policy).flags := by
      refine List.mem_append_right _ (List.mem_append_left _ ?_)
      rw [hostOption, if_pos hhost]
      exact List.mem_singleton_self _
    rw [ResticCommand.considers, values_forgetGiven p host policy extra hinert hostFlag (by decide),
      forgetGiven_values p host policy hostFlag host hmem] at h
    simp only [reduceCtorEq, decide_false, Bool.false_or, List.mem_singleton, Bool.or_eq_true,
      decide_eq_true_eq] at h
    rcases h with hempty | heq
    · exact Or.inl hempty.symm
    · exact Or.inr heq

/-- It takes a snapshot that it looks at together with those of the same host and
    tags. -/
theorem groupOf_forgetGiven (snaps : List StoredSnapshot) (t : StoredSnapshot)
    (ht : ResticCommand.considers ⟨"forget", (forgetGiven p host policy).append extra⟩ t.hostname =
      true) :
    r.groupOf ⟨"forget", (forgetGiven p host policy).append extra⟩ snaps t =
      hostTagsGroup snaps t := by
  have hgroup : ((forgetGiven p host policy).append extra).last groupFlag = some hostTags := by
    rw [Given.last, values_forgetGiven p host policy extra hinert groupFlag (by decide)]
    exact forgetGiven_last p host policy _ _ (List.mem_cons_of_mem _ List.mem_cons_self)
  refine List.filter_congr fun u _ => ?_
  rw [selects_forgetGiven p host policy extra hinert, hgroup, Option.getD_some, r.groups_hostTags]
  by_cases hsame : u.hostname = t.hostname
  · rw [hsame, ht, Bool.true_and]
  · rw [decide_eq_false fun h => hsame h.1, Bool.and_false]

end Removal

/-- What a retention is to remove: a snapshot of the host it is given, if it is
    given one, that no rule of the policy keeps. -/
theorem removes_plain (p : ResticProvider) (host : Bytes) (policy : Policy) (cmd : ResticCommand)
    (hextra : r.Plain p "forget")
    (hread : r.read (p.fullArgs (ResticProvider.forgetArgs host policy)) = some cmd)
    (snaps : List StoredSnapshot) (t : StoredSnapshot) (h : r.removes cmd snaps t = true) :
    (host = [] ∨ t.hostname = host) ∧ ∀ rule ∈ keptOptions policy,
      t ∉ r.keeps rule.1 [itoa rule.2] (hostTagsGroup snaps t) := by
  rw [read_forgetArgs] at hread
  rcases Option.map_eq_some_iff.mp hread with ⟨extra, hparse, rfl⟩
  rcases hextra extra hparse with ⟨hoperands, hinert⟩
  have hnone : ((forgetGiven p host policy).append extra).operands = [] := by
    rw [Given.append, hoperands, forgetGiven, List.append_nil]
  rw [Restic.removes, if_pos hnone, Bool.and_eq_true, Bool.not_eq_true',
    selects_forgetGiven p host policy extra hinert] at h
  refine ⟨considers_forgetGiven p host policy extra hinert _ h.1, fun rule hrule hkeeps => ?_⟩
  have hmem : (rule.1, itoa rule.2) ∈ (forgetGiven p host policy).flags :=
    List.mem_append_right _ (List.mem_append_right _ (List.mem_map_of_mem hrule))
  -- Its option would keep it.
  refine absurd (List.any_eq_true.mpr ⟨_, List.mem_append_left _ hmem, decide_eq_true ?_⟩)
    (Bool.not_eq_true _ ▸ h.2)
  rw [groupOf_forgetGiven p host policy extra hinert snaps t h.1,
    values_forgetGiven p host policy extra hinert rule.1
      (List.mem_append_right _ (keptOptions_flag policy rule hrule).1),
    forgetGiven_values p host policy _ _ hmem]
  exact hkeeps

/-! ### What the provider's methods do -/

/-- A backup whose output names a snapshot added it, under a new identifier. -/
theorem added_of_summary (p : ResticProvider) (a : Artifact) (y : Except Bytes Bytes)
    (id : SnapshotID) (hnamed : Restic.Summarises y id)
    (h : r.RunSem w (p.fullArgs (ResticProvider.storeArgs a)) y w') :
    ∃ cmd t, AddedBy r w' p a cmd t ∧ t.id = id ∧ ∀ e ∈ w.issued, e.2.id ≠ id := by
  have hcommand : ∀ cmd, r.read (p.fullArgs (ResticProvider.storeArgs a)) = some cmd →
      cmd.name = "backup" := fun cmd hread => read_name r p _ _ cmd (storeArgs_eq a ▸ hread)
  cases h with
  | backup cmd t hread _ hfresh _ hhost _ hout =>
      refine ⟨cmd, t, ⟨hread, List.mem_append_right _ List.mem_cons_self, hhost,
        fun hpath hextra => ?_⟩, (hout id hnamed).symm, hout id hnamed ▸ hfresh⟩
      rcases store_plain p a cmd hpath hextra hread with ⟨hrepo, hasked⟩
      exact ⟨hrepo, fun hne => hhost a.host (hasked hne)⟩
  | refused err _ hx =>
      rcases hnamed with ⟨out, hout, _⟩
      rw [hx] at hout
      cases hout
  | notBackedUp _ _ _ hout => exact absurd hnamed (hout id)
  | forgotten cmd _ hread hname _ _ =>
      exact absurd ((hcommand cmd hread).symm.trans hname) (by decide)
  | reading cmd hread hbackup _ => exact absurd (hcommand cmd hread) hbackup

/-- A method that runs restic once and only reads what it wrote. -/
theorem runs_checked {α : Type} (p : ResticProvider) (args : List Bytes) (wrap : Bytes → Bytes)
    (k : Bytes → ResticProc (Except Bytes α)) (hk : ∀ out, ∃ r, k out = .ret r)
    (tr : Trace ResticOp ResticAns) (x : Except Bytes α)
    (hr : Runs (check (p.run args) wrap k) tr x) :
    ∃ y, tr = [⟨.run (p.fullArgs args), y⟩] ∧ ((∃ out, y = .ok out ∧ k out = .ret x) ∨
      ∃ err, y = .error err ∧ x = .error (wrap err)) := by
  rcases (runs_call_iff _ _ _ _).mp hr with ⟨y, tr', rfl, hrest⟩
  refine ⟨y, ?_⟩
  cases y with
  | ok out =>
      change Runs (k out) tr' x at hrest
      rcases hk out with ⟨r, hr⟩
      rw [hr] at hrest
      rcases (runs_ret_iff _ _ _).mp hrest with ⟨rfl, rfl⟩
      exact ⟨rfl, Or.inl ⟨out, rfl, hr⟩⟩
  | error err =>
      rcases (runs_ret_iff _ _ _).mp hrest with ⟨rfl, rfl⟩
      exact ⟨rfl, Or.inr ⟨err, rfl, rfl⟩⟩

/-- An identifier that the store method returns is one its command's output
    names. -/
theorem summarises_of_store (p : ResticProvider) (a : Artifact)
    (tr : Trace ResticOp ResticAns) (x : Except Bytes SnapshotID) (hr : Runs (p.store a) tr x) :
    ∃ y, tr = [⟨.run (p.fullArgs (ResticProvider.storeArgs a)), y⟩] ∧
      ∀ id, x = .ok id → Restic.Summarises y id := by
  rcases runs_checked p (ResticProvider.storeArgs a) _ _
    (fun out => by split <;> exact ⟨_, rfl⟩) tr x hr with ⟨y, rfl, hx⟩
  refine ⟨y, rfl, ?_⟩
  rintro id rfl
  rcases hx with ⟨out, rfl, hout⟩ | ⟨err, _, herr⟩
  · refine ⟨out, rfl, ?_⟩
    split at hout
    · cases hout
    · next id' hp =>
        cases hout
        exact hp
  · cases herr

/-- What the store method makes of the world: whatever identifier it returns was
    added for the artifact. -/
theorem through_storeArtifact (ctx : Ctx) (p : ResticProvider) (a : Artifact)
    (x : Except Bytes SnapshotID)
    (h : through resticImpl r.Sem w (.storeArtifact ctx p a) x w') :
    w'.shared = w.shared ∧ w.issued ⊆ w'.issued ∧ ∀ id, x = .ok id →
      ∃ cmd t, AddedBy r w' p a cmd t ∧ t.id = id := by
  rcases h with ⟨tr, hr, hs⟩
  rcases summarises_of_store p a tr x hr with ⟨y, rfl, hsummary⟩
  have hstep : r.RunSem w (p.fullArgs (ResticProvider.storeArgs a)) y w' :=
    steps_single _ _ _ _ _ hs
  refine ⟨shared_of_run _ _ hstep, issued_of_run _ _ hstep, fun id hid => ?_⟩
  rcases added_of_summary p a y id (hsummary id hid) hstep with ⟨cmd, t, hadded, hid, _⟩
  exact ⟨cmd, t, hadded, hid⟩

theorem through_verifySnapshot (ctx : Ctx) (p : ResticProvider) (id : SnapshotID)
    (x : Except Bytes Unit)
    (h : through resticImpl r.Sem w (.verifySnapshot ctx p id) x w') :
    w'.shared = w.shared ∧ w.issued ⊆ w'.issued := by
  rcases h with ⟨tr, hr, hs⟩
  rcases runs_checked p _ _ _ (fun out => by split <;> exact ⟨_, rfl⟩) tr x hr with ⟨y, rfl, _⟩
  have hstep : r.RunSem w _ y w' := steps_single _ _ _ _ _ hs
  exact ⟨shared_of_run _ _ hstep, issued_of_run _ _ hstep⟩

theorem through_applyRetention (ctx : Ctx) (p : ResticProvider) (host : Bytes) (policy : Policy)
    (x : Except Bytes Unit)
    (h : through resticImpl r.Sem w (.applyRetention ctx p host policy) x w') :
    w'.shared = w.shared ∧ w.issued ⊆ w'.issued := by
  rcases h with ⟨tr, hr, hs⟩
  change Runs (ResticProvider.applyRetention p host policy) tr x at hr
  unfold ResticProvider.applyRetention at hr
  split at hr
  · -- A policy without a rule is refused before anything is run.
    rcases (runs_ret_iff _ _ _).mp hr with ⟨rfl, _⟩
    cases hs
    exact ⟨rfl, List.Subset.refl _⟩
  · rcases runs_checked p _ _ _ (fun out => ⟨_, rfl⟩) tr x hr with ⟨y, rfl, _⟩
    have hstep : r.RunSem w _ y w' := steps_single _ _ _ _ _ hs
    exact ⟨shared_of_run _ _ hstep, issued_of_run _ _ hstep⟩

/-- The operations that need no repository. -/
theorem through_other (o : Op ResticProvider) (x : Ans o) 
    (himpl : resticImpl o = Prog.op (ResticOp.other o))
    (h : through resticImpl r.Sem w o x w') :
    ∃ shared, SharedSem w.shared o x shared ∧ w' = { w with shared := shared } := by
  rcases h with ⟨tr, hr, hs⟩
  rw [himpl] at hr
  rcases (runs_call_iff _ _ _ _).mp hr with ⟨y, tr', rfl, hrest⟩
  rcases (runs_ret_iff _ _ _).mp hrest with ⟨rfl, rfl⟩
  exact steps_single _ _ _ _ _ hs

/-! ### Rows and repositories -/

/-- A snapshot with this identifier was added for an artifact of the host. -/
def Added (r : Restic) (w : ResticWorld) (p : ResticProvider) (host : Bytes) (id : SnapshotID) :
    Prop :=
  ∃ a cmd t, a.host = host ∧ t.id = id ∧ AddedBy r w p a cmd t

/-- Every row names a snapshot that the repository of its host added. -/
def Backed (r : Restic) (c : Controller ResticProvider) (w : ResticWorld) : Prop :=
  ∀ row ∈ w.shared.store.snapshots.rows,
    ∃ p, c.storageFor row.host = .ok p ∧ Added r w p row.host row.id

/-- What is known while a job runs: the rows are backed, and so is what was
    stored last. -/
def Accounted (r : Restic) (c : Controller ResticProvider) (q : Stored ResticProvider)
    (w : ResticWorld) : Prop :=
  Backed r c w ∧ ∀ p a id, q = some (p, a, id) → Added r w p a.host id

theorem added_mono (h : w.issued ⊆ w'.issued) (p : ResticProvider) (host : Bytes)
    (id : SnapshotID) (hadded : Added r w p host id) : Added r w' p host id := by
  rcases hadded with ⟨a, cmd, t, ha, hid, hread, ht, hhost, hown⟩
  exact ⟨a, cmd, t, ha, hid, hread, h ht, hhost, hown⟩

theorem backed_mono (c : Controller ResticProvider)
    (hrows : ∀ row ∈ w'.shared.store.snapshots.rows, row ∈ w.shared.store.snapshots.rows)
    (h : w.issued ⊆ w'.issued) (hbacked : Backed r c w) : Backed r c w' := by
  intro row hrow
  rcases hbacked row (hrows row hrow) with ⟨p, hp, hadded⟩
  exact ⟨p, hp, added_mono h p row.host row.id hadded⟩

/-- A step that leaves the rows alone and only adds snapshots. -/
theorem accounted_mono (c : Controller ResticProvider) (q : Stored ResticProvider)
    (hrows : w'.shared.store.snapshots = w.shared.store.snapshots)
    (h : w.issued ⊆ w'.issued) (hq : Accounted r c q w) : Accounted r c q w' := by
  refine ⟨backed_mono c (fun row hrow => hrows ▸ hrow) h hq.1, fun p a id heq => ?_⟩
  exact added_mono h p a.host id (hq.2 p a id heq)

/-- One operation of a job keeps the rows backed. -/
theorem accounted_step (c : Controller ResticProvider) (q q' : Stored ResticProvider)
    (o : Op ResticProvider) (x : Ans o) (hm : c.provenance q o x = some q')
    (h : through resticImpl r.Sem w o x w') (hq : Accounted r c q w) :
    Accounted r c q' w' := by
  have hother : resticImpl o = Prog.op (ResticOp.other o) → o.steady → Accounted r c q' w' := by
    intro himpl hsteady
    rw [Controller.provenance_steady q o hsteady x] at hm
    cases hm
    rcases through_other o x himpl h with ⟨shared, hsem, rfl⟩
    have hissued : w.issued ⊆ { w with shared := shared }.issued := List.Subset.refl _
    refine accounted_mono c q ?_ hissued hq
    refine snapshots_of_shared w.shared shared o x hsem fun ctx snap heq => ?_
    subst heq
    exact hsteady
  cases o with
  | storeArtifact ctx p a =>
      rcases through_storeArtifact ctx p a x h with ⟨hshared, hissued, hadded⟩
      have hrows : w'.shared.store.snapshots = w.shared.store.snapshots := by rw [hshared]
      refine ⟨(accounted_mono c q hrows hissued hq).1, fun p' a' id' heq => ?_⟩
      cases x with
      | error err =>
          cases hm
          cases heq
      | ok id =>
          cases hm
          cases heq
          rcases hadded _ rfl with ⟨cmd, t, hby, hid⟩
          exact ⟨_, cmd, t, rfl, hid, hby⟩
  | verifySnapshot ctx p id =>
      cases hm
      rcases through_verifySnapshot ctx p id x h with ⟨hshared, hissued⟩
      exact accounted_mono c q (by rw [hshared]) hissued hq
  | applyRetention ctx p host policy =>
      cases hm
      rcases through_applyRetention ctx p host policy x h with ⟨hshared, hissued⟩
      exact accounted_mono c q (by rw [hshared]) hissued hq
  | store ctx o =>
      cases o with
      | recordSnapshot snap =>
          -- The row that is added names what was stored last.
          rcases through_other (.store ctx (.recordSnapshot snap)) x rfl h with
            ⟨shared, hsem, rfl⟩
          simp only [Controller.provenance] at hm
          split at hm
          · next hmatches =>
              cases hm
              rcases hmatches with ⟨p, a, rfl, hhost, hp⟩
              have hissued : w.issued ⊆ { w with shared := shared }.issued := List.Subset.refl _
              refine ⟨fun row hrow => ?_, fun _ _ _ heq => by cases heq⟩
              rcases mem_recordSnapshot _ _ snap x hsem.1 row hrow with hold | rfl
              · rcases hq.1 row hold with ⟨p, hp, hadded⟩
                exact ⟨p, hp, added_mono hissued p row.host row.id hadded⟩
              · exact ⟨p, hp, hhost ▸ added_mono hissued p a.host row.id (hq.2 p a row.id rfl)⟩
          · cases hm
      | _ => exact hother rfl trivial
  | _ => exact hother rfl trivial

/-- A sequence of jobs records only what it stored. -/
theorem proven_runJobs {S : Type} (c : Controller S) (jobs : List Job) (q : Stored S) :
    c.Proven q (runJobs c jobs) := by
  refine obeys_forEach c.provenance _ (fun _ => True) jobs q trivial ?_
  intro job _ q _
  refine Controller.proven_bind q _ _ ⟨trivial, fun _ => trivial⟩ fun _ => ?_
  exact obeys_bind c.provenance _ _ q _ _ (Controller.proven_runJob c job q) fun _ _ _ => trivial

/-- After any jobs every row is backed by a snapshot that was added. -/
theorem backed_run (c : Controller ResticProvider) (jobs : List Job)
    (tr : Trace ResticOp ResticAns) (hr : Runs (withRestic (runJobs c jobs)) tr ())
    (hs : Steps r.Sem ResticWorld.initial tr w) : Backed r c w := by
  rcases steps_interp r.Sem resticImpl (runJobs c jobs) tr () _ w hr hs with
    ⟨tr', hr', hs'⟩
  rcases obeys_runs c.provenance _ none _ (proven_runJobs c jobs none) tr' () hr' with ⟨q, hq, _⟩
  have hinitial : Accounted r c none ResticWorld.initial :=
    ⟨fun row hrow => absurd hrow List.not_mem_nil, fun _ _ _ h => by cases h⟩
  exact (watch_invariant c.provenance (through resticImpl r.Sem) (Accounted r c)
    (fun q q' o x w w' hm h hinv => accounted_step c q q' o x hm h hinv) tr' none q _ w hq hs'
    hinitial).1

/-! ### Retentions -/

/-- A retention in a sequence of jobs is that of one of them, on its host's
    repository. -/
def RetentionOf (r : Restic) (c : Controller ResticProvider) (jobs : List Job) : ResticOp → Prop
  | .run args => ∀ cmd, r.read args = some cmd → cmd.name = "forget" → ∃ job ∈ jobs, ∃ p,
      c.storageFor job.host = .ok p ∧
        args = p.fullArgs (ResticProvider.forgetArgs job.host job.policy)
  | .other _ => True

theorem calls_retentionOf (r : Restic) (c : Controller ResticProvider) (jobs : List Job) :
    Calls (RetentionOf r c jobs) (withRestic (runJobs c jobs)) := by
  have hjobs : Calls (fun o => ∃ job ∈ jobs, OwnRetention c job o) (runJobs c jobs) := by
    refine calls_forEach _ _ _ fun job hjob => ?_
    refine calls_bind _ _ _ ⟨⟨job, hjob, trivial⟩, fun _ => trivial⟩ fun _ => ?_
    refine calls_bind _ _ _ ?_ fun _ => trivial
    exact calls_mono _ _ (fun o ho => ⟨job, hjob, ho⟩) _ (calls_ownRetention c job)
  refine calls_interp _ _ _ ?_ _ hjobs
  rintro o ⟨job, hjob, ho⟩
  refine calls_resticImpl _ (fun _ => trivial) (fun p name args hne cmd hread hname => ?_) o
    fun ctx p host policy heq _ => ?_
  · exact absurd ((read_name r p name args cmd hread).symm.trans hname) hne
  · subst heq
    rcases ho with ⟨hp, rfl, rfl⟩
    exact fun _ _ _ => ⟨job, hjob, p, hp, rfl⟩

/-- Every snapshot that is listed for a host was added by a backup of the host's,
    and it is in the repository that backup went to, or the retention of a job
    removed it from there. -/
theorem listed_present (r : Restic) (c : Controller ResticProvider) (jobs : List Job)
    (tr : Trace ResticOp ResticAns) (hr : Runs (withRestic (runJobs c jobs)) tr ())
    (w : ResticWorld) (hs : Steps r.Sem ResticWorld.initial tr w) (host : Bytes)
    (snaps : List Snapshot) (s : Store)
    (hlist : StoreSem w.shared.store (.listSnapshots host) (.ok snaps) s) :
    ∀ snap ∈ snaps, ∃ p a cmd t, c.storageFor host = .ok p ∧ a.host = host ∧ t.id = snap.id ∧
      AddedBy r w p a cmd t ∧
      (t ∈ w.repos cmd.repository ∨
        ∃ job ∈ jobs, RemovedBy r c job ResticWorld.initial tr w cmd.repository t) := by
  intro snap hsnap
  have hrow := List.mem_filter.mp (hlist.2.1.mem_iff.mp hsnap)
  have hhost : snap.host = host := of_decide_eq_true hrow.2
  rcases backed_run c jobs tr hr hs snap hrow.1 with ⟨p, hp, a, cmd, t, ha, hid, hadded⟩
  rw [hhost] at hp ha
  refine ⟨p, a, cmd, t, hp, ha, hid, hadded, ?_⟩
  by_cases hthere : t ∈ w.repos cmd.repository
  · exact Or.inl hthere
  · -- It was added during the run, so a retention removed it.
    rcases gone_of_issued tr hs (cmd.repository, t) List.not_mem_nil hadded.issued hthere with
      ⟨tr₁, args, cmd', x, tr₂, u, u', rfl, h₁, hstep, h₂, hu, hread, hname, hrepo, hremoves⟩
    have hcalls := (calls_iff_runs _ resticAns_nonempty _).mp (calls_retentionOf r c jobs) _ () hr
      ⟨.run args, x⟩ (List.mem_append_right _ List.mem_cons_self)
    rcases hcalls cmd' hread hname with ⟨job, hjob, p', hp', rfl⟩
    exact Or.inr ⟨job, hjob, tr₁, p', cmd', x, tr₂, u, u', hp', hread, hrepo, rfl, h₁, hstep, h₂,
      hu, hremoves, fun hextra => removes_plain p' _ _ cmd' hextra hread _ t hremoves⟩

/-- A controller for one host that keeps one snapshot a day. -/
def siteController : Controller ResticProvider := hostController "web" filesServer backupRepo

/-- Two jobs of the same day. -/
def siteJobs : List Job :=
  [newJob "web" "files" filesServer.retention 1 2, newJob "web" "files" filesServer.retention 3 4]

/-- Where they leave the world. -/
def siteWorld : ResticWorld :=
  (exec (ResticWorld.answer sitePlugin 9) (withRestic (runJobs siteController siteJobs))
    ResticWorld.initial).2

/-- They are a run. -/
theorem siteRun : ∃ tr, Runs (withRestic (runJobs siteController siteJobs)) tr () ∧
    Steps dailyRestic.Sem ResticWorld.initial tr siteWorld :=
  steps_exec_unit _ (ResticWorld.answer sitePlugin 9) (resticSem_answer sitePlugin 9) _ _

/-- What is listed after it. -/
def siteListing : List Snapshot :=
  (Store.answer (.listSnapshots "web") siteWorld.shared.store).1.toOption.getD []

theorem storeSem_listing (s : Store) (host : Bytes) : StoreSem s (.listSnapshots host)
    (.ok ((Store.answer (.listSnapshots host) s).1.toOption.getD [])) s :=
  storeSem_answer (.listSnapshots host) s

theorem siteListing_listed :
    StoreSem siteWorld.shared.store (.listSnapshots "web") (.ok siteListing)
      siteWorld.shared.store := storeSem_listing siteWorld.shared.store "web"

/-- Both snapshots are listed and accounted for. -/
theorem listed_present_site : siteListing.length = 2 ∧ ∃ tr, ∀ snap ∈ siteListing,
    ∃ p a cmd t, siteController.storageFor "web" = .ok p ∧ a.host = ("web" : Bytes) ∧
      t.id = snap.id ∧ AddedBy dailyRestic siteWorld p a cmd t ∧
      (t ∈ siteWorld.repos cmd.repository ∨ ∃ job ∈ siteJobs,
        RemovedBy dailyRestic siteController job ResticWorld.initial tr siteWorld cmd.repository
          t) := by
  refine ⟨by decide +kernel, ?_⟩
  rcases siteRun with ⟨tr, hr, hs⟩
  exact ⟨tr, listed_present dailyRestic siteController siteJobs tr hr siteWorld hs "web" siteListing
    siteWorld.shared.store siteListing_listed⟩

/-- The second job's retention keeps one snapshot of the day, and the first
    one's row is still listed. -/
theorem listed_not_present : ¬ ∀ (c : Controller ResticProvider) (jobs : List Job)
    (tr : Trace ResticOp ResticAns) (w : ResticWorld), Runs (withRestic (runJobs c jobs)) tr () →
    Steps dailyRestic.Sem ResticWorld.initial tr w →
    ∀ host snaps s, StoreSem w.shared.store (.listSnapshots host) (.ok snaps) s →
      ∀ snap ∈ snaps, ∃ p, c.storageFor host = .ok p ∧ InRepository w p.repository snap.id := by
  intro hall
  rcases siteRun with ⟨tr, hr, hs⟩
  have hlisted : ∃ snap ∈ siteListing, snap.id = "e0" := by decide +kernel
  rcases hlisted with ⟨snap, hsnap, hid⟩
  rcases hall siteController siteJobs tr siteWorld hr hs "web" siteListing _ siteListing_listed
    snap hsnap with ⟨p, hp, t, ht, htid⟩
  have hstorage : siteController.storageFor "web" = .ok backupRepo := by rfl
  rw [hstorage] at hp
  cases hp
  have hrepo : (siteWorld.repos backupRepo.repository).map StoredSnapshot.id =
      [("e1" : Bytes)] := by
    decide +kernel
  have hmem : snap.id ∈ (siteWorld.repos backupRepo.repository).map StoredSnapshot.id :=
    htid ▸ List.mem_map_of_mem ht
  rw [hrepo, hid, List.mem_singleton] at hmem
  exact absurd hmem (by decide)

end Bop
