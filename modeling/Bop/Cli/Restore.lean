import Bop.Controller.Provenance
import Bop.Effect.Interp
import Bop.System.Reference

/-!
# Restoring a Snapshot

`bop restore` has to read from the repository the snapshot was stored in. It
is given an identifier, or a prefix of one, and looks in the metadata for the
host it belongs to: the hosts of the inventory are asked one after the other,
in whatever order the range over the map takes, and each that has a snapshot
with the prefix is a candidate. One candidate decides the repository, several
are refused, and without one the default repository is tried.

The lookup returns the empty name when there is no candidate, and the empty
name may be the name of a host.

## Main definitions

* `RestoreOp`, `RestoreSem`: What the command calls.
* `Cli.findHosts`, `Cli.snapshotHost`, `Cli.restore`: The command.
* `Store.holds`: A host has a snapshot with a prefix.
* `candidateStorage`: The repository that the candidates decide.
* `Recorded`, `ReadsRight`: What is assumed of the rows, and what is asked of
  a run.

## Theorems

* `recorded_of_run`: A job's run keeps every row recorded.
* `runs_findHosts`: What the lookup finds.
* `retrieved_restore`: What the command reads.
* `candidateStorage_perm`: The order does not matter.
* `restore_reads_right_iff`: When the command reads what was written.
-/

namespace Bop

open Prog

variable {S : Type}

/-- The operations of the command: those of any process, and reading a snapshot
    from a repository. -/
inductive RestoreOp (S : Type)
  | process (o : Op S)
  | retrieve (ctx : Ctx) (sp : S) (id : SnapshotID) (a : Artifact)

/-- Their answers. -/
abbrev RestoreAns {S : Type} : RestoreOp S → Type
  | .process o => Ans o
  | .retrieve _ _ _ _ => Except Bytes Unit

/-- A program of the command. -/
abbrev RestoreProc (S α : Type) := Prog (RestoreOp S) RestoreAns α

/-- `Store.ListSnapshots`. -/
abbrev listSnapshots (host : Bytes) : RestoreProc S (Except Bytes (List Snapshot)) :=
  op (RestoreOp.process (.store .caller (.listSnapshots host)))

/-- `StorageProvider.Retrieve`. -/
abbrev retrieve (sp : S) (id : SnapshotID) (a : Artifact) : RestoreProc S (Except Bytes Unit) :=
  op (RestoreOp.retrieve .caller sp id a)

/-- What an operation may answer and leave behind. -/
def RestoreSem (w : Shared) : (o : RestoreOp S) → RestoreAns o → Shared → Prop
  | .process o, x, w' => SharedSem w o x w'
  | .retrieve _ _ _ _, _, w' => w' = w

namespace Cli

/-- The loop of `snapshotHost` over the hosts of the inventory. -/
def findHosts (snapshotID : Bytes) (found : List Bytes) :
    List Bytes → RestoreProc S (Except Bytes (List Bytes))
  | [] => return .ok found
  | host :: rest =>
      check (listSnapshots host) ("restore: " ++ ·) fun snaps =>
      if snaps.any (fun s => snapshotID.isPrefixOf s.id) then
        findHosts snapshotID (found ++ [host]) rest
      else findHosts snapshotID found rest

/-- The error for a prefix that is not unique. -/
def ambiguous (snapshotID : Bytes) (found : List Bytes) : Bytes :=
  "restore: snapshot " ++ quoteGo snapshotID ++ " matches snapshots of several hosts (" ++
    join ", " found ++ ") - use a longer ID or --host"

/-- `snapshotHost`, given the order in which it visits the hosts. It returns
    the empty name if there is no record. -/
def snapshotHost (order : List Bytes) (snapshotID : Bytes) : RestoreProc S (Except Bytes Bytes) :=
  check (findHosts snapshotID [] order) (fun err => err) fun
    | [] => return .ok []
    | [host] => return .ok host
    | found => return .error (ambiguous snapshotID found)

/-- The artifact a snapshot is retrieved to. -/
def restoreTarget (target : Bytes) : Artifact := ⟨[], [], [], target, 0, [], false, 0⟩

/-- The repository that a host decides, and the default one for no host. -/
def restoreStorage (c : Controller S) (host : Bytes) : Except Bytes S :=
  if host ≠ [] then c.storageFor host else .ok c.storage

/-- `newRestoreCmd`, once the application is built. -/
def restore (c : Controller S) (order : List Bytes) (snapshotID target host : Bytes) :
    RestoreProc S (Except Bytes Unit) :=
  if snapshotID = [] ∨ target = [] then return .error "--snapshot and --target are required"
  else
    check (if host = [] then snapshotHost order snapshotID else return .ok host) (fun err => err)
      fun host =>
    check (return restoreStorage c host) ("restore: " ++ ·) fun sp =>
    check (retrieve sp snapshotID (restoreTarget target)) ("restore: " ++ ·) fun _ =>
    return .ok ()

end Cli

/-! ### Rows that were recorded -/

/-- A job's run recorded the row. -/
def Recorded (c : Controller S) (row : Snapshot) : Prop :=
  ∃ job tr r ctx x, Runs (c.runJob job) tr r ∧
    (⟨.store ctx (.recordSnapshot row), x⟩ : Prog.Event (Op S) Ans) ∈ tr

/-- A job's run keeps every row recorded. -/
theorem recorded_of_run (c : Controller S) (job : Job) (tr : Trace (Op S) Ans)
    (r : Except Bytes Unit) (w w' : Shared) (hr : Runs (c.runJob job) tr r)
    (hs : Steps SharedSem w tr w') (hw : ∀ row ∈ w.store.snapshots.rows, Recorded c row) :
    ∀ row ∈ w'.store.snapshots.rows, Recorded c row := by
  intro row hrow
  by_cases hold : row ∈ w.store.snapshots.rows
  · exact hw row hold
  · -- The row is new, so a step of the run added it.
    rcases exists_loss SharedSem (fun v => row ∉ v.store.snapshots.rows) tr w w' hs hold
      (not_not_intro hrow) with ⟨tr₁, o, x, tr₂, u, u', rfl, _, hstep, _, hbefore, hafter⟩
    have hrecords : ∃ ctx, o = .store ctx (.recordSnapshot row) := by
      by_contra hno
      by_cases hrec : ∃ ctx snap, o = .store ctx (.recordSnapshot snap)
      · rcases hrec with ⟨ctx, snap, rfl⟩
        rcases mem_recordSnapshot _ _ snap x hstep.1 row (not_not.mp hafter) with h | rfl
        · exact hbefore h
        · exact hno ⟨ctx, rfl⟩
      · have hsame := snapshots_of_shared u u' o x hstep fun ctx snap heq => hrec ⟨ctx, snap, heq⟩
        rw [hsame] at hafter
        exact hafter hbefore
    rcases hrecords with ⟨ctx, rfl⟩
    exact ⟨job, _, r, ctx, x, hr, List.mem_append_right _ List.mem_cons_self⟩

/-! ### The lookup -/

/-- The host has a snapshot with the prefix. -/
def Store.holds (s : Store) (snapshotID host : Bytes) : Bool :=
  s.snapshots.rows.any fun row => row.host = host ∧ snapshotID.isPrefixOf row.id

theorem holds_iff (s : Store) (snapshotID host : Bytes) :
    s.holds snapshotID host = true ↔
      ∃ row ∈ s.snapshots.rows, row.host = host ∧ snapshotID <+: row.id := by
  simp [Store.holds, List.isPrefixOf_iff_prefix]

/-- The listing of a host tells whether it has a snapshot with the prefix. -/
theorem any_listed (s s' : Store) (snapshotID host : Bytes) (snaps : List Snapshot)
    (h : StoreSem s (.listSnapshots host) (.ok snaps) s') :
    snaps.any (fun row => snapshotID.isPrefixOf row.id) = s.holds snapshotID host := by
  rw [Bool.eq_iff_iff, holds_iff]
  simp only [List.any_eq_true, h.2.1.mem_iff, List.mem_filter, decide_eq_true_eq,
    List.isPrefixOf_iff_prefix, and_assoc]

/-- Every listing of the run succeeded. -/
def AllListed (tr : Trace (RestoreOp S) RestoreAns) : Prop :=
  ∀ host err, (⟨.process (.store .caller (.listSnapshots host)), .error err⟩ :
    Prog.Event (RestoreOp S) RestoreAns) ∉ tr

/-- The run only listed snapshots. -/
def OnlyListed (tr : Trace (RestoreOp S) RestoreAns) : Prop :=
  ∀ e ∈ tr, ∃ host, e.1 = .process (.store .caller (.listSnapshots host))

/-- What the loop finds: the hosts that have a snapshot with the prefix, unless
    a listing fails. -/
theorem runs_findHosts (snapshotID : Bytes) (hosts found : List Bytes)
    (tr : Trace (RestoreOp S) RestoreAns) (r : Except Bytes (List Bytes)) (w w' : Shared)
    (hr : Runs (Cli.findHosts snapshotID found hosts) tr r) (hs : Steps RestoreSem w tr w') :
    w' = w ∧ OnlyListed tr ∧
      (r = .ok (found ++ hosts.filter (w.store.holds snapshotID)) ∨
        (∃ err, r = .error err) ∧ ¬ AllListed tr) := by
  -- Along the hosts. Listing one changes nothing, so the store stays the one at the start.
  induction hosts generalizing found tr with
  | nil =>
      rcases (runs_ret_iff _ _ _).mp hr with ⟨rfl, rfl⟩
      cases hs
      exact ⟨rfl, fun e he => absurd he List.not_mem_nil, Or.inl (by simp)⟩
  | cons host rest ih =>
      rcases (runs_call_iff _ _ _ _).mp hr with ⟨x, tr', rfl, hr'⟩
      cases hs with
      | cons _ u _ _ _ _ hstep hrest =>
          have hsame : u = w :=
            shared_of_readsOnly w u (.store .caller (.listSnapshots host) : Op S) x rfl hstep
          subst hsame
          have honly : ∀ e : Prog.Event (RestoreOp S) RestoreAns,
              e = ⟨.process (.store .caller (.listSnapshots host)), x⟩ →
              ∃ host, e.1 = .process (.store .caller (.listSnapshots host)) := by
            rintro e rfl
            exact ⟨host, rfl⟩
          cases x with
          | error err =>
              rcases (runs_ret_iff _ _ _).mp hr' with ⟨rfl, rfl⟩
              cases hrest
              exact ⟨rfl, fun e he => honly e (List.mem_singleton.mp he),
                Or.inr ⟨⟨_, rfl⟩, fun hall => hall host err List.mem_cons_self⟩⟩
          | ok snaps =>
              have hholds := any_listed _ _ snapshotID host snaps hstep.1
              -- The program goes on with the host added to those found, if it holds the snapshot.
              have hgoes : Runs (Cli.findHosts snapshotID
                  (if u.store.holds snapshotID host then found ++ [host] else found) rest)
                  tr' r := by
                rw [← hholds]
                change Runs (if _ then _ else _) tr' r at hr'
                split at hr'
                · next h => rw [if_pos h]; exact hr'
                · next h => rw [if_neg h]; exact hr'
              rcases ih _ tr' hgoes hrest with ⟨rfl, hlisted, hresult⟩
              refine ⟨rfl, fun e he => ?_, ?_⟩
              · rcases List.mem_cons.mp he with heq | he
                · exact honly e heq
                · exact hlisted e he
              · rcases hresult with rfl | ⟨herr, hfailed⟩
                · left
                  rw [List.filter_cons]
                  split
                  · rw [List.append_assoc]
                    rfl
                  · rfl
                · exact Or.inr ⟨herr, fun hall => hfailed fun h err he =>
                    hall h err (List.mem_cons_of_mem _ he)⟩

/-! ### What is read -/

/-- The repository the candidates decide, if they decide one. -/
def candidateStorage (c : Controller S) : List Bytes → Option S
  | [] => some c.storage
  | [host] => (Cli.restoreStorage c host).toOption
  | _ => none

/-- What the lookup decides. -/
theorem runs_snapshotHost (c : Controller S) (order : List Bytes) (snapshotID : Bytes)
    (tr : Trace (RestoreOp S) RestoreAns) (r : Except Bytes Bytes) (w w' : Shared)
    (hr : Runs (Cli.snapshotHost order snapshotID) tr r) (hs : Steps RestoreSem w tr w') :
    OnlyListed tr ∧
      ((∃ host, r = .ok host ∧ candidateStorage c (order.filter (w.store.holds snapshotID)) =
          (Cli.restoreStorage c host).toOption) ∨
        (candidateStorage c (order.filter (w.store.holds snapshotID)) = none ∨ ¬ AllListed tr) ∧
          ∃ err, r = .error err) := by
  rcases (runs_check_iff _ _ _ _ _).mp hr with
    ⟨tr₁, tr₂, hosts, rfl, hfind, hdecide⟩ | ⟨err, hfind, rfl⟩
  · -- No host and one host are an answer, and two are an error.
    have hdecided : tr₂ = [] ∧
        ((∃ host, r = .ok host ∧ candidateStorage c hosts =
            (Cli.restoreStorage c host).toOption) ∨
          candidateStorage c hosts = none ∧ ∃ err, r = .error err) := by
      cases hosts with
      | nil =>
          rcases (runs_ret_iff _ _ _).mp hdecide with ⟨rfl, rfl⟩
          exact ⟨rfl, Or.inl ⟨[], rfl, rfl⟩⟩
      | cons host rest =>
          cases rest with
          | nil =>
              rcases (runs_ret_iff _ _ _).mp hdecide with ⟨rfl, rfl⟩
              exact ⟨rfl, Or.inl ⟨host, rfl, rfl⟩⟩
          | cons other rest =>
              rcases (runs_ret_iff _ _ _).mp hdecide with ⟨rfl, rfl⟩
              exact ⟨rfl, Or.inr ⟨rfl, _, rfl⟩⟩
    rcases hdecided with ⟨rfl, hdecided⟩
    rw [List.append_nil] at hs ⊢
    rcases runs_findHosts snapshotID order [] tr₁ _ w w' hfind hs with
      ⟨_, honly, hfound | ⟨⟨err, herr⟩, _⟩⟩
    · rw [List.nil_append] at hfound
      rw [← Except.ok.inj hfound]
      exact ⟨honly, hdecided.imp_right fun h => ⟨Or.inl h.1, h.2⟩⟩
    · cases herr
  · rcases runs_findHosts snapshotID order [] tr _ w w' hfind hs with
      ⟨_, honly, hfound | ⟨_, hfailed⟩⟩
    · cases hfound
    · exact ⟨honly, Or.inr ⟨Or.inr hfailed, _, rfl⟩⟩

/-- What the command does: it lists, and it reads from the repository the
    candidates decide, or not at all. -/
theorem runs_restore (c : Controller S) (order : List Bytes) (snapshotID target : Bytes)
    (hid : snapshotID ≠ []) (htarget : target ≠ []) (tr : Trace (RestoreOp S) RestoreAns)
    (r : Except Bytes Unit) (w w' : Shared)
    (hr : Runs (Cli.restore c order snapshotID target []) tr r) (hs : Steps RestoreSem w tr w') :
    (∃ tr₁ sp x, candidateStorage c (order.filter (w.store.holds snapshotID)) = some sp ∧
      tr = tr₁ ++ [⟨.retrieve .caller sp snapshotID (Cli.restoreTarget target), x⟩] ∧
      OnlyListed tr₁) ∨
    ((candidateStorage c (order.filter (w.store.holds snapshotID)) = none ∨ ¬ AllListed tr) ∧
      OnlyListed tr ∧ ∃ err, r = .error err) := by
  -- The arguments are given and no host is, so the hosts are searched.
  have hgiven : ¬ (snapshotID = [] ∨ target = []) := not_or.mpr ⟨hid, htarget⟩
  rw [Cli.restore, if_neg hgiven, if_pos rfl] at hr
  rcases (runs_check_iff _ _ _ _ _).mp hr with
    ⟨tr₁, tr₂, host, rfl, hlookup, hread⟩ | ⟨err, hlookup, rfl⟩
  · rcases (steps_append_iff RestoreSem tr₁ tr₂ w w').mp hs with ⟨u, hs₁, _⟩
    rcases runs_snapshotHost c order snapshotID tr₁ _ w u hlookup hs₁ with
      ⟨honly, ⟨_, hhost, hcandidate⟩ | ⟨_, err, herr⟩⟩
    · cases hhost
      rcases (runs_check_iff _ _ _ _ _).mp hread with
        ⟨tr₂', tr₃, sp, rfl, hchoose, hretrieve⟩ | ⟨err, hchoose, rfl⟩
      · -- The host found has a storage.
        rcases (runs_ret_iff _ _ _).mp hchoose with ⟨rfl, hsp⟩
        rcases (runs_call_iff _ _ _ _).mp hretrieve with ⟨x, tr₄, rfl, hlast⟩
        -- Whatever the retrieval answers, it is the last call.
        have hdone : tr₄ = [] := by
          cases x <;> exact ((runs_ret_iff _ _ _).mp hlast).1
        subst hdone
        refine Or.inl ⟨tr₁, sp, x, ?_, rfl, honly⟩
        rw [hcandidate, ← hsp]
        rfl
      · -- The host found has none.
        rcases (runs_ret_iff _ _ _).mp hchoose with ⟨rfl, hsp⟩
        rw [List.append_nil]
        refine Or.inr ⟨Or.inl ?_, honly, _, rfl⟩
        rw [hcandidate, ← hsp]
        rfl
    · cases herr
  · rcases runs_snapshotHost c order snapshotID tr _ w w' hlookup hs with
      ⟨honly, ⟨_, hhost, _⟩ | ⟨hnone, _⟩⟩
    · cases hhost
    · exact Or.inr ⟨hnone, honly, _, rfl⟩

/-- What a run reads: the repository, the identifier and the target. -/
def retrieved (tr : Trace (RestoreOp S) RestoreAns) : List (S × SnapshotID × Artifact) :=
  tr.filterMap fun e => match e.1 with
    | .retrieve _ sp id a => some (sp, id, a)
    | .process _ => none

theorem retrieved_onlyListed (tr : Trace (RestoreOp S) RestoreAns) (h : OnlyListed tr) :
    retrieved tr = [] := by
  rw [retrieved, List.filterMap_eq_nil_iff]
  intro e he
  rcases h e he with ⟨host, heq⟩
  rw [heq]

/-- The command reads from the repository the candidates decide, if no listing
    fails, and at most from that. -/
theorem retrieved_restore (c : Controller S) (order : List Bytes) (snapshotID target : Bytes)
    (hid : snapshotID ≠ []) (htarget : target ≠ []) (tr : Trace (RestoreOp S) RestoreAns)
    (r : Except Bytes Unit) (w w' : Shared)
    (hr : Runs (Cli.restore c order snapshotID target []) tr r) (hs : Steps RestoreSem w tr w') :
    (∀ call ∈ retrieved tr, call.2 = (snapshotID, Cli.restoreTarget target) ∧
      candidateStorage c (order.filter (w.store.holds snapshotID)) = some call.1) ∧
    (AllListed tr → retrieved tr =
      (candidateStorage c (order.filter (w.store.holds snapshotID))).toList.map
        fun sp => (sp, snapshotID, Cli.restoreTarget target)) := by
  rcases runs_restore c order snapshotID target hid htarget tr r w w' hr hs with
    ⟨tr₁, sp, x, hsp, rfl, honly⟩ | ⟨hnone, honly, _⟩
  · -- The listings before it retrieve nothing.
    have hcalls : retrieved (tr₁ ++
        [⟨.retrieve .caller sp snapshotID (Cli.restoreTarget target), x⟩]) =
        [(sp, snapshotID, Cli.restoreTarget target)] := by
      have hnil := retrieved_onlyListed tr₁ honly
      rw [retrieved] at hnil ⊢
      rw [List.filterMap_append, hnil]
      rfl
    rw [hcalls, hsp]
    refine ⟨fun call hcall => ?_, fun _ => rfl⟩
    rw [List.mem_singleton.mp hcall]
    exact ⟨rfl, rfl⟩
  · rw [retrieved_onlyListed tr honly]
    refine ⟨fun call hcall => absurd hcall List.not_mem_nil, fun hall => ?_⟩
    rcases hnone with hnone | hfailed
    · rw [hnone]
      rfl
    · exact absurd hall hfailed

/-- The order in which the hosts are visited does not matter. -/
theorem candidateStorage_perm (c : Controller S) (hosts hosts' : List Bytes)
    (h : hosts.Perm hosts') : candidateStorage c hosts = candidateStorage c hosts' := by
  cases hosts with
  | nil => rw [List.nil_perm.mp h]
  | cons host rest =>
      cases rest with
      | nil => rw [List.singleton_perm.mp h]
      | cons other rest =>
          -- Several candidates stay several.
          have hlength := h.length_eq
          cases hosts' with
          | nil => cases hlength
          | cons host' rest' =>
              cases rest' with
              | nil => cases hlength
              | cons other' rest' => rfl

/-! ### Reading what was written -/

/-- What is asked of a run that is given a prefix and no host. -/
structure ReadsRight (c : Controller S) (s : Store) (snapshotID target : Bytes)
    (tr : Trace (RestoreOp S) RestoreAns) (r : Except Bytes Unit) : Prop where
  /-- It reads from the repository in which all matching snapshots of the one
      host that has any were stored, or from the default one if there is no
      such host. -/
  right : ∀ call ∈ retrieved tr, call.2 = (snapshotID, Cli.restoreTarget target) ∧
    ((∃ host ∈ c.inventory.servers.keys, s.holds snapshotID host = true ∧
        (∀ other ∈ c.inventory.servers.keys, s.holds snapshotID other = true → other = host) ∧
        c.storageFor host = .ok call.1 ∧
        ∀ row ∈ s.snapshots.rows, row.host = host → snapshotID <+: row.id →
          ∀ job tr r ctx x, Runs (c.runJob job) tr r →
            (⟨.store ctx (.recordSnapshot row), x⟩ : Prog.Event (Op S) Ans) ∈ tr →
            StoredIn tr call.1 row) ∨
      (∀ host ∈ c.inventory.servers.keys, s.holds snapshotID host = false) ∧
        call.1 = c.storage)
  /-- It touches no repository if several hosts match. -/
  refuses : ∀ host ∈ c.inventory.servers.keys, ∀ other ∈ c.inventory.servers.keys,
    host ≠ other → s.holds snapshotID host = true → s.holds snapshotID other = true →
    OnlyListed tr ∧ ∃ err, r = .error err

/-- Where the rows of a host were recorded, the repository of the host is where
    they were stored. -/
theorem storedIn_of_holds (c : Controller S) (host : Bytes) (sp : S)
    (hsp : c.storageFor host = .ok sp) (row : Snapshot) (hhost : row.host = host) (job : Job)
    (tr : Trace (Op S) Ans) (r : Except Bytes Unit) (ctx : Ctx) (x : Except Bytes Unit)
    (hr : Runs (c.runJob job) tr r)
    (hmem : (⟨.store ctx (.recordSnapshot row), x⟩ : Prog.Event (Op S) Ans) ∈ tr) :
    StoredIn tr sp row := by
  rcases Controller.exists_storedIn c job tr r hr ctx row x hmem with ⟨sp', hstored, hsp'⟩
  rw [hhost, hsp] at hsp'
  cases hsp'
  exact hstored

/-- A world in which nothing fails. -/
def RestoreOp.answer (plugin : Plugin) (clock : Time) :
    (o : RestoreOp S) → Shared → RestoreAns o × Shared
  | .process o, w => Shared.answer plugin clock o w
  | .retrieve _ _ _ _, w => (.ok (), w)

/-- What it answers is allowed. -/
theorem restoreSem_answer (plugin : Plugin) (clock : Time) (o : RestoreOp S) (w : Shared) :
    RestoreSem w o (RestoreOp.answer plugin clock o w).1 (RestoreOp.answer plugin clock o w).2 := by
  cases o with
  | process o => exact sharedSem_answer plugin clock o w
  | retrieve => exact rfl

/-- There is a run in which every listing succeeds. -/
theorem exists_allListed {α : Type} (p : RestoreProc S α) (w : Shared) :
    ∃ tr r w', Runs p tr r ∧ Steps RestoreSem w tr w' ∧ AllListed tr := by
  rcases exec_trace RestoreSem (RestoreOp.answer idlePlugin 0) (restoreSem_answer idlePlugin 0) p w
    with ⟨tr, hr, hs, hall⟩
  refine ⟨tr, _, _, hr, hs, fun host err he => ?_⟩
  rcases hall _ he with ⟨w', hw'⟩
  cases hw'

/-- The host under the empty name is the only one that matches, or the default
    repository is its own. -/
def NamelessHarmless (c : Controller S) (s : Store) (snapshotID : Bytes) : Prop :=
  s.holds snapshotID [] = true →
    (∀ host ∈ c.inventory.servers.keys, s.holds snapshotID host = true → host = []) →
    c.storageFor [] = .ok c.storage

section Reading

variable (c : Controller S) (order : List Bytes) (w : Shared) (snapshotID target : Bytes)

/-- The candidates are the hosts of the inventory that match. -/
theorem mem_candidates (horder : order.Perm c.inventory.servers.keys) (host : Bytes) :
    host ∈ order.filter (w.store.holds snapshotID) ↔
      host ∈ c.inventory.servers.keys ∧ w.store.holds snapshotID host = true := by
  rw [List.mem_filter, horder.mem_iff]

/-- The repository a run reads from is the right one. -/
theorem right_of_candidate (horder : order.Perm c.inventory.servers.keys)
    (hharmless : NamelessHarmless c w.store snapshotID) (sp : S)
    (hsp : candidateStorage c (order.filter (w.store.holds snapshotID)) = some sp) :
    (∃ host ∈ c.inventory.servers.keys, w.store.holds snapshotID host = true ∧
      (∀ other ∈ c.inventory.servers.keys, w.store.holds snapshotID other = true → other = host) ∧
      c.storageFor host = .ok sp) ∨
    (∀ host ∈ c.inventory.servers.keys, w.store.holds snapshotID host = false) ∧
      sp = c.storage := by
  have hmem := mem_candidates c order w snapshotID horder
  -- Only how many hosts hold the snapshot matters, and which.
  generalize order.filter (w.store.holds snapshotID) = hosts at hsp hmem
  cases hosts with
  | nil =>
      refine Or.inr ⟨fun host hhost => ?_, (Option.some.inj hsp).symm⟩
      by_contra hmatches
      rw [Bool.not_eq_false] at hmatches
      exact absurd ((hmem host).mpr ⟨hhost, hmatches⟩) List.not_mem_nil
  | cons host rest =>
      cases rest with
      | cons other rest => cases hsp
      | nil =>
          rcases (hmem host).mp List.mem_cons_self with ⟨hhost, hmatches⟩
          have honly : ∀ other ∈ c.inventory.servers.keys,
              w.store.holds snapshotID other = true → other = host :=
            fun other hother h => List.mem_singleton.mp ((hmem other).mpr ⟨hother, h⟩)
          refine Or.inl ⟨host, hhost, hmatches, honly, ?_⟩
          by_cases hnamed : host = []
          · -- The empty name is taken for no name.
            subst hnamed
            rw [hharmless hmatches honly]
            exact congrArg _ (Option.some.inj hsp)
          · rw [candidateStorage, Cli.restoreStorage, if_pos hnamed] at hsp
            cases hfor : c.storageFor host with
            | error err =>
                rw [hfor] at hsp
                cases hsp
            | ok sp' =>
                rw [hfor] at hsp
                cases hsp
                rfl

/-- Several candidates decide nothing. -/
theorem candidateStorage_several (horder : order.Perm c.inventory.servers.keys)
    (host other : Bytes) (hhost : host ∈ c.inventory.servers.keys)
    (hother : other ∈ c.inventory.servers.keys) (hne : host ≠ other)
    (hm : w.store.holds snapshotID host = true) (hm' : w.store.holds snapshotID other = true) :
    candidateStorage c (order.filter (w.store.holds snapshotID)) = none := by
  have h := (mem_candidates c order w snapshotID horder host).mpr ⟨hhost, hm⟩
  have h' := (mem_candidates c order w snapshotID horder other).mpr ⟨hother, hm'⟩
  generalize order.filter (w.store.holds snapshotID) = hosts at h h'
  cases hosts with
  | nil => cases h
  | cons first rest =>
      cases rest with
      | nil => exact absurd ((List.mem_singleton.mp h).trans (List.mem_singleton.mp h').symm) hne
      | cons second rest => rfl

/-- A run reads what was written. -/
theorem readsRight_of_harmless (hid : snapshotID ≠ []) (htarget : target ≠ [])
    (hharmless : NamelessHarmless c w.store snapshotID)
    (horder : order.Perm c.inventory.servers.keys) (tr : Trace (RestoreOp S) RestoreAns)
    (r : Except Bytes Unit) (w' : Shared)
    (hr : Runs (Cli.restore c order snapshotID target []) tr r) (hs : Steps RestoreSem w tr w') :
    ReadsRight c w.store snapshotID target tr r := by
  refine ⟨fun call hcall => ?_, fun host hhost other hother hne hm hm' => ?_⟩
  · rcases (retrieved_restore c order snapshotID target hid htarget tr r w w' hr hs).1 call hcall
      with ⟨hcall, hsp⟩
    refine ⟨hcall, ?_⟩
    rcases right_of_candidate c order w snapshotID horder hharmless call.1 hsp with
      ⟨host, hhost, hmatches, honly, hfor⟩ | hnone
    · exact Or.inl ⟨host, hhost, hmatches, honly, hfor, fun row _ hrow _ job tr r ctx x hjob hmem =>
        storedIn_of_holds c host call.1 hfor row hrow job tr r ctx x hjob hmem⟩
    · exact Or.inr hnone
  · have hnone := candidateStorage_several c order w snapshotID horder host other hhost hother hne
      hm hm'
    rcases runs_restore c order snapshotID target hid htarget tr r w w' hr hs with
      ⟨_, sp, _, hsp, _⟩ | ⟨_, honly, herr⟩
    · rw [hnone] at hsp
      cases hsp
    · exact ⟨honly, herr⟩

/-- A host with a recorded row is in the inventory. -/
theorem mem_keys_of_recorded (row : Snapshot) (h : Recorded c row) :
    row.host ∈ c.inventory.servers.keys := by
  rcases h with ⟨job, tr, r, ctx, x, hr, hmem⟩
  rcases Controller.exists_storedIn c job tr r hr ctx row x hmem with ⟨sp, _, hsp⟩
  rw [Controller.storageFor] at hsp
  split at hsp
  · cases hsp
  · next srv hsrv => exact AList.lookup_isSome.mp (by rw [hsrv]; rfl)

/-- If every run reads what was written, the empty name does no harm. -/
theorem harmless_of_readsRight (hid : snapshotID ≠ []) (htarget : target ≠ [])
    (hrows : ∀ row ∈ w.store.snapshots.rows, Recorded c row)
    (hall : ∀ tr r w', Runs (Cli.restore c c.inventory.servers.keys snapshotID target []) tr r →
      Steps RestoreSem w tr w' → ReadsRight c w.store snapshotID target tr r) :
    NamelessHarmless c w.store snapshotID := by
  intro hmatches honly
  rcases (holds_iff _ _ _).mp hmatches with ⟨row, hrow, hhost, _⟩
  have hkey : ([] : Bytes) ∈ c.inventory.servers.keys :=
    hhost ▸ mem_keys_of_recorded c row (hrows row hrow)
  -- The only candidate is the empty name, so the run reads from the default repository.
  have hcandidates : c.inventory.servers.keys.filter (w.store.holds snapshotID) = [[]] := by
    have hmem := mem_candidates c _ w snapshotID (List.Perm.refl _)
    refine List.perm_singleton.mp ((List.perm_ext_iff_of_nodup
      (c.inventory.servers.keys_nodup.filter _) (List.nodup_singleton _)).mpr fun host => ?_)
    rw [hmem, List.mem_singleton]
    constructor
    · rintro ⟨hhost, hm⟩
      exact honly host hhost hm
    · rintro rfl
      exact ⟨hkey, hmatches⟩
  rcases exists_allListed (Cli.restore c c.inventory.servers.keys snapshotID target []) w with
    ⟨tr, r, w', hr, hs, hlisted⟩
  have hread := (retrieved_restore c _ snapshotID target hid htarget tr r w w' hr hs).2 hlisted
  rw [hcandidates] at hread
  have hcall : (c.storage, snapshotID, Cli.restoreTarget target) ∈ retrieved tr := by
    rw [hread]
    exact List.mem_cons_self
  rcases ((hall tr r w' hr hs).right _ hcall).2 with ⟨host, hhost, hm, _, hfor, _⟩ | ⟨hnone, _⟩
  · rw [← honly host hhost hm]
    exact hfor
  · rw [hnone [] hkey] at hmatches
    cases hmatches

end Reading

/-- The command reads what was written, whatever the order, exactly if the host
    under the empty name is not the only one that matches, or uses the default
    repository. -/
theorem restore_reads_right_iff (c : Controller S) (w : Shared) (snapshotID target : Bytes)
    (hid : snapshotID ≠ []) (htarget : target ≠ [])
    (hrows : ∀ row ∈ w.store.snapshots.rows, Recorded c row) :
    ((∀ order, order.Perm c.inventory.servers.keys → ∀ tr r w',
        Runs (Cli.restore c order snapshotID target []) tr r → Steps RestoreSem w tr w' →
        ReadsRight c w.store snapshotID target tr r) ∧
      ∀ order order', order.Perm c.inventory.servers.keys →
        order'.Perm c.inventory.servers.keys → ∀ tr tr' r r' w₁ w₂,
        Runs (Cli.restore c order snapshotID target []) tr r → Steps RestoreSem w tr w₁ →
        Runs (Cli.restore c order' snapshotID target []) tr' r' → Steps RestoreSem w tr' w₂ →
        AllListed tr → AllListed tr' → retrieved tr = retrieved tr') ↔
      NamelessHarmless c w.store snapshotID := by
  constructor
  · rintro ⟨hall, _⟩
    exact harmless_of_readsRight c w snapshotID target hid htarget hrows
      (hall c.inventory.servers.keys (List.Perm.refl _))
  · intro hharmless
    refine ⟨fun order horder tr r w' hr hs => readsRight_of_harmless c order w snapshotID target hid
      htarget hharmless horder tr r w' hr hs, ?_⟩
    intro order order' horder horder' tr tr' r r' w₁ w₂ hr hs hr' hs' hlisted hlisted'
    rw [(retrieved_restore c order snapshotID target hid htarget tr r w w₁ hr hs).2 hlisted,
      (retrieved_restore c order' snapshotID target hid htarget tr' r' w w₂ hr' hs').2 hlisted',
      candidateStorage_perm c _ _ ((horder.trans horder'.symm).filter _)]

/-! ### Two repositories -/

/-- A host under a name of its own and one under the empty name, which keeps
    its backups offsite. -/
def branchController : Controller Bool where
  inventory := ⟨AList.insert [] { filesServer with storage := "offsite" }
    (AList.singleton ("web" : Bytes) filesServer)⟩
  storage := false
  verification := ⟨false, []⟩
  tempDir := []
  jobTimeout := 0
  factories := ["files"]
  storages := AList.singleton "offsite" true

/-- Repositories that name what they store. -/
def branchAnswer : (o : Op Bool) → Shared → Ans o × Shared
  | .storeArtifact _ sp _, w => (.ok (if sp then "b0ff" else "a11e"), w)
  | .verifySnapshot _ _ _, w => (.ok (), w)
  | .applyRetention _ _ _ _, w => (.ok (), w)
  | o, w => Shared.answer sitePlugin 9 o w

theorem sharedSem_branchAnswer (o : Op Bool) (w : Shared) :
    SharedSem w o (branchAnswer o w).1 (branchAnswer o w).2 := by
  cases o with
  | storeArtifact => exact rfl
  | verifySnapshot => exact rfl
  | applyRetention => exact rfl
  | _ => exact sharedSem_answer sitePlugin 9 _ w

/-- A job for each of the two hosts. -/
def branchJobs : List Job :=
  [newJob "web" "files" filesServer.retention 1 2, newJob [] "files" filesServer.retention 3 4]

/-- The two jobs, before they are run. -/
def branchQueued : Shared :=
  ⟨{ Store.empty with jobs := ⟨branchJobs, by decide⟩ }, Memory.new queueCapacity⟩

/-- What running jobs leaves. -/
def branchRun : List Job → Shared → Shared
  | [], w => w
  | job :: rest, w => branchRun rest (exec branchAnswer (branchController.runJob job) w).2

/-- All rows it leaves were recorded. -/
theorem recorded_branchRun (jobs : List Job) (w : Shared)
    (hw : ∀ row ∈ w.store.snapshots.rows, Recorded branchController row) :
    ∀ row ∈ (branchRun jobs w).store.snapshots.rows, Recorded branchController row := by
  induction jobs generalizing w with
  | nil => exact hw
  | cons job rest ih =>
      rcases steps_exec SharedSem branchAnswer sharedSem_branchAnswer
        (branchController.runJob job) w with ⟨tr, hr, hs⟩
      exact ih _ (recorded_of_run branchController job tr _ w _ hr hs hw)

/-- The store after both. -/
def branchWorld : Shared := branchRun branchJobs branchQueued

theorem recorded_branchWorld :
    ∀ row ∈ branchWorld.store.snapshots.rows, Recorded branchController row :=
  recorded_branchRun branchJobs branchQueued fun _ hrow => absurd hrow List.not_mem_nil

/-- The snapshot of the host with a name is read from the default repository. -/
theorem restore_reads_right_web :
    branchWorld.store.snapshots.rows.map Snapshot.id = [("a11e" : Bytes), "b0ff"] ∧
      ∀ order, order.Perm branchController.inventory.servers.keys → ∀ tr r w',
        Runs (Cli.restore branchController order "a1" "/tmp/site" []) tr r →
        Steps RestoreSem branchWorld tr w' →
        ReadsRight branchController branchWorld.store "a1" "/tmp/site" tr r := by
  have hno : branchWorld.store.holds "a1" [] = false := by decide +kernel
  refine ⟨by decide +kernel, ((restore_reads_right_iff branchController branchWorld "a1" "/tmp/site"
    (by decide) (by decide) recorded_branchWorld).mpr ?_).1⟩
  intro hyes
  rw [hno] at hyes
  cases hyes

/-- The other snapshot is offsite and is looked for in the default
    repository. -/
theorem not_restore_reads_right : ¬ ∀ (c : Controller Bool) (w : Shared)
    (snapshotID target : Bytes), snapshotID ≠ [] → target ≠ [] →
    (∀ row ∈ w.store.snapshots.rows, Recorded c row) →
    ∀ order, order.Perm c.inventory.servers.keys → ∀ tr r w',
      Runs (Cli.restore c order snapshotID target []) tr r → Steps RestoreSem w tr w' →
      ReadsRight c w.store snapshotID target tr r := by
  intro hall
  have hharmless := harmless_of_readsRight branchController branchWorld "b0" "/tmp/site"
    (by decide) (by decide) recorded_branchWorld
    (hall branchController branchWorld "b0" "/tmp/site" (by decide) (by decide)
      recorded_branchWorld _ (List.Perm.refl _))
  have hdefault := hharmless (by decide +kernel) (by decide +kernel)
  revert hdefault
  decide +kernel

end Bop
