import Bop.Controller.Calls
import Bop.Effect.Monitor

/-!
# Where a Recorded Snapshot Is

A job records a snapshot after it has stored it, and the row names the job's
host and not the repository. Whoever reads the row later asks for the host's
repository again, so it matters that the two are the same.

The monitor here remembers what was stored last and allows one recording, only
if it names that: the identifier the repository gave it, the host it was stored
under, and the repository the host is configured with.

## Main definitions

* `Stored`: What was stored last.
* `Controller.Matches`: A row that names it.
* `Controller.provenance`: The monitor.
* `StoredIn`: The repository a recorded snapshot was stored in.

## Theorems

* `proven_runJob`: A job records what it stored last.
* `exists_storedIn`: Every recorded snapshot was stored.
-/

namespace Bop

open Prog

variable {S : Type}

/-- What was stored last: the repository, the artifact and the identifier it
    was given. -/
abbrev Stored (S : Type) := Option (S × Artifact × SnapshotID)

/-- A call that neither stores nor records. -/
def Op.steady : Op S → Prop
  | .storeArtifact _ _ _ => False
  | .store _ (.recordSnapshot _) => False
  | _ => True

/-- The snapshot was stored in this repository: the row was recorded after it
    was stored there, and nothing was stored in between. -/
def StoredIn (tr : Trace (Op S) Ans) (sp : S) (snap : Snapshot) : Prop :=
  ∃ tr₁ tr₂ tr₃ ctx ctx' a x,
    tr = tr₁ ++ ⟨.storeArtifact ctx sp a, .ok snap.id⟩ ::
      (tr₂ ++ ⟨.store ctx' (.recordSnapshot snap), x⟩ :: tr₃) ∧ ∀ e ∈ tr₂, e.1.steady

namespace Controller

/-- The row names what was stored last, in the repository of its host. -/
def Matches (c : Controller S) (q : Stored S) (snap : Snapshot) : Prop :=
  ∃ sp a, q = some (sp, a, snap.id) ∧ a.host = snap.host ∧ c.storageFor snap.host = .ok sp

open Classical in
/-- Only what was stored last may be recorded, and only once. -/
noncomputable def provenance (c : Controller S) : Monitor (Op S) Ans (Stored S)
  | _, .storeArtifact _ sp a, .ok id => some (some (sp, a, id))
  | _, .storeArtifact _ _ _, .error _ => some none
  | q, .store _ (.recordSnapshot snap), _ => if c.Matches q snap then some none else none
  | q, _, _ => some q

variable {c : Controller S}

theorem provenance_steady (q : Stored S) (o : Op S) (h : o.steady) (x : Ans o) :
    c.provenance q o x = some q := by
  cases o with
  | storeArtifact ctx sp a => exact False.elim h
  | store ctx o =>
      cases o with
      | recordSnapshot snap => exact False.elim h
      | _ => rfl
  | _ => rfl

/-- A program that records only what it stored. -/
abbrev Proven (c : Controller S) {α : Type} (q : Stored S) (p : Proc S α) : Prop :=
  Obeys c.provenance q p (fun _ _ => True)

section Rules

variable {α β : Type}

/-- Steady calls leave the state to whatever comes after them. -/
theorem proven_bind (q : Stored S) (p : Proc S α) (f : α → Proc S β) (hp : Calls Op.steady p)
    (hf : ∀ a, c.Proven q (f a)) : c.Proven q (p >>= f) := by
  refine obeys_bind c.provenance p f q (fun _ q' => q' = q) _ ?_ ?_
  · exact obeys_of_calls c.provenance Op.steady q (fun o ho x => provenance_steady q o ho x) p hp
  · rintro a _ rfl
    exact hf a

theorem proven_check (q : Stored S) (p : Proc S (Except Bytes α)) (wrap : Bytes → Bytes)
    (k : α → Proc S (Except Bytes β)) (hp : Calls Op.steady p) (hk : ∀ a, c.Proven q (k a)) :
    c.Proven q (check p wrap k) := by
  refine proven_bind q p _ hp ?_
  intro r
  cases r with
  | ok a => exact hk a
  | error err => trivial

/-- A program of steady calls. -/
theorem proven_of_calls (q : Stored S) (p : Proc S α) (hp : Calls Op.steady p) :
    c.Proven q p := by
  refine obeys_mono c.provenance p q _ _
    (obeys_of_calls c.provenance Op.steady q (fun o ho x => provenance_steady q o ho x) p hp) ?_
  exact fun _ _ _ => trivial

theorem steady_publish (ctx : Ctx) (e : Event) : Calls Op.steady (publish ctx e : Proc S Unit) :=
  calls_publish trivial (fun _ _ => trivial) ctx e

end Rules

variable (c) (job : Job) (sp : S) (hsp : c.storageFor job.host = .ok sp)

include hsp

/-- One resource is recorded as it was stored. -/
theorem proven_backupResource (ctx : Ctx) (p : Instance) (res : Resource) (v : Verification)
    (q : Stored S) : c.Proven q (backupResource ctx job p sp res v) := by
  refine proven_check q _ _ _ ⟨trivial, fun _ => trivial⟩ fun produced => ?_
  refine obeys_bind c.provenance _ _ q (fun _ _ => True) _ ?_ fun r q' _ => ?_
  · refine proven_check q _ _ _ ⟨trivial, fun _ => trivial⟩ fun _ => ?_
    refine proven_check q _ _ _ ⟨trivial, fun _ => trivial⟩ fun checksum => ?_
    refine proven_bind q _ _ (steady_publish _ _) fun _ => ?_
    refine proven_bind q _ _ (steady_publish _ _) fun _ => ?_
    -- The store call is the one that moves the monitor.
    refine obeys_check c.provenance _ _ _ q
      (fun r q' => ∀ id, r = .ok id → ∃ a : Artifact, a.host = job.host ∧ q' = some (sp, a, id))
      _ ?_ ?_ (fun _ _ _ => trivial)
    · intro stored
      cases stored with
      | error err => exact ⟨none, rfl, fun _ h => by cases h⟩
      | ok id => exact ⟨_, rfl, fun _ h => by cases h; exact ⟨_, rfl, rfl⟩⟩
    · intro id q' hq'
      rcases hq' id rfl with ⟨a, ha, rfl⟩
      refine proven_bind _ _ _ (steady_publish _ _) fun _ => ?_
      refine proven_bind _ _ _ (steady_publish _ _) fun _ => ?_
      refine proven_check _ _ _ _ ⟨trivial, fun _ => trivial⟩ fun _ => ?_
      refine proven_bind _ _ _ (steady_publish _ _) fun _ => ?_
      refine proven_bind _ _ _ ⟨trivial, fun _ => trivial⟩ fun createdAt => ?_
      refine obeys_check c.provenance _ _ _ _ (fun _ _ => True) _ ?_ ?_ (fun _ _ _ => trivial)
      · exact fun _ => ⟨_, if_pos ⟨sp, a, rfl, ha, hsp⟩, trivial⟩
      · intro _ q'' _
        refine proven_of_calls _ _ ?_
        split
        · refine calls_bind _ _ _ (steady_publish _ _) fun _ => ?_
          refine calls_check _ _ _ _ ⟨trivial, fun _ => trivial⟩ fun _ => ?_
          exact calls_bind _ _ _ (steady_publish _ _) fun _ => trivial
        · trivial
  · refine proven_of_calls q' _ (calls_bind _ _ _ ?_ fun _ => trivial)
    unfold cleanupArtifact
    split
    · trivial
    · exact ⟨trivial, fun _ => trivial⟩

theorem proven_backupResources (ctx : Ctx) (p : Instance) (v : Verification)
    (resources : List Resource) (q : Stored S) :
    c.Proven q (backupResources ctx job p sp v resources) := by
  induction resources generalizing q with
  | nil => trivial
  | cons res rest ih =>
      refine obeys_bind c.provenance _ _ q _ _
        (proven_backupResource c job sp hsp ctx p res v q) fun r q' _ => ?_
      refine obeys_bind c.provenance _ _ q' _ _ (ih q') fun errs q'' _ => ?_
      cases r <;> trivial

theorem proven_runPipeline (ctx : Ctx) (srv : Server) (q : Stored S) :
    c.Proven q (runPipeline c ctx job srv sp) := by
  refine proven_check q _ _ _ ?_ fun cfg => ?_
  · exact calls_check _ _ _ _ ⟨trivial, fun _ => trivial⟩ fun _ => trivial
  refine proven_check q _ _ _ ⟨trivial, fun _ => trivial⟩ fun _ => ?_
  refine proven_bind q _ _ (steady_publish _ _) fun _ => ?_
  refine proven_check q _ _ _ ⟨trivial, fun _ => trivial⟩ fun resources => ?_
  refine proven_bind q _ _ (steady_publish _ _) fun _ => ?_
  refine obeys_bind c.provenance _ _ q _ _
    (proven_backupResources c job sp hsp ctx _ _ resources q) fun errs q' _ => ?_
  refine proven_of_calls q' _ (calls_bind _ _ _ ⟨trivial, fun _ => trivial⟩ fun r => ?_)
  cases r with
  | error err => trivial
  | ok u => exact calls_bind _ _ _ (steady_publish _ _) fun _ => trivial

omit hsp

/-- A job records what it stored last. -/
theorem proven_runJob (q : Stored S) : c.Proven q (c.runJob job) := by
  unfold runJob
  split
  · trivial
  · next srv hsrv =>
      split
      · trivial
      · split
        · trivial
        · next sp hsp =>
            refine proven_check q _ _ _ ⟨trivial, fun _ => trivial⟩ fun _ => ?_
            refine proven_bind q _ _ (steady_publish _ _) fun _ => ?_
            refine obeys_bind c.provenance _ _ q _ _
              (proven_runPipeline c job sp hsp _ srv q) fun err q' _ => ?_
            refine proven_of_calls q' _ (calls_bind _ _ _ (steady_publish _ _) fun _ => ?_)
            exact ⟨trivial, fun _ => trivial⟩

omit job in
/-- The monitor remembers what was stored last. -/
theorem last_store (tr : Trace (Op S) Ans) (sp : S) (a : Artifact) (id : SnapshotID)
    (h : watch c.provenance none tr = some (some (sp, a, id))) :
    ∃ tr₁ ctx tr₂, tr = tr₁ ++ ⟨.storeArtifact ctx sp a, .ok id⟩ :: tr₂ ∧
      ∀ e ∈ tr₂, e.1.steady := by
  induction tr using List.reverseRecOn with
  | nil => cases h
  | append_singleton tr e ih =>
      rw [watch_append, Option.bind_eq_some_iff] at h
      rcases h with ⟨q, hq, hlast⟩
      rcases e with ⟨o, x⟩
      by_cases ho : o.steady
      · -- The last call left the state alone.
        simp only [watch, provenance_steady q o ho x, Option.some.injEq] at hlast
        rw [hlast] at hq
        rcases ih hq with ⟨tr₁, ctx, tr₂, rfl, hsteady⟩
        refine ⟨tr₁, ctx, tr₂ ++ [⟨o, x⟩], by simp, fun e he => ?_⟩
        rcases List.mem_append.mp he with he | he
        · exact hsteady e he
        · rw [List.mem_singleton.mp he]
          exact ho
      · cases o with
        | storeArtifact ctx sp' a' =>
            cases x with
            | error err => cases hlast
            | ok id' =>
                cases hlast
                exact ⟨tr, ctx, [], rfl, fun e he => absurd he List.not_mem_nil⟩
        | store ctx o =>
            cases o with
            | recordSnapshot snap =>
                -- A recording forgets what was stored.
                by_cases hmatches : c.Matches q snap
                · simp only [watch, provenance, if_pos hmatches] at hlast
                  cases hlast
                · simp only [watch, provenance, if_neg hmatches] at hlast
                  cases hlast
            | _ => exact absurd trivial ho
        | _ => exact absurd trivial ho

/-- What the monitor knew when a job recorded a snapshot. -/
theorem matches_of_record (tr₁ tr₂ : Trace (Op S) Ans) (r : Except Bytes Unit) (ctx : Ctx)
    (snap : Snapshot) (x : Except Bytes Unit)
    (hr : Runs (c.runJob job) (tr₁ ++ ⟨.store ctx (.recordSnapshot snap), x⟩ :: tr₂) r) :
    ∃ q, watch c.provenance none tr₁ = some q ∧ c.Matches q snap := by
  rcases obeys_runs c.provenance _ none _ (proven_runJob c job none) _ r hr with ⟨q', hq', _⟩
  rw [watch_append, Option.bind_eq_some_iff] at hq'
  rcases hq' with ⟨q, hq, hrest⟩
  refine ⟨q, hq, ?_⟩
  by_contra hnot
  simp only [watch, provenance, if_neg hnot] at hrest
  cases hrest

/-- Every snapshot a job records was stored, in the repository of its host. -/
theorem exists_storedIn (tr : Trace (Op S) Ans) (r : Except Bytes Unit)
    (hr : Runs (c.runJob job) tr r) (ctx : Ctx) (snap : Snapshot) (x : Except Bytes Unit)
    (hmem : (⟨.store ctx (.recordSnapshot snap), x⟩ : Prog.Event (Op S) Ans) ∈ tr) :
    ∃ sp, StoredIn tr sp snap ∧ c.storageFor snap.host = .ok sp := by
  rcases List.append_of_mem hmem with ⟨tr₁, tr₂, rfl⟩
  rcases matches_of_record c job tr₁ tr₂ r ctx snap x hr with ⟨_, hq, sp, a, rfl, _, hsp⟩
  rcases last_store c tr₁ sp a snap.id hq with ⟨tr₀, ctx', mid, rfl, hsteady⟩
  exact ⟨sp, ⟨tr₀, mid, tr₂, ctx', ctx, a, x, by simp, hsteady⟩, hsp⟩

end Controller

end Bop
