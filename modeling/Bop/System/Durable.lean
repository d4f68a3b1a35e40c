import Bop.Api.WriteScope
import Bop.Effect.Amid
import Bop.System.Reference
import Bop.System.Shutdown

/-!
# What the API Has Said

A client that was told of a job or of a snapshot asks again later. In between
the process may have been restarted, other requests served, jobs run and
commands executed, by this process or by another over the same database, and a
request is served amid all that.

No statement removes a row or changes what identifies a job. So whatever two
answers say of a job agrees apart from its status, and a later answer does not
leave out what an earlier one has named. The database is SQLite, which keeps a
time as it was given. The answer to a request to back up shows the time before
it was stored, and Postgres would keep that to the microsecond only.

## Main definitions

* `Lasts`: What every change keeps of the rows.
* `Meanwhile`: Whatever happens to the store.
* `Response.Shows`, `Response.Lists`: What an answer says.
* `Backs`: The row behind it.
* `filesBackup`, `filesLookup`: Two requests.

## Theorems

* `lasts_meanwhile`: Rows last.
* `meanwhile_of_daemonStep`: So they do while a controller runs.
* `serve_backed`: What is answered is in the store.
* `answers_last`: Later answers agree.
-/

namespace Bop

open Prog Relation

variable {S D Digest : Type} [DecidableEq Digest]

/-! ### Rows -/

/-- A row is still there, and only the status of a job is another. -/
structure Lasts (w w' : Shared) : Prop where
  jobs : ∀ id job, w.store.jobs.find? id = some job →
    ∃ st, w'.store.jobs.find? id = some { job with status := st }
  snapshots : w.store.snapshots.rows ⊆ w'.store.snapshots.rows

theorem lasts_refl (w : Shared) : Lasts w w :=
  ⟨fun _ job h => ⟨job.status, h⟩, List.Subset.refl _⟩

theorem lasts_trans (u v w : Shared) (h₁ : Lasts u v) (h₂ : Lasts v w) : Lasts u w := by
  refine ⟨fun id job h => ?_, List.Subset.trans h₁.snapshots h₂.snapshots⟩
  rcases h₁.jobs id job h with ⟨st, hst⟩
  rcases h₂.jobs id _ hst with ⟨st', hst'⟩
  exact ⟨st', hst'⟩

/-- Where the tables are as they were. -/
theorem lasts_of_eq (w w' : Shared) (hjobs : w'.store.jobs = w.store.jobs)
    (hsnapshots : w'.store.snapshots = w.store.snapshots) : Lasts w w' := by
  refine ⟨fun id job h => ⟨job.status, ?_⟩, ?_⟩
  · rw [hjobs]
    exact h
  · rw [hsnapshots]
    exact List.Subset.refl _

/-- A statement that moves jobs changes their status only. -/
theorem lasts_moved (w w' : Shared) (p : Job → Bool) (st : JobStatus)
    (h : w'.store = w.store.moveJobs p st) : Lasts w w' := by
  refine ⟨fun id job hjob => ?_, by rw [h]; exact List.Subset.refl _⟩
  refine ⟨if p job then st else job.status, ?_⟩
  rw [h, Store.moveJobs, Table.find?_update, hjob, Option.map_some, Store.moveJob]
  split <;> rfl

/-- Whatever a process calls, rows last. -/
theorem lasts_call (w w' : Shared) (o : Op S) (x : Ans o) (h : SharedSem w o x w') :
    Lasts w w' := by
  have hsame : w'.store = w.store → Lasts w w' :=
    fun heq => lasts_of_eq w w' (by rw [heq]) (by rw [heq])
  cases o with
  | store ctx o =>
      rcases effect_of_storeSem _ _ o x h.1 with heq | heffect
      · exact hsame heq
      · cases o with
        | createJob job =>
            refine ⟨fun id row hrow => ⟨row.status, ?_⟩, ?_⟩
            · rw [Table.find?_insert _ _ job (Store.createJob?_jobs _ _ job heffect)]
              have hne : id ≠ job.id := by
                rintro rfl
                have hnone := Store.status_none_of_createJob _ _ job heffect
                rw [Store.status, hrow] at hnone
                cases hnone
              rw [if_neg hne, hrow]
            · rw [createJob?_eq _ _ job heffect]
              exact List.Subset.refl _
        | updateJobStatus id st => exact lasts_moved w w' _ st (Option.some.inj heffect).symm
        | failOrphanedJobs => exact lasts_moved w w' _ .failed (Option.some.inj heffect).symm
        | recordSnapshot snap =>
            refine ⟨fun id row hrow => ⟨row.status, ?_⟩, ?_⟩
            · rw [recordSnapshot?_eq _ _ snap heffect]
              exact hrow
            · rw [StoreOp.effect?, Store.recordSnapshot?, Option.map_eq_some_iff] at heffect
              rcases heffect with ⟨t, ht, heq⟩
              rw [← heq]
              change _ ⊆ t.rows
              rw [Table.insert?_rows _ t snap ht]
              exact List.subset_append_left _ _
        | setPluginSettings host plugin json =>
            refine lasts_of_eq w w' ?_ ?_ <;>
              rw [← Option.some.inj heffect, setPluginSettings_eq]
        | _ => cases heffect
  | publish ctx e =>
      rcases h.1 with heq | heq
      · exact hsame heq
      · exact lasts_of_eq w w' (by rw [heq]; rfl) (by rw [heq]; rfl)
  | enqueue job =>
      cases x with
      | ok u => exact hsame h.1
      | error err => exact hsame (by rw [show w' = w from h])
  | _ => exact hsame (by rw [show w' = w from h])

/-- One thing that happens to the store: a call of a process over it, the pruner,
    or a process that starts or ends, which the store does not see. -/
inductive Happens (S : Type) : Shared → Shared → Prop
  | call (w w' : Shared) (o : Op S) (x : Ans o) (h : SharedSem w o x w') : Happens S w w'
  | prune (w w' : Shared) (cutoff : Time) (h : w'.store = w.store.pruneEvents cutoff) :
      Happens S w w'
  | unseen (w w' : Shared) (h : w'.store = w.store) : Happens S w w'

/-- Whatever happens to the store. -/
def Meanwhile (S : Type) : Shared → Shared → Prop := ReflTransGen (Happens S)

/-- Rows last, whatever happens. -/
theorem lasts_meanwhile (w w' : Shared) (h : Meanwhile S w w') : Lasts w w' := by
  induction h with
  | refl => exact lasts_refl w
  | tail _ hstep ih =>
      refine lasts_trans _ _ _ ih ?_
      cases hstep with
      | call o x hcall => exact lasts_call _ _ o x hcall
      | prune cutoff heq => exact lasts_of_eq _ _ (by rw [heq]; rfl) (by rw [heq]; rfl)
      | unseen heq => exact lasts_of_eq _ _ (by rw [heq]) (by rw [heq])

/-- A step of a controller process is nothing else. -/
theorem meanwhile_of_daemonStep (c : Controller S) (api : Api.Server S D Digest)
    (d d' : Daemon S) (h : DaemonStep uncut c api d d') :
    Meanwhile S d.sys.shared d'.sys.shared := by
  have hcall : ∀ (o : Op S) (x : Ans o) (w : Shared), SharedSem d.sys.shared o x w →
      Meanwhile S d.sys.shared w := fun o x w hw => ReflTransGen.single (.call _ _ o x hw)
  cases h with
  | recover t o k x w hstage h hboot hw => exact hcall o x w hw
  | producerCall t before after o k x w h hproducers hw hclosed => exact hcall o x w hw
  | consumerCall t job o k x w h hconsumer hw hcut => exact hcall o x w hw
  | prune t cutoff hstage h hready => exact ReflTransGen.single (.prune _ _ cutoff rfl)
  | _ => exact ReflTransGen.single (.unseen _ _ rfl)

/-! ### Answers -/

namespace Api

/-- The answer says this of a job. -/
inductive Response.Shows : Response D → JobSummary → Prop
  | one (status : Nat) (job : JobSummary) : Response.Shows ⟨status, .job job⟩ job
  | many (status : Nat) (jobs : List JobSummary) (job : JobSummary) (h : job ∈ jobs) :
      Response.Shows ⟨status, .jobs jobs⟩ job

/-- The answer lists this snapshot. -/
inductive Response.Lists : Response D → Snapshot → Prop
  | mk (status : Nat) (snaps : List Snapshot) (snap : Snapshot) (h : snap ∈ snaps) :
      Response.Lists ⟨status, .snapshots snaps⟩ snap

/-- A job that is stored, as it is or as it was when its status was another. -/
def Backs (w : Shared) (job : JobSummary) : Prop :=
  ∃ row, w.store.jobs.find? job.id = some row ∧
    job = { newJobSummary row with status := job.status }

theorem backs_lasts (w w' : Shared) (h : Lasts w w') (job : JobSummary) (hjob : Backs w job) :
    Backs w' job := by
  rcases hjob with ⟨row, hrow, heq⟩
  rcases h.jobs job.id row hrow with ⟨st, hst⟩
  exact ⟨_, hst, heq⟩

/-- What is stored of a job determines all but its status. -/
theorem backs_unique (w : Shared) (job job' : JobSummary) (h : Backs w job) (h' : Backs w job')
    (hid : job'.id = job.id) : job' = { job with status := job'.status } := by
  rcases h with ⟨row, hrow, heq⟩
  rcases h' with ⟨row', hrow', heq'⟩
  rw [hid, hrow, Option.some.injEq] at hrow'
  subst hrow'
  rw [heq, heq']

/-- A row backs the summary that is made of it. -/
theorem backs_of_mem (w : Shared) (row : Job) (h : row ∈ w.store.jobs.rows) :
    Backs w (newJobSummary row) :=
  ⟨row, (Table.mem_iff_find? w.store.jobs row).mp h, rfl⟩

/-- What an answer says is in the store. -/
structure Backed (resp : Response D) (w : Shared) : Prop where
  jobs : ∀ job, resp.Shows job → Backs w job
  snapshots : ∀ snap, resp.Lists snap → snap ∈ w.store.snapshots.rows ∧ snap.host ≠ []

theorem backed_stable (resp : Response D) : Stable (Meanwhile S) (Backed resp) := by
  intro w w' h hw
  have hlasts := lasts_meanwhile w w' h
  exact ⟨fun job hjob => backs_lasts w w' hlasts job (hw.jobs job hjob),
    fun snap hsnap => (hw.snapshots snap hsnap).imp_left fun hmem => hlasts.snapshots hmem⟩

/-- An answer that says nothing of them. -/
theorem backed_error (w : Shared) (status : Nat) (msg : Bytes) :
    Backed (writeError status msg : Response D) w :=
  ⟨fun _ h => (by cases h), fun _ h => (by cases h)⟩

/-- A statement that only reads, and an answer made of its result. -/
theorem triple_read (o : StoreOp) (k : StoreAns o → Response D)
    (h : ∀ (w : Shared) (x : StoreAns o) (w' : Shared),
      StoreSem w.store o x w'.store → Backed (k x) w') :
    Triple (amid (Meanwhile S) SharedSem) (fun _ => True)
      (store .caller o >>= fun x => (return k x : Proc S (Response D))) Backed := by
  refine triple_bind (fun x => Backed (k x)) _ _ ?_ fun x => triple_ret _ fun _ hw => hw
  refine triple_amid_op _ _ (fun _ _ _ h => h) (fun x => backed_stable (k x)) ?_
  exact fun w x w' _ hs => h w x w' hs.1

theorem jobsResponse_backed (w : Shared) (jobs : Except Bytes (List Job))
    (h : ∀ js, jobs = .ok js → ∀ job ∈ js, job ∈ w.store.jobs.rows) :
    Backed (jobsResponse jobs : Response D) w := by
  cases jobs with
  | error err => exact backed_error w 500 err
  | ok js =>
      refine ⟨fun job hjob => ?_, fun _ h => by cases h⟩
      cases hjob with
      | many _ _ _ hmem =>
          rcases List.mem_map.mp hmem with ⟨row, hrow, rfl⟩
          exact backs_of_mem w row (h js rfl row hrow)

theorem listJobs_backed (req : Request) :
    Triple (amid (Meanwhile S) SharedSem) (fun _ => True) (listJobs req : Proc S (Response D))
      Backed := by
  unfold listJobs
  dsimp only
  split
  · refine triple_read .listJobs jobsResponse fun w x w' hs => jobsResponse_backed w' x ?_
    rintro js rfl job hjob
    rw [hs.1]
    exact hs.2.1.mem_iff.mp hjob
  · split
    · exact triple_ret _ fun w _ => backed_error w _ _
    · next status _ =>
        refine triple_read (.listJobsByStatus status) jobsResponse
          fun w x w' hs => jobsResponse_backed w' x ?_
        rintro js rfl job hjob
        rw [hs.1]
        exact List.mem_of_mem_filter (hs.2.1.mem_iff.mp hjob)

theorem getJob_backed (id : Bytes) :
    Triple (amid (Meanwhile S) SharedSem) (fun _ => True) (getJob id : Proc S (Response D))
      Backed := by
  refine triple_bind (fun x w => ∀ job, x = .ok job → Backs w (newJobSummary job)) _ _ ?_
    fun x => ?_
  · refine triple_amid_op _ _ (fun _ _ _ h => h) (fun x w w' h hw job hjob => ?_) ?_
    · exact backs_lasts w w' (lasts_meanwhile w w' h) _ (hw job hjob)
    · rintro w _ w' _ hs job rfl
      refine backs_of_mem w' job ((Table.mem_iff_find? _ job).mpr ?_)
      rw [hs.1.1, Table.key_of_find? _ id job hs.1.2]
      exact hs.1.2
  · cases x with
    | error err => cases err <;> exact triple_ret _ fun w _ => backed_error w _ _
    | ok job =>
        refine triple_ret _ fun w hw => ⟨fun job' h => ?_, fun _ h => (by cases h)⟩
        cases h
        exact hw job rfl

theorem listSnapshots_backed (req : Request) :
    Triple (amid (Meanwhile S) SharedSem) (fun _ => True)
      (listSnapshots req : Proc S (Response D)) Backed := by
  unfold listSnapshots
  dsimp only
  split
  · exact triple_ret _ fun w _ => backed_error w _ _
  · next hhost =>
    refine triple_bind (fun x w => ∀ snaps, x = .ok snaps →
      ∀ snap ∈ snaps, snap ∈ w.store.snapshots.rows ∧ snap.host ≠ []) _ _ ?_ fun x => ?_
    · refine triple_amid_op _ _ (fun _ _ _ h => h) (fun x w w' h hw snaps hx snap hsnap => ?_) ?_
      · exact (hw snaps hx snap hsnap).imp_left fun hmem => (lasts_meanwhile w w' h).snapshots hmem
      · rintro w _ w' _ hs snaps rfl snap hsnap
        rw [hs.1.1]
        have hmem := List.mem_filter.mp (hs.1.2.1.mem_iff.mp hsnap)
        refine ⟨hmem.1, ?_⟩
        rw [of_decide_eq_true hmem.2]
        exact hhost
    · cases x with
      | error err => exact triple_ret _ fun w _ => backed_error w _ _
      | ok snaps =>
          refine triple_ret _ fun w hw => ⟨fun _ h => (by cases h), fun snap h => ?_⟩
          cases h with
          | mk _ _ _ hmem => exact hw snaps rfl snap hmem

/-- What becomes of a call that only an answer without jobs and snapshots is made of. -/
theorem triple_unsaid {α : Type} (p : Proc S α) (k : α → Proc S (Response D)) (pre : Shared → Prop)
    (hk : ∀ x, Triple (amid (Meanwhile S) SharedSem) (fun _ => True) (k x) Backed) :
    Triple (amid (Meanwhile S) SharedSem) pre (p >>= k) Backed :=
  triple_bind (fun _ _ => True) p k (fun _ _ _ _ _ => trivial) hk

theorem listEvents_backed (req : Request) :
    Triple (amid (Meanwhile S) SharedSem) (fun _ => True) (listEvents req : Proc S (Response D))
      Backed := by
  unfold listEvents
  split
  · exact triple_ret _ fun w _ => backed_error w _ _
  · refine triple_unsaid _ _ _ fun x => ?_
    cases x with
    | error err => exact triple_ret _ fun w _ => backed_error w _ _
    | ok events => exact triple_ret _ fun w _ => ⟨fun _ h => (by cases h), fun _ h => (by cases h)⟩

theorem getPluginConfig_backed (dtos : Bytes → Option (ConfigDTO D)) (host pluginName : Bytes) :
    Triple (amid (Meanwhile S) SharedSem) (fun _ => True)
      (getPluginConfig dtos host pluginName : Proc S (Response D)) Backed := by
  unfold getPluginConfig
  split
  · exact triple_ret _ fun w _ => backed_error w _ _
  · refine triple_unsaid _ _ _ fun x => ?_
    split
    · exact triple_ret _ fun w _ => backed_error w _ _
    · exact triple_ret _ fun w _ => backed_error w _ _
    · split
      · exact triple_ret _ fun w _ => backed_error w _ _
      · exact triple_ret _ fun w _ => ⟨fun _ h => (by cases h), fun _ h => (by cases h)⟩

theorem setPluginConfig_backed (dtos : Bytes → Option (ConfigDTO D)) (host pluginName : Bytes)
    (req : Request) :
    Triple (amid (Meanwhile S) SharedSem) (fun _ => True)
      (setPluginConfig dtos host pluginName req : Proc S (Response D)) Backed := by
  unfold setPluginConfig
  split
  · exact triple_ret _ fun w _ => backed_error w _ _
  · split
    · exact triple_ret _ fun w _ => backed_error w _ _
    · split
      · exact triple_ret _ fun w _ => backed_error w _ _
      · split
        · exact triple_ret _ fun w _ => backed_error w _ _
        · refine triple_unsaid _ _ _ fun x => ?_
          cases x with
          | error err => exact triple_ret _ fun w _ => backed_error w _ _
          | ok u =>
              exact triple_ret _ fun w _ => ⟨fun _ h => (by cases h), fun _ h => (by cases h)⟩

/-- The job of an accepted request was stored before it was announced. -/
theorem triggerBackup_backed (ctl : Controller S) (body : FileContent) :
    Triple (amid (Meanwhile S) SharedSem) (fun _ => True)
      (triggerBackup ctl body : Proc S (Response D)) Backed := by
  unfold triggerBackup
  split
  · exact triple_ret _ fun w _ => backed_error w _ _
  · split
    · exact triple_ret _ fun w _ => backed_error w _ _
    · refine triple_unsaid _ _ _ fun x => ?_
      split
      · exact triple_ret _ fun w _ => backed_error w _ _
      · refine triple_unsaid _ _ _ fun job => ?_
        have hstable : Stable (Meanwhile S) fun w => Backs w (newJobSummary job) :=
          fun w w' h hw => backs_lasts w w' (lasts_meanwhile w w' h) _ hw
        refine triple_bind (fun x w => ∀ u, x = .ok u → Backs w (newJobSummary job)) _ _ ?_
          fun x => ?_
        · refine triple_amid_op _ _ (fun _ _ _ h => h)
            (fun x w w' h hw u hx => hstable w w' h (hw u hx)) ?_
          rintro w _ w' _ hs u rfl
          refine backs_of_mem w' job ((Table.mem_iff_find? _ job).mpr ?_)
          rw [Table.find?_insert _ _ job (Store.createJob?_jobs _ _ job hs.1), if_pos rfl]
        · cases x with
          | error err => exact triple_ret _ fun w _ => backed_error w _ _
          | ok u =>
              -- Announcing and enqueueing it change nothing of that.
              have hkeeps : ∀ {α : Type} (p : Proc S α), Triple (amid (Meanwhile S) SharedSem)
                  (fun w => Backs w (newJobSummary job)) p
                  (fun _ w => Backs w (newJobSummary job)) := by
                intro α p w a w' hw hp
                refine backs_lasts w w' ?_ _ hw
                exact performs_amid Lasts lasts_refl lasts_trans lasts_meanwhile
                  (fun w o x w' => lasts_call w w' o x) p w w' a hp
              refine triple_pre (triple_bind _ _ _ (hkeeps _) fun _ =>
                triple_bind _ _ _ (hkeeps _) fun _ => triple_ret _ fun w hw => ?_)
                fun w hw => hw u rfl
              refine ⟨fun job' h => ?_, fun _ h => (by cases h)⟩
              cases h
              exact hw

/-- What is answered of jobs and snapshots is in the store. -/
theorem serve_backed (s : Server S D Digest) (req : Request) (hroute : (s.route req).isSome) :
    Triple (amid (Meanwhile S) SharedSem) (fun _ => True) (s.serve req) Backed := by
  unfold Server.serve
  cases hmatch : s.route req with
  | none =>
      rw [hmatch] at hroute
      cases hroute
  | some ev =>
      rcases ev with ⟨e, vs⟩
      have hentry := mem_table_of_route s req e vs hmatch
      simp only [authMiddleware]
      split
      · exact triple_ret _ fun w _ => backed_error w _ _
      · split
        · simp only [Server.table, List.mem_cons, List.not_mem_nil, or_false] at hentry
          rcases hentry with rfl | rfl | rfl | rfl | rfl | rfl | rfl | rfl
          · exact triple_ret _ fun w _ => ⟨fun _ h => (by cases h), fun _ h => (by cases h)⟩
          · exact listJobs_backed req
          · exact getJob_backed _
          · exact listSnapshots_backed req
          · exact listEvents_backed req
          · exact triggerBackup_backed s.ctl req.body
          · exact getPluginConfig_backed _ _ _
          · exact setPluginConfig_backed _ _ _ req
        · exact triple_ret _ fun w _ => backed_error w _ _

/-! ### Asking again -/

/-- A request that is answered, unless the store fails. -/
def Response.Answers (resp : Response D) (P : Prop) : Prop := resp.status = 500 ∨ P

/-- A request with a token that grants reading. -/
def Server.Admits (s : Server S D Digest) (req : Request) : Prop :=
  ∃ token, req.bearer = some token ∧ s.sha256 token ∈ s.readHashes

/-- A stored job is found by its identifier. -/
theorem getJob_finds (job : JobSummary) :
    Triple (amid (Meanwhile S) SharedSem) (fun w => Backs w job)
      (getJob job.id : Proc S (Response D))
      (fun resp _ => resp.Answers (∃ job', resp = ⟨200, .job job'⟩ ∧ job'.id = job.id)) := by
  refine triple_bind (fun x _ => x ≠ .error .notFound ∧ ∀ row, x = .ok row → row.id = job.id) _ _
    ?_ fun x => ?_
  · refine triple_amid_op _ _ (fun w w' h => backs_lasts w w' (lasts_meanwhile w w' h) job)
      (fun _ _ _ _ h => h) ?_
    rintro w x w' ⟨row, hrow, _⟩ hs
    constructor
    · rintro rfl
      rw [hs.1.2] at hrow
      cases hrow
    · rintro found rfl
      exact Table.key_of_find? _ job.id found hs.1.2
  · cases x with
    | error err =>
        cases err with
        | notFound => exact triple_ret _ fun _ h => absurd rfl h.1
        | other err => exact triple_ret _ fun _ _ => Or.inl rfl
    | ok row => exact triple_ret _ fun _ h => Or.inr ⟨_, rfl, h.2 row rfl⟩

/-- A stored job is in the list of all. -/
theorem listJobs_finds (req : Request) (hquery : first req.query "status" = []) (job : JobSummary) :
    Triple (amid (Meanwhile S) SharedSem) (fun w => Backs w job)
      (listJobs req : Proc S (Response D))
      (fun resp _ => resp.Answers (∃ job', resp.Shows job' ∧ job'.id = job.id)) := by
  unfold listJobs
  simp only [hquery, if_pos]
  refine triple_bind (fun x _ => ∀ rows, x = .ok rows → ∃ row ∈ rows, row.id = job.id) _ _
    ?_ fun x => ?_
  · refine triple_amid_op _ _ (fun w w' h => backs_lasts w w' (lasts_meanwhile w w' h) job)
      (fun _ _ _ _ h => h) ?_
    rintro w _ w' ⟨row, hrow, _⟩ hs rows rfl
    have hid := Table.key_of_find? _ job.id row hrow
    refine ⟨row, hs.1.2.1.mem_iff.mpr ((Table.mem_iff_find? _ row).mpr ?_), hid⟩
    rw [hid]
    exact hrow
  · cases x with
    | error err => exact triple_ret _ fun _ _ => Or.inl rfl
    | ok rows =>
        refine triple_ret _ fun _ h => ?_
        rcases h rows rfl with ⟨row, hmem, hid⟩
        exact Or.inr ⟨newJobSummary row, .many 200 _ _ (List.mem_map_of_mem hmem), hid⟩

/-- A stored snapshot is in the list of its host. -/
theorem listSnapshots_finds (req : Request) (snap : Snapshot)
    (hquery : first req.query "host" = snap.host) (hhost : snap.host ≠ []) :
    Triple (amid (Meanwhile S) SharedSem) (fun w => snap ∈ w.store.snapshots.rows)
      (listSnapshots req : Proc S (Response D))
      (fun resp _ => resp.Answers (resp.Lists snap)) := by
  unfold listSnapshots
  simp only [hquery, if_neg hhost]
  refine triple_bind (fun x _ => ∀ snaps, x = .ok snaps → snap ∈ snaps) _ _ ?_ fun x => ?_
  · refine triple_amid_op _ _ (fun w w' h hw => (lasts_meanwhile w w' h).snapshots hw)
      (fun _ _ _ _ h => h) ?_
    rintro w _ w' hsnap hs snaps rfl
    refine hs.1.2.1.mem_iff.mpr (List.mem_filter.mpr ⟨hsnap, ?_⟩)
    exact decide_eq_true hquery.symm
  · cases x with
    | error err => exact triple_ret _ fun _ _ => Or.inl rfl
    | ok snaps => exact triple_ret _ fun _ h => Or.inr (.mk 200 snaps snap (h snaps rfl))

section Routes

variable (s : Server S D Digest) (req : Request) (hadmits : s.Admits req)

include hadmits

theorem serve_getJob (id : Bytes) (hroute : (s.route req).isSome) (hmethod : req.method = "GET")
    (hpath : req.path = (["v1", "jobs", id] : List Bytes)) : s.serve req = getJob id := by
  rcases hadmits with ⟨token, hbearer, htoken⟩
  by_cases hid : id = []
  · -- A wildcard does not match an empty segment.
    simp [Server.route, Server.table, Entry.matches, matchMethod, matchPath, hmethod, hpath, hid]
      at hroute
  · have hmatch : s.route req = some (⟨"GET", [.lit "v1", .lit "jobs", .wild], s.readHashes,
        fun _ vs => getJob (vs.getD 0 [])⟩, [id]) := by
      simp [Server.route, Server.table, Entry.matches, matchMethod, matchPath, hmethod, hpath, hid]
    rw [Server.serve, hmatch]
    exact auth_passed _ _ req token hbearer htoken _

theorem serve_listJobs (hmethod : req.method = "GET")
    (hpath : req.path = (["v1", "jobs"] : List Bytes)) :
    s.serve req = listJobs req := by
  rcases hadmits with ⟨token, hbearer, htoken⟩
  have hmatch : s.route req = some (⟨"GET", [.lit "v1", .lit "jobs"], s.readHashes,
      fun req _ => listJobs req⟩, []) := by
    simp only [Server.route, Entry.matches, hmethod, hpath]
    rfl
  rw [Server.serve, hmatch]
  exact auth_passed _ _ req token hbearer htoken _

theorem serve_listSnapshots (hmethod : req.method = "GET")
    (hpath : req.path = (["v1", "snapshots"] : List Bytes)) :
    s.serve req = listSnapshots req := by
  rcases hadmits with ⟨token, hbearer, htoken⟩
  have hmatch : s.route req = some (⟨"GET", [.lit "v1", .lit "snapshots"], s.readHashes,
      fun req _ => listSnapshots req⟩, []) := by
    simp only [Server.route, Entry.matches, hmethod, hpath]
    rfl
  rw [Server.serve, hmatch]
  exact auth_passed _ _ req token hbearer htoken _

end Routes

/-- Two requests, one after the other, each served amid whatever else happens to the
    database, with anything between them. What the second answer says of a job that
    the first one shows is the same apart from the status. A request for that job,
    or for all jobs, finds it, and one for the snapshots of a host finds each that
    was listed, if its token grants reading and no statement fails. -/
theorem answers_last (s s' : Server S D Digest) (req req' : Request)
    (hroute : (s.route req).isSome) (hroute' : (s'.route req').isSome) (w w₁ w₂ w₃ : Shared)
    (resp resp' : Response D)
    (h₁ : Performs (amid (Meanwhile S) SharedSem) (s.serve req) w resp w₁)
    (hbetween : Meanwhile S w₁ w₂)
    (h₂ : Performs (amid (Meanwhile S) SharedSem) (s'.serve req') w₂ resp' w₃) :
    (∀ job job', resp.Shows job → resp'.Shows job' → job'.id = job.id →
      job' = { job with status := job'.status }) ∧
    (s'.Admits req' → req'.method = "GET" →
      (∀ job, resp.Shows job → req'.path = (["v1", "jobs", job.id] : List Bytes) →
        resp'.Answers (∃ st, resp' = ⟨200, .job { job with status := st }⟩)) ∧
      (∀ job, resp.Shows job → req'.path = (["v1", "jobs"] : List Bytes) →
        first req'.query "status" = [] →
        resp'.Answers (∃ st, resp'.Shows { job with status := st })) ∧
      ∀ snap, resp.Lists snap → req'.path = (["v1", "snapshots"] : List Bytes) →
        first req'.query "host" = snap.host → resp'.Answers (resp'.Lists snap)) := by
  have hsaid := serve_backed s req hroute w resp w₁ trivial h₁
  have hsaid' := serve_backed s' req' hroute' w₂ resp' w₃ trivial h₂
  have hlasts := lasts_meanwhile w₁ w₂ hbetween
  have hlasts' : Lasts w₂ w₃ := performs_amid Lasts lasts_refl lasts_trans lasts_meanwhile
    (fun w o x w' => lasts_call w w' o x) _ w₂ w₃ resp' h₂
  have hbacked : ∀ job, resp.Shows job → Backs w₂ job := fun job hjob =>
    backs_lasts w₁ w₂ hlasts job (hsaid.jobs job hjob)
  have hsame : ∀ job job', resp.Shows job → resp'.Shows job' → job'.id = job.id →
      job' = { job with status := job'.status } := fun job job' hjob hjob' hid =>
    backs_unique w₃ job job' (backs_lasts w₂ w₃ hlasts' job (hbacked job hjob))
      (hsaid'.jobs job' hjob') hid
  refine ⟨hsame, fun hadmits hmethod => ⟨fun job hjob hpath => ?_, fun job hjob hpath hquery => ?_,
    fun snap hsnap hpath hquery => ?_⟩⟩
  · rw [serve_getJob s' req' hadmits job.id hroute' hmethod hpath] at h₂
    refine (getJob_finds job w₂ resp' w₃ (hbacked job hjob) h₂).imp_right ?_
    rintro ⟨job', rfl, hid⟩
    exact ⟨job'.status, by rw [← hsame job job' hjob (.one 200 job') hid]⟩
  · rw [serve_listJobs s' req' hadmits hmethod hpath] at h₂
    refine (listJobs_finds req' hquery job w₂ resp' w₃ (hbacked job hjob) h₂).imp_right ?_
    rintro ⟨job', hshows, hid⟩
    exact ⟨job'.status, by rw [← hsame job job' hjob hshows hid]; exact hshows⟩
  · rcases hsaid.snapshots snap hsnap with ⟨hmem, hhost⟩
    rw [serve_listSnapshots s' req' hadmits hmethod hpath] at h₂
    exact listSnapshots_finds req' snap hquery hhost w₂ resp' w₃ (hlasts.snapshots hmem) h₂

/-- A request to back up. -/
def filesBackup : Request where
  method := "POST"
  path := ["v1", "backups"]
  query := []
  header := [("Authorization", "Bearer writer")]
  body := ⟨"\x7b\"host\":\"web\",\"plugin\":\"files\"\x7d", none⟩

/-- A request for a job. -/
def filesLookup (id : Bytes) : Request where
  method := "GET"
  path := ["v1", "jobs", id]
  query := []
  header := [("Authorization", "Bearer reader")]
  body := ⟨[], none⟩

/-- What a request is answered where nothing else happens. -/
def answered (req : Request) (w : Shared) : Response Unit × Shared :=
  exec (Shared.answer idlePlugin 9) (filesApi.serve req) w

theorem performs_answered (req : Request) (w : Shared) :
    Performs (amid (Meanwhile Unit) SharedSem) (filesApi.serve req) w (answered req w).1
      (answered req w).2 := by
  rcases steps_exec SharedSem (Shared.answer idlePlugin 9) (sharedSem_answer idlePlugin 9)
    (filesApi.serve req) w with ⟨tr, hr, hs⟩
  exact performs_amid_of (fun _ => ReflTransGen.refl) _ _ _ _ ⟨tr, hr, hs⟩

/-- The job of that request. -/
def filesTriggered : Job := newJob "web" "files" ⟨1, 0, 0, 0⟩ 9 9

/-- It is accepted, and found when the client asks for it. -/
theorem answers_last_files : ∃ resp resp' w₁ w₃,
    Performs (amid (Meanwhile Unit) SharedSem) (filesApi.serve filesBackup)
      ⟨Store.empty, Memory.new queueCapacity⟩ resp w₁ ∧
    resp = ⟨202, .job (newJobSummary filesTriggered)⟩ ∧
    Performs (amid (Meanwhile Unit) SharedSem) (filesApi.serve (filesLookup filesTriggered.id))
      w₁ resp' w₃ ∧
    resp'.Answers
      (∃ st, resp' = ⟨200, .job { newJobSummary filesTriggered with status := st }⟩) := by
  have h := performs_answered filesBackup ⟨Store.empty, Memory.new queueCapacity⟩
  have h' := performs_answered (filesLookup filesTriggered.id)
    (answered filesBackup ⟨Store.empty, Memory.new queueCapacity⟩).2
  have hresp : (answered filesBackup ⟨Store.empty, Memory.new queueCapacity⟩).1 =
      ⟨202, .job (newJobSummary filesTriggered)⟩ := by rfl
  have hlast := answers_last filesApi filesApi filesBackup (filesLookup filesTriggered.id)
    (by decide) (by decide) _ _ _ _ _ _ h ReflTransGen.refl h'
  refine ⟨_, _, _, _, h, hresp, h', ?_⟩
  exact (hlast.2 ⟨"reader", rfl, by decide⟩ rfl).1 _ (hresp ▸ .one 202 _) rfl

end Api

end Bop
