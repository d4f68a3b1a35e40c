import Bop.System.AtMostOnce

/-!
# The Controller and the One-Shot Command

`bop backup` creates its job and runs it in its own process, over the store
the controller uses. The two know nothing of each other but the rows. The
controller's startup recovery takes a row in progress for one that a crash
left behind and a queued row for one that nobody will run, and while a command
is between its writes neither is so. A recovery that starts then fails a job
that is being run, or runs a job a second time.

Everything else keeps the two apart. As long as no recovery fails rows in
progress while a live command's job is stored so, and none lists queued rows
while a live command's job is one of them, each process is a frame for the
other and the ledger is kept as it is by a controller on its own.

## Main definitions

* `Command`, `Pair`: The one-shot command, and both over one store.
* `Pair.Step`: One step of either.
* `Pair.Separate`: The two do not disturb each other.
* `Undisturbed`: A step at which no recovery meets a live command's job.
* `Commands`: The claim of a command.

## Theorems

* `backup_obeys`: The command persists its job and runs it once.
* `command_step`: A step of the command is a run of the ledger.
* `not_separate`: A recovery can fail a job that is being run.
* `undisturbed_separate`: Undisturbed runs keep the two apart.
-/

namespace Bop

open Prog Relation

variable {S D Digest : Type} [DecidableEq Digest]

/-- A running `bop backup`. -/
structure Command (S : Type) where
  /-- The job it has created. -/
  job : Option Job
  /-- What is left of it. -/
  rest : Proc S (Except Bytes Unit)

/-- A controller and a command over one store. -/
structure Pair (S : Type) where
  sys : Sys S
  command : Option (Command S)
  /-- The jobs whose pipeline a command has begun. -/
  begun : List Bytes

namespace Pair

/-- Neither process, over a given store. -/
def initial (store : Store) : Pair S := ⟨Sys.initial store, none, []⟩

/-- The stored status of a job. -/
abbrev status (p : Pair S) (id : Bytes) : Option JobStatus := p.sys.status id

/-- The job a command has created after a call. -/
def created : Op S → Option Job → Option Job
  | .store _ (.createJob job), _ => some job
  | _, job => job

/-- One step of either process. `c'` is the command's own controller. The
    command has no queue. -/
inductive Step (c : Controller S) (api : Api.Server S D Digest) (c' : Controller S) :
    Pair S → Pair S → Prop
  /-- The controller process makes a step. -/
  | controller (p : Pair S) (s : Sys S) (h : Bop.Step c api p.sys s) :
      Step c api c' p { p with sys := s }
  /-- A command is started. -/
  | start (p : Pair S) (host plugin : Bytes) (h : p.command = none) :
      Step c api c' p { p with command := some ⟨none, Cli.backup c' host plugin⟩ }
  /-- The command makes a step. -/
  | commandCall (p : Pair S) (job : Option Job) (o : Op S)
      (k : Ans o → Proc S (Except Bytes Unit)) (x : Ans o) (w : Shared)
      (h : p.command = some ⟨job, .call o k⟩)
      (hw : SharedSem ⟨p.sys.shared.store, Memory.new 0⟩ o x w) :
      Step c api c' p
        { sys := { p.sys with shared := { p.sys.shared with store := w.store } }
          command := some ⟨created o job, k x⟩
          begun := if o.beginsPipeline then p.begun ++ (job.map Job.id).toList else p.begun }
  /-- The command ends, whatever it was doing. -/
  | commandEnd (p : Pair S) : Step c api c' p { p with command := none }

/-- A live process is executing the pipeline of the job. -/
def Executing (p : Pair S) (id : Bytes) : Prop :=
  (∃ job o k, p.command = some ⟨some job, .call o k⟩ ∧ job.id = id ∧ id ∈ p.begun) ∨
    (∃ t job o k, p.sys.threads = some t ∧ t.consumer = some (job, .call o k) ∧ job.id = id ∧
      id ∈ p.sys.begun)

/-- The two processes do not disturb each other, in a state and on every step
    `R` allows from it. -/
def Separate (R : Pair S → Pair S → Prop) (p : Pair S) : Prop :=
  (∀ id ∈ p.sys.begun, id ∉ p.begun) ∧
    (∀ p', R p p' → ∀ ctx x, Recovers ⟨.store ctx .failOrphanedJobs, x⟩ p.sys p'.sys →
      ∀ id, p.Executing id → p'.status id = p.status id) ∧
    (∀ p', R p p' → ∀ id st, st.terminal = true → p.status id = some st →
      p'.status id = some st)

/-- A command that is not done has a job stored in this status. -/
def Live (p : Pair S) (st : JobStatus) : Prop :=
  ∃ job o k, p.command = some ⟨some job, .call o k⟩ ∧ p.status job.id = some st

end Pair

/-- The step is not a recovery that fails rows in progress while a live
    command's job is one, nor one that lists queued rows while a live
    command's job is one. -/
def Undisturbed (p p' : Pair S) : Prop :=
  (∀ ctx x, Recovers ⟨.store ctx .failOrphanedJobs, x⟩ p.sys p'.sys →
    p'.sys.shared.store = p.sys.shared.store.failOrphaned → ¬ p.Live .inProgress) ∧
  (∀ ctx jobs, Recovers ⟨.store ctx (.listJobsByStatus .queued), .ok jobs⟩ p.sys p'.sys →
    ¬ p.Live .queued)

/-! ### The command -/

/-- The command: the job it has created and how far it is with it. -/
def backupMonitor : Monitor (Op S) Ans (Option (Bytes × Phase))
  | none, .store _ (.createJob job), x =>
      if job.status = .queued then
        match x with
        | .ok _ => some (some (job.id, .waiting))
        | .error _ => some (some (job.id, .closed))
      else none
  | none, o, _ => if o.leavesJobs ∧ ¬ o.beginsPipeline then some none else none
  | some (id, phase), o, x => (runMonitor id phase o x).map (fun phase' => some (id, phase'))

/-- Once it has created its job, a command is whoever runs it. -/
theorem backup_of_run {α : Type} (id : Bytes) (p : Proc S α) (phase : Phase)
    (post : α → Phase → Prop) (h : Obeys (runMonitor id) phase p post) :
    Obeys backupMonitor (some (id, phase)) p (fun _ _ => True) := by
  induction p generalizing phase with
  | ret a => trivial
  | call o k ih =>
      intro x
      rcases h x with ⟨phase', hm, hk⟩
      refine ⟨some (id, phase'), ?_, ih x phase' hk⟩
      simp only [backupMonitor, hm, Option.map_some]

/-- The command persists its job and runs it once. -/
theorem backup_obeys (c : Controller S) (host plugin : Bytes) :
    Obeys backupMonitor none (Cli.backup c host plugin) (fun _ _ => True) := by
  unfold Cli.backup
  split
  · trivial
  · split
    · trivial
    · next srv hsrv =>
        refine fun unixNano => ⟨none, rfl, fun queuedAt => ⟨none, rfl, ?_⟩⟩
        let job := newJob host plugin srv.retention unixNano queuedAt
        refine obeys_check _ _ _ _ none (fun r q => ∀ u, r = .ok u → q = some (job.id, .waiting))
          _ ?_ ?_ (fun _ _ _ => trivial)
        · intro x
          cases x with
          | error err => exact ⟨some (job.id, .closed), rfl, fun _ h => by cases h⟩
          | ok u => exact ⟨some (job.id, .waiting), rfl, fun _ _ => rfl⟩
        · intro u q hq
          rw [hq u rfl]
          exact obeys_check _ _ _ _ _ (fun _ _ => True) _
            (backup_of_run job.id _ _ _ (c.runJob_obeys job)) (fun _ _ _ => trivial)
            (fun _ _ _ => trivial)

/-- The claim of a command. One that is done has none. -/
inductive Commands : Option (Command S) → Multiset (Bytes × Phase) → Prop
  | idle : Commands none 0
  | ended (job : Option Job) (r : Except Bytes Unit) : Commands (some ⟨job, .ret r⟩) 0
  | starting (p : Proc S (Except Bytes Unit))
      (hp : Obeys backupMonitor none p (fun _ _ => True)) : Commands (some ⟨none, p⟩) 0
  | running (job : Job) (o : Op S) (k : Ans o → Proc S (Except Bytes Unit)) (phase : Phase)
      (hp : Obeys backupMonitor (some (job.id, phase)) (.call o k) (fun _ _ => True)) :
      Commands (some ⟨some job, .call o k⟩) {(job.id, phase)}

/-- A command with something left to do is not closed. -/
theorem running_open (id : Bytes) (o : Op S) (k : Ans o → Proc S (Except Bytes Unit))
    (phase : Phase)
    (hp : Obeys backupMonitor (some (id, phase)) (.call o k) (fun _ _ => True)) :
    phase ≠ .closed := by
  rintro rfl
  rcases ans_nonempty o with ⟨x⟩
  rcases hp x with ⟨q, hm, _⟩
  cases hm

/-- A command that is closed has nothing left to do and claims nothing. -/
theorem commands_closed (job : Option Job) (id : Bytes) (p : Proc S (Except Bytes Unit))
    (hp : Obeys backupMonitor (some (id, .closed)) p (fun _ _ => True)) :
    Commands (some ⟨job, p⟩) 0 := by
  cases p with
  | ret r => exact Commands.ended job r
  | call o k => exact absurd rfl (running_open id o k .closed hp)

/-- The claim of a command that has created its job: it is given up with the
    last call. -/
theorem commands_running (job : Job) (p : Proc S (Except Bytes Unit)) (phase : Phase)
    (hp : Obeys backupMonitor (some (job.id, phase)) p (fun _ _ => True)) :
    ∃ own, Commands (some ⟨some job, p⟩) own ∧ own ≤ {(job.id, phase)} := by
  cases p with
  | ret r => exact ⟨0, Commands.ended _ r, Multiset.zero_le _⟩
  | call o k => exact ⟨_, Commands.running job o k phase hp, le_refl _⟩

/-- The claims around a command's own. -/
theorem claims_own (claims : Multiset (Bytes × Phase)) (id : Bytes) (phase : Phase) :
    claims + {(id, phase)} = (id, phase) ::ₘ claims := by
  rw [Multiset.add_comm, Multiset.singleton_add]

/-- Giving up what a command does not keep. -/
theorem drop_own (status : Bytes → Option JobStatus) (begun : Multiset Bytes)
    (claims own own' : Multiset (Bytes × Phase)) (h : own' ≤ own) :
    Ledger.Step ⟨status, claims + own, begun⟩ ⟨status, claims + own', begun⟩ :=
  Ledger.Step.drop ⟨status, claims + own, begun⟩ _ (Multiset.add_le_add_left h)

section CommandStep

variable (s : Store) (w : Shared) (claims : Multiset (Bytes × Phase)) (begun : Multiset Bytes)

/-- The step of a command that has not created its job yet. -/
theorem starting_step (o : Op S) (k : Ans o → Proc S (Except Bytes Unit))
    (x : Ans o) (hw : SharedSem ⟨s, Memory.new 0⟩ o x w)
    (hp : Obeys backupMonitor none (.call o k) (fun _ _ => True)) :
    o.beginsPipeline = false ∧ ∃ own', Commands (some ⟨Pair.created o none, k x⟩) own' ∧
      ReflTransGen Ledger.Step ⟨s.status, claims, begun⟩
        ⟨w.store.status, claims + own', begun⟩ := by
  rcases hp x with ⟨q, hm, hk⟩
  have hquiet : (if o.leavesJobs ∧ ¬ o.beginsPipeline then some none else none) = some q →
      Pair.created o none = none →
      o.beginsPipeline = false ∧ ∃ own', Commands (some ⟨Pair.created o none, k x⟩) own' ∧
        ReflTransGen Ledger.Step ⟨s.status, claims, begun⟩
          ⟨w.store.status, claims + own', begun⟩ := by
    intro hm hcreated
    split at hm
    · next hq =>
        cases hm
        have hstatus := (quiet_step ⟨s, Memory.new 0⟩ w o x hq.1 hw).1
        rw [hcreated]
        refine ⟨eq_false_of_ne_true hq.2, 0, Commands.starting _ hk, ?_⟩
        rw [hstatus, Multiset.add_zero]
    · cases hm
  cases o with
  | store ctx o =>
      cases o with
      | createJob job =>
          simp only [backupMonitor] at hm
          split at hm
          · next hqueued =>
              refine ⟨rfl, ?_⟩
              rcases status_created _ _ _ _ hw.1 with ⟨hnew, hstatus⟩ | ⟨⟨err, rfl⟩, heq⟩
              · rw [hstatus, hqueued]
                cases x with
                | ok u =>
                    cases hm
                    rcases commands_running job _ _ hk with ⟨own', hc, hle⟩
                    refine ⟨own', hc, (ReflTransGen.single (Ledger.Step.createClaim
                      ⟨s.status, claims, begun⟩ job.id hnew)).tail ?_⟩
                    have hdrop := drop_own (Function.update s.status job.id (some .queued)) begun
                      claims _ _ hle
                    rw [claims_own] at hdrop
                    exact hdrop
                | error err =>
                    -- The row is there and the command believes that it is not.
                    cases hm
                    refine ⟨0, commands_closed _ job.id _ hk, ?_⟩
                    rw [Multiset.add_zero]
                    exact ReflTransGen.single (Ledger.Step.create ⟨s.status, claims, begun⟩
                      job.id hnew)
              · cases hm
                refine ⟨0, commands_closed _ job.id _ hk, ?_⟩
                rw [Multiset.add_zero, heq]
          · cases hm
      | _ => exact hquiet hm rfl
  | _ => exact hquiet hm rfl

/-- The step of a command that runs its job. -/
theorem running_step (job : Job) (phase : Phase) (o : Op S)
    (k : Ans o → Proc S (Except Bytes Unit)) (x : Ans o)
    (hw : SharedSem ⟨s, Memory.new 0⟩ o x w)
    (hp : Obeys backupMonitor (some (job.id, phase)) (.call o k) (fun _ _ => True)) :
    ∃ own', Commands (some ⟨Pair.created o (some job), k x⟩) own' ∧
      ReflTransGen Ledger.Step ⟨s.status, claims + {(job.id, phase)}, begun⟩
        ⟨w.store.status, claims + own', if o.beginsPipeline then job.id ::ₘ begun else begun⟩ := by
  rcases hp x with ⟨q, hm, hk⟩
  rcases Option.map_eq_some_iff.mp hm with ⟨phase', hrun, rfl⟩
  -- A command that runs its job creates no other one.
  have hcreated : Pair.created o (some job) = some job := by
    cases o with
    | store ctx o =>
        cases o with
        | createJob job' => cases phase <;> cases hrun
        | _ => rfl
    | _ => rfl
  rw [hcreated, claims_own]
  rcases runner_step ⟨s, Memory.new 0⟩ w claims begun job.id phase phase' o x hrun hw with
    ⟨_, hsteps⟩
  rcases commands_running job _ _ hk with ⟨own', hc, hle⟩
  have hdrop := drop_own w.store.status
    (if o.beginsPipeline then job.id ::ₘ begun else begun) claims _ _ hle
  rw [claims_own] at hdrop
  exact ⟨own', hc, hsteps.to_reflTransGen.tail hdrop⟩

end CommandStep

/-- A step of the command is a run of the ledger, with the controller's claims
    as the frame. -/
theorem command_step (p : Pair S) (job : Option Job) (o : Op S)
    (k : Ans o → Proc S (Except Bytes Unit)) (x : Ans o) (w : Shared)
    (hw : SharedSem ⟨p.sys.shared.store, Memory.new 0⟩ o x w)
    (claims own : Multiset (Bytes × Phase)) (hc : Commands (some ⟨job, .call o k⟩) own) :
    ∃ own', Commands (some ⟨Pair.created o job, k x⟩) own' ∧
      ReflTransGen Ledger.Step ⟨p.sys.shared.store.status, claims + own, p.sys.begun + p.begun⟩
        ⟨w.store.status, claims + own',
          p.sys.begun + ↑(if o.beginsPipeline then p.begun ++ (job.map Job.id).toList
            else p.begun)⟩ := by
  cases hc with
  | starting _ hp =>
      rcases starting_step p.sys.shared.store w claims (p.sys.begun + p.begun) o k x hw hp with
        ⟨hbegin, own', hc, hsteps⟩
      rw [hbegin, Multiset.add_zero]
      exact ⟨own', hc, hsteps⟩
  | running job _ _ phase hp =>
      rcases running_step p.sys.shared.store w claims (p.sys.begun + p.begun) job phase o k x hw hp
        with ⟨own', hc, hsteps⟩
      refine ⟨own', hc, ?_⟩
      have hbegun := coe_begun o.beginsPipeline p.begun job.id (p.sys.begun : Multiset Bytes)
      rw [Multiset.add_comm, Multiset.add_comm (p.begun : Multiset Bytes)] at hbegun
      rw [Option.map_some, Option.toList_some, hbegun]
      exact hsteps

/-! ### Both -/

/-- The two processes keep a ledger with its invariant. -/
def Pair.Kept (p : Pair S) : Prop :=
  ∃ claims own, Holds p.sys.shared.queue.jobs p.sys.threads claims ∧ Commands p.command own ∧
    (p.sys.ledger (claims + own) p.begun).Inv

theorem pair_initial (store : Store) : (Pair.initial store : Pair S).Kept := by
  rcases kept_initial (S := S) store with ⟨claims, hh, hi⟩
  refine ⟨claims, 0, hh, Commands.idle, ?_⟩
  rw [Multiset.add_zero]
  exact hi

/-- What the claim of a live command says about its row. -/
theorem live_of_claim (p : Pair S) (claims own : Multiset (Bytes × Phase))
    (hc : Commands p.command own) (hi : (p.sys.ledger (claims + own) p.begun).Inv) (id : Bytes)
    (phase : Phase) (hmem : (id, phase) ∈ own) :
    phase ≠ .closed ∧ (phase = .waiting → p.Live .queued) ∧
      (phase = .marked ∨ phase = .running → p.Live .inProgress) := by
  have hheld := hi.held id phase (Multiset.mem_add.mpr (Or.inr hmem))
  generalize hcommand : p.command = command at hc
  cases hc with
  | idle => exact absurd hmem (Multiset.notMem_zero _)
  | ended => exact absurd hmem (Multiset.notMem_zero _)
  | starting => exact absurd hmem (Multiset.notMem_zero _)
  | running job o k _ hp =>
      rw [Multiset.mem_singleton] at hmem
      cases hmem
      refine ⟨running_open job.id o k phase hp, ?_, ?_⟩
      · rintro rfl
        exact ⟨job, o, k, hcommand, hheld⟩
      · rintro (rfl | rfl)
        · exact ⟨job, o, k, hcommand, hheld.1⟩
        · exact ⟨job, o, k, hcommand, hheld⟩

/-- An undisturbed recovery spares the command. -/
theorem spares_of_undisturbed (p p' : Pair S) (hu : Undisturbed p p')
    (claims own : Multiset (Bytes × Phase)) (hc : Commands p.command own)
    (hi : (p.sys.ledger (claims + own) p.begun).Inv) (e : Prog.Event (Op S) Ans)
    (he : Recovers e p.sys p'.sys) : Spares own p.sys.shared p'.sys.shared e := by
  have hlive := live_of_claim p claims own hc hi
  unfold Spares
  split
  · next ctx x =>
      intro heffect id phase hmem
      have hnot := hu.1 ctx x he heffect
      exact ⟨fun h => hnot ((hlive id phase hmem).2.2 (Or.inl h)),
        fun h => hnot ((hlive id phase hmem).2.2 (Or.inr h))⟩
  · next ctx jobs =>
      intro id phase hmem
      exact ⟨fun h => hu.2 ctx jobs he ((hlive id phase hmem).2.1 h), (hlive id phase hmem).1⟩
  · trivial

/-- An undisturbed step keeps the ledger and moves every row along edges. -/
theorem pair_step (c c' : Controller S) (api : Api.Server S D Digest) (p p' : Pair S)
    (h : Pair.Step c api c' p p') (hu : Undisturbed p p') (hp : p.Kept) :
    p'.Kept ∧ ∀ id, ReflTransGen Edge (p.status id) (p'.status id) := by
  rcases hp with ⟨claims, own, hh, hc, hi⟩
  -- Steps of the ledger are all there is to show.
  have hdone : ∀ claims' own', Holds p'.sys.shared.queue.jobs p'.sys.threads claims' →
      Commands p'.command own' →
      ReflTransGen Ledger.Step (p.sys.ledger (claims + own) p.begun)
        (p'.sys.ledger (claims' + own') p'.begun) →
      p'.Kept ∧ ∀ id, ReflTransGen Edge (p.status id) (p'.status id) := by
    intro claims' own' hh' hc' hsteps
    rcases Ledger.steps_inv _ _ hsteps hi with ⟨hi', hedges⟩
    exact ⟨⟨claims', own', hh', hc', hi'⟩, hedges⟩
  cases h with
  | controller s hstep =>
      rcases controller_step c api p.sys s hstep claims own p.begun hh hi
        (spares_of_undisturbed p _ hu claims own hc hi) with ⟨claims', hh', hgen⟩
      exact hdone claims' own hh' hc hgen.to_reflTransGen
  | start host plugin hnone =>
      rw [hnone] at hc
      cases hc
      exact hdone claims 0 hh (Commands.starting _ (backup_obeys c' host plugin))
        ReflTransGen.refl
  | commandCall job o k x w hcommand hw =>
      rw [hcommand] at hc
      rcases command_step p job o k x w hw claims own hc with ⟨own', hc', hsteps⟩
      exact hdone claims own' hh hc' hsteps
  | commandEnd =>
      exact hdone claims 0 hh Commands.idle (ReflTransGen.single
        (drop_own p.sys.shared.store.status (p.sys.begun + p.begun) claims own 0
          (Multiset.zero_le _)))

/-- What a live process executes is stored as in progress, and while the
    controller recovers it executes nothing. -/
theorem executing_inProgress (p : Pair S) (hp : p.Kept) (e : Prog.Event (Op S) Ans) (s' : Sys S)
    (he : Recovers e p.sys s') (id : Bytes) (hex : p.Executing id) : p.Live .inProgress := by
  rcases hp with ⟨claims, own, hh, hc, hi⟩
  rcases hex with ⟨job, o, k, hcommand, rfl, hbegun⟩ | ⟨t, job, o, k, ht, hconsumer, -, -⟩
  · have hbegun' : job.id ∈ (p.sys.begun + p.begun : Multiset Bytes) :=
      Multiset.mem_add.mpr (Or.inr hbegun)
    have hlive := live_of_claim p claims own hc hi
    have hmoved := hi.begunMoved job.id hbegun'
    rw [hcommand] at hc
    cases hc with
    | running _ _ _ phase hp =>
        rcases hlive job.id phase (Multiset.mem_singleton_self _) with ⟨hclosed, _, hactive⟩
        have hheld := hi.held job.id phase (Multiset.mem_add.mpr
          (Or.inr (Multiset.mem_singleton_self _)))
        cases phase with
        | waiting => exact absurd hheld hmoved.2
        | marked => exact hactive (Or.inl rfl)
        | running => exact hactive (Or.inr rfl)
        | closed => exact absurd rfl hclosed
  · rcases he with ⟨t', k', ht', hboot, _⟩
    rw [ht] at hh ht'
    cases ht'
    cases hh with
    | booting => cases hconsumer
    | ready => cases hboot

/-- In every state an undisturbed run reaches, the two processes do not disturb
    each other, and no undisturbed step from it makes them. -/
theorem undisturbed_separate (c c' : Controller S) (api : Api.Server S D Digest) (store : Store)
    (p : Pair S)
    (h : ReflTransGen (fun p p' => Pair.Step c api c' p p' ∧ Undisturbed p p')
      (Pair.initial store) p) :
    p.Separate (fun p p' => Pair.Step c api c' p p' ∧ Undisturbed p p') := by
  have hp : p.Kept := by
    induction h with
    | refl => exact pair_initial store
    | tail _ hstep ih => exact (pair_step c c' api _ _ hstep.1 hstep.2 ih).1
  refine ⟨?_, ?_, ?_⟩
  · intro id hsys hcommand
    rcases hp with ⟨claims, own, _, _, hi⟩
    have hdisjoint := (Multiset.nodup_add.mp hi.begunNodup).2.2
    exact Multiset.disjoint_left.mp hdisjoint hsys hcommand
  · rintro p' ⟨_, hu⟩ ctx x he id hex
    have hlive := executing_inProgress p hp _ _ he id hex
    rcases he with ⟨t, k, ht, hboot, hsem, heq⟩
    have hnot := fun heffect => hu.1 ctx x ⟨t, k, ht, hboot, hsem, heq⟩ heffect hlive
    rcases status_recovered _ _ _ hsem.1 with ⟨heffect, _⟩ | hsame
    · exact absurd heffect hnot
    · rw [Pair.status, Sys.status, hsame]
  · rintro p' ⟨hstep, hu⟩ id st hst hstored
    exact edges_terminal _ _ ((pair_step c c' api p p' hstep hu hp).2 id) st hst hstored

/-- Without a controller there is no recovery. -/
theorem undisturbed_off (p p' : Pair S) (h : p.sys.threads = none) : Undisturbed p p' := by
  constructor <;> rintro ctx x ⟨t, k, ht, -⟩ <;> rw [h] at ht <;> cases ht

/-- Without a command there is nothing to disturb. -/
theorem undisturbed_idle (p p' : Pair S) (h : p.command = none) : Undisturbed p p' := by
  have hlive : ∀ st, ¬ p.Live st := by
    rintro st ⟨job, o, k, hcommand, -⟩
    rw [h] at hcommand
    cases hcommand
  exact ⟨fun _ _ _ _ => hlive _, fun _ _ _ => hlive _⟩

/-- A command is killed before it marks its job, and the controller starts. -/
theorem undisturbed_separate_killed : ∃ p : Pair Unit,
    ReflTransGen (fun p p' => Pair.Step filesController Api.filesApi filesController p p' ∧
      Undisturbed p p') (Pair.initial Store.empty) p ∧
    p.status filesJob.id = some .queued ∧
    p.sys.threads.isSome ∧
    p.Separate (fun p p' => Pair.Step filesController Api.filesApi filesController p p' ∧
      Undisturbed p p') := by
  let job := filesJob
  have hcreate : SharedSem (S := Unit) ⟨Store.empty, Memory.new 0⟩
      (.store .caller (.createJob job)) (.ok ()) ⟨leftQueued, Memory.new 0⟩ := ⟨rfl, rfl⟩
  have hnow : ∀ t : Time, SharedSem (S := Unit) ⟨Store.empty, Memory.new 0⟩ .now t
      ⟨Store.empty, Memory.new 0⟩ := fun _ => rfl
  have hfail : SharedSem (S := Unit) ⟨leftQueued, Memory.new queueCapacity⟩
      (.store .caller .failOrphanedJobs) (.ok 0)
      ⟨leftQueued.failOrphaned, Memory.new queueCapacity⟩ := ⟨⟨rfl, rfl⟩, rfl⟩
  -- The command persists its job and is killed, and then the controller is started.
  have h₁ : ReflTransGen (fun p p' => Pair.Step filesController Api.filesApi filesController p p' ∧
      Undisturbed p p') (Pair.initial Store.empty) _ :=
    .single ⟨Pair.Step.start _ "web" "files" rfl, undisturbed_off _ _ rfl⟩
  have h₂ := h₁.tail ⟨Pair.Step.commandCall _ _ _ _ _ _ rfl (hnow 1), undisturbed_off _ _ rfl⟩
  have h₃ := h₂.tail ⟨Pair.Step.commandCall _ _ _ _ _ _ rfl (hnow 2), undisturbed_off _ _ rfl⟩
  have h₄ := h₃.tail ⟨Pair.Step.commandCall _ _ _ _ _ _ rfl hcreate, undisturbed_off _ _ rfl⟩
  have h₅ := h₄.tail ⟨Pair.Step.commandEnd _, undisturbed_off _ _ rfl⟩
  have h₆ := h₅.tail ⟨Pair.Step.controller _ _ (Bop.Step.boot _ rfl), undisturbed_off _ _ rfl⟩
  have h₇ := h₆.tail ⟨Pair.Step.controller _ _ (Bop.Step.bootCall _ _ _ _ _ _ rfl rfl hfail),
    undisturbed_idle _ _ rfl⟩
  exact ⟨_, h₇, rfl, rfl, undisturbed_separate filesController filesController Api.filesApi
    Store.empty _ h₇⟩

/-- A controller that starts while a command is running its job fails it. -/
theorem not_separate : ¬ ∀ p : Pair Unit,
    ReflTransGen (Pair.Step filesController Api.filesApi filesController)
      (Pair.initial Store.empty) p →
    p.Separate (Pair.Step filesController Api.filesApi filesController) := by
  intro hall
  let job := filesJob
  let queued := leftQueued
  let marked := queued.setStatus job.id .inProgress
  let announced : Event := { Controller.jobEvent .backupStarted job [] [] with timestamp := 3 }
  let none' := Memory.new 0
  have hcreate : SharedSem (S := Unit) ⟨Store.empty, none'⟩ (.store .caller (.createJob job))
      (.ok ()) ⟨queued, none'⟩ := ⟨rfl, rfl⟩
  have hmark : SharedSem (S := Unit) ⟨queued, none'⟩
      (.store .caller (.updateJobStatus job.id .inProgress)) (.ok ()) ⟨marked, none'⟩ :=
    ⟨⟨rfl, rfl⟩, rfl⟩
  have hpublish : SharedSem (S := Unit) ⟨marked, none'⟩ (.publish .caller announced) ()
      ⟨marked, none'⟩ := ⟨Or.inl rfl, rfl⟩
  have hsettings : SharedSem (S := Unit) ⟨marked, none'⟩
      (.store .caller (.getPluginSettings "web" "files")) (.ok none) ⟨marked, none'⟩ :=
    ⟨⟨rfl, rfl⟩, rfl⟩
  have hfail : SharedSem (S := Unit) ⟨marked, Memory.new queueCapacity⟩
      (.store .caller .failOrphanedJobs) (.ok 1)
      ⟨marked.failOrphaned, Memory.new queueCapacity⟩ := ⟨⟨rfl, rfl⟩, rfl⟩
  have hnow : ∀ (s : Store) (t : Time), SharedSem (S := Unit) ⟨s, none'⟩ .now t ⟨s, none'⟩ :=
    fun _ _ => rfl
  have h₁ : ReflTransGen (Pair.Step filesController Api.filesApi filesController)
      (Pair.initial Store.empty) _ := .single (Pair.Step.start _ "web" "files" rfl)
  have h₂ := h₁.tail (Pair.Step.commandCall _ _ _ _ _ _ rfl (hnow _ 1))
  have h₃ := h₂.tail (Pair.Step.commandCall _ _ _ _ _ _ rfl (hnow _ 2))
  have h₄ := h₃.tail (Pair.Step.commandCall _ _ _ _ _ _ rfl hcreate)
  have h₅ := h₄.tail (Pair.Step.commandCall _ _ _ _ _ _ rfl hmark)
  have h₆ := h₅.tail (Pair.Step.commandCall _ _ _ _ _ _ rfl (hnow _ 3))
  have h₇ := h₆.tail (Pair.Step.commandCall _ _ _ _ _ _ rfl hpublish)
  have h₈ := h₇.tail (Pair.Step.commandCall _ _ _ _ _ _ rfl hsettings)
  -- The pipeline has begun. Now the controller starts.
  have h₉ := h₈.tail (Pair.Step.controller _ _ (Bop.Step.boot _ rfl))
  rcases hall _ h₉ with ⟨-, hfails, -⟩
  have hsame := hfails _ (Pair.Step.controller _ _ (Bop.Step.bootCall _ _ _ _ _ _ rfl rfl hfail))
    .caller (.ok 1) ⟨_, _, rfl, rfl, hfail, rfl⟩ job.id
    (Or.inl ⟨job, _, _, rfl, rfl, List.mem_cons_self⟩)
  exact absurd hsame (by decide)

end Bop
