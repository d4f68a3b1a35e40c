import Bop.Events
import Bop.Inventory
import Bop.Text.Utf8

/-!
# Metrics

The subscriber that counts. It increments counters by the events it is given,
remembers when each job was started, and observes how long the job took when it
ends. A counter of a vector is found by its label values, and finding it panics
if one of them is not accepted, which for Prometheus means that it is not valid
UTF-8. Whatever the subscriber did before a panic stays done.

The metrics vectors are a port. A counter vector is the value of each of its
counters. A histogram vector is the observations made with it, each with the
label values it was made under, and the durations are in nanoseconds. One call
of `Publish` is one step here: what a scrape may see in the middle of one is not
modelled.

What the metrics should show is said of the events alone: which jobs are
running, and how many ended under which labels.

## Main definitions

* `Publisher`: The metrics, and when the running jobs were started.
* `publish`: What one event does.
* `shown`: The metrics after some events.
* `InFlight`: A job was started and has not ended.
* `endedAs`, `Paired`: How a job ended, and that it was running until then.

## Theorems

* `shown_jobsTotal`: What is counted.
* `mem_jobStarts_iff`: Which jobs are remembered.
* `shown_observed`: What is observed.
-/

namespace Bop

namespace Metrics

/-- The label values of one metric of a vector. -/
abbrev Labels := List Bytes

/-- A `prometheus.CounterVec`. -/
abbrev CounterVec := Labels → Nat

/-- `Inc` on the counter with these label values. -/
def CounterVec.inc (vec : CounterVec) (labels : Labels) : CounterVec :=
  Function.update vec labels (vec labels + 1)

/-- A `prometheus.HistogramVec`. -/
abbrev HistogramVec := List (Labels × Int)

/-- `metrics.Publisher`. -/
structure Publisher where
  jobsTotal : CounterVec
  jobDuration : HistogramVec
  artifactsCreatedTotal : CounterVec
  retentionAppliedTotal : CounterVec
  restoreVerifiedTotal : CounterVec
  /-- When each job was started, by its identifier. -/
  jobStarts : GoMap Time

/-- `metrics.New`. -/
def new : Publisher where
  jobsTotal := fun _ => 0
  jobDuration := []
  artifactsCreatedTotal := fun _ => 0
  retentionAppliedTotal := fun _ => 0
  restoreVerifiedTotal := fun _ => 0
  jobStarts := ∅

/-- A call that may panic. -/
abbrev Call (α : Type) := OptionT (StateM Publisher) α

/-- `WithLabelValues`, which panics unless every label value is accepted. -/
def withLabelValues (accepts : Bytes → Bool) (labels : Labels) : Call Labels :=
  if labels.all accepts then return labels else failure

/-- `Publisher.Publish`. -/
def publish (accepts : Bytes → Bool) (e : Event) : Call Unit :=
  match e.type with
  | .backupStarted =>
      modify fun p => { p with jobStarts := p.jobStarts.insert e.jobID e.timestamp }
  | .backupCompleted | .backupFailed => do
      let status : Bytes := if e.type = .backupFailed then "failed" else "completed"
      let total ← withLabelValues accepts [e.host, e.plugin, status]
      modify fun p => { p with jobsTotal := p.jobsTotal.inc total }
      let start := (← get).jobStarts.lookup e.jobID
      modify fun p => { p with jobStarts := p.jobStarts.erase e.jobID }
      match start with
      | none => return ()
      | some start =>
          let duration ← withLabelValues accepts [e.host, e.plugin]
          modify fun p => { p with
            jobDuration := p.jobDuration ++ [(duration, e.timestamp - start)] }
  | .artifactCreated => do
      let created ← withLabelValues accepts [e.host, e.plugin]
      modify fun p => { p with artifactsCreatedTotal := p.artifactsCreatedTotal.inc created }
  | .retentionApplied => do
      let applied ← withLabelValues accepts [e.host]
      modify fun p => { p with retentionAppliedTotal := p.retentionAppliedTotal.inc applied }
  | .restoreVerificationCompleted => do
      let verified ← withLabelValues accepts [e.host, e.plugin]
      modify fun p => { p with restoreVerifiedTotal := p.restoreVerifiedTotal.inc verified }
  | _ => return ()

/-- Whether publishing panics, and what it leaves. -/
def Publisher.given (accepts : Bytes → Bool) (p : Publisher) (e : Event) : Bool × Publisher :=
  let r := StateT.run (OptionT.run (publish accepts e)) p
  (r.1.isNone, r.2)

/-- The metrics after some events. -/
def shown (accepts : Bytes → Bool) (events : List Event) : Publisher :=
  events.foldl (fun p e => (p.given accepts e).2) new

/-! ### What the events say -/

/-- The job was started and has not ended since. -/
def InFlight (events : List Event) (id : Bytes) : Prop :=
  ∃ before start after, events = before ++ start :: after ∧ start.type = .backupStarted ∧
    start.jobID = id ∧ ∀ e ∈ after, e.jobID = id → e.type.outcome = none

/-- The event says that a job ended in some status, under these names. -/
def endedAs (host plugin status : Bytes) (e : Event) : Bool :=
  e.type.outcome.any (fun st => st.text = status) && e.host = host && e.plugin = plugin

/-- The event says that a job ended. -/
def ended (e : Event) : Bool := e.type.outcome.isSome

/-- The label values of the event are accepted. -/
def Labelled (accepts : Bytes → Bool) (e : Event) : Prop :=
  accepts e.host = true ∧ accepts e.plugin = true

/-- Every job that ended was running until then. -/
def Paired (events : List Event) : Prop :=
  ∀ before e after, events = before ++ e :: after → ended e = true → InFlight before e.jobID

/-! ### What one event does -/

/-- Observing how long a job took, if its start is known. -/
def observeSince (accepts : Bytes → Bool) (e : Event) : Option Time → Call Unit
  | none => return ()
  | some start => do
      let duration ← withLabelValues accepts [e.host, e.plugin]
      modify fun p => { p with
        jobDuration := p.jobDuration ++ [(duration, e.timestamp - start)] }

/-- The end of a job, under its status. -/
def publishEnd (accepts : Bytes → Bool) (e : Event) (status : Bytes) : Call Unit := do
  let total ← withLabelValues accepts [e.host, e.plugin, status]
  modify fun p => { p with jobsTotal := p.jobsTotal.inc total }
  let start := (← get).jobStarts.lookup e.jobID
  modify fun p => { p with jobStarts := p.jobStarts.erase e.jobID }
  observeSince accepts e start

/-- What a job's end changes, where its labels are accepted. -/
def Publisher.finish (p : Publisher) (e : Event) (st : JobStatus) : Publisher :=
  { p with
    jobsTotal := p.jobsTotal.inc [e.host, e.plugin, st.text]
    jobDuration := match p.jobStarts.lookup e.jobID with
      | none => p.jobDuration
      | some start => p.jobDuration ++ [([e.host, e.plugin], e.timestamp - start)]
    jobStarts := p.jobStarts.erase e.jobID }

/-- What ends a job is published as its end. -/
theorem publish_of_ended (accepts : Bytes → Bool) (e : Event) (st : JobStatus)
    (h : e.type.outcome = some st) : publish accepts e = publishEnd accepts e st.text := by
  cases htype : e.type <;> rw [htype] at h <;> cases h <;> simp only [publish, htype] <;> rfl

/-- Accepted label values find their metric. -/
theorem withLabelValues_of_accepted (accepts : Bytes → Bool) (labels : Labels)
    (h : labels.all accepts = true) : withLabelValues accepts labels = pure labels := by
  rw [withLabelValues, if_pos h]

/-- Others panic. -/
theorem withLabelValues_of_refused (accepts : Bytes → Bool) (labels : Labels)
    (h : ¬ labels.all accepts = true) : withLabelValues accepts labels = failure := by
  rw [withLabelValues, if_neg h]

theorem given_ended (accepts : Bytes → Bool) (hwords : ∀ st : JobStatus, accepts st.text = true)
    (p : Publisher) (e : Event) (st : JobStatus) (h : e.type.outcome = some st)
    (hlabels : Labelled accepts e) :
    p.given accepts e = (false, p.finish e st) := by
  have htotal : [e.host, e.plugin, st.text].all accepts = true := by
    simp only [List.all_cons, List.all_nil, hlabels.1, hlabels.2, hwords, Bool.and_self]
  have hduration : [e.host, e.plugin].all accepts = true := by
    simp only [List.all_cons, List.all_nil, hlabels.1, hlabels.2, Bool.and_self]
  let counted : Publisher := { p with
    jobsTotal := p.jobsTotal.inc [e.host, e.plugin, st.text]
    jobStarts := p.jobStarts.erase e.jobID }
  have hrun : StateT.run (OptionT.run (publishEnd accepts e st.text)) p =
      StateT.run (OptionT.run (observeSince accepts e (p.jobStarts.lookup e.jobID))) counted := by
    rw [publishEnd, withLabelValues_of_accepted _ _ htotal]
    rfl
  rw [Publisher.given, publish_of_ended accepts e st h, hrun, Publisher.finish]
  cases p.jobStarts.lookup e.jobID with
  | none => rfl
  | some start =>
      rw [observeSince, withLabelValues_of_accepted _ _ hduration]
      rfl

theorem given_refused (accepts : Bytes → Bool)
    (p : Publisher) (e : Event) (st : JobStatus) (h : e.type.outcome = some st)
    (hlabels : ¬ Labelled accepts e) :
    p.given accepts e = (true, p) := by
  have htotal : ¬ [e.host, e.plugin, st.text].all accepts = true := by
    simp only [List.all_cons, List.all_nil, Bool.and_true, Bool.and_eq_true]
    rintro ⟨hhost, hplugin, _⟩
    exact hlabels ⟨hhost, hplugin⟩
  rw [Publisher.given, publish_of_ended accepts e st h, publishEnd,
    withLabelValues_of_refused _ _ htotal]
  rfl

/-- A start is remembered. -/
theorem given_started (accepts : Bytes → Bool) (p : Publisher) (e : Event)
    (h : e.type = .backupStarted) :
    p.given accepts e =
      (false, { p with jobStarts := p.jobStarts.insert e.jobID e.timestamp }) := by
  simp only [Publisher.given, publish, h]
  rfl

/-- The two know the same of jobs. -/
structure SameJobs (p q : Publisher) : Prop where
  jobsTotal : p.jobsTotal = q.jobsTotal
  jobDuration : p.jobDuration = q.jobDuration
  jobStarts : p.jobStarts = q.jobStarts

/-- An event that is only counted leaves what is known of jobs alone. -/
theorem given_counted (accepts : Bytes → Bool) (p : Publisher) (e : Event) (labels : Labels)
    (count : Labels → Publisher → Publisher) (hcount : ∀ l q, SameJobs (count l q) q)
    (h : publish accepts e = (do
      let l ← withLabelValues accepts labels
      modify (count l))) :
    SameJobs (p.given accepts e).2 p := by
  rw [Publisher.given, h]
  by_cases hlabels : labels.all accepts = true
  · rw [withLabelValues_of_accepted _ _ hlabels]
    exact hcount labels p
  · rw [withLabelValues_of_refused _ _ hlabels]
    exact ⟨rfl, rfl, rfl⟩

/-- So does any event that neither starts nor ends a job. -/
theorem given_other (accepts : Bytes → Bool) (p : Publisher) (e : Event)
    (hstart : e.type ≠ .backupStarted) (hend : e.type.outcome = none) :
    SameJobs (p.given accepts e).2 p := by
  cases htype : e.type with
  | backupStarted => exact absurd htype hstart
  | backupCompleted =>
      rw [htype] at hend
      cases hend
  | backupFailed =>
      rw [htype] at hend
      cases hend
  | artifactCreated =>
      refine given_counted accepts p e [e.host, e.plugin]
        (fun l q => { q with artifactsCreatedTotal := q.artifactsCreatedTotal.inc l })
        (fun _ _ => ⟨rfl, rfl, rfl⟩) ?_
      simp only [publish, htype]
  | retentionApplied =>
      refine given_counted accepts p e [e.host]
        (fun l q => { q with retentionAppliedTotal := q.retentionAppliedTotal.inc l })
        (fun _ _ => ⟨rfl, rfl, rfl⟩) ?_
      simp only [publish, htype]
  | restoreVerificationCompleted =>
      refine given_counted accepts p e [e.host, e.plugin]
        (fun l q => { q with restoreVerifiedTotal := q.restoreVerifiedTotal.inc l })
        (fun _ _ => ⟨rfl, rfl, rfl⟩) ?_
      simp only [publish, htype]
  | _ =>
      simp only [Publisher.given, publish, htype]
      exact ⟨rfl, rfl, rfl⟩

/-- So nothing but an end of a job is counted or observed as one. -/
theorem given_unended (accepts : Bytes → Bool) (p : Publisher) (e : Event)
    (hend : e.type.outcome = none) :
    (p.given accepts e).2.jobsTotal = p.jobsTotal ∧
      (p.given accepts e).2.jobDuration = p.jobDuration := by
  by_cases hstart : e.type = .backupStarted
  · rw [given_started accepts p e hstart]
    exact ⟨rfl, rfl⟩
  · have hsame := given_other accepts p e hstart hend
    exact ⟨hsame.jobsTotal, hsame.jobDuration⟩

/-! ### What the metrics show -/

theorem shown_append (accepts : Bytes → Bool) (events : List Event) (e : Event) :
    shown accepts (events ++ [e]) = ((shown accepts events).given accepts e).2 := by
  rw [shown, List.foldl_append]
  rfl

/-- Where the last of a list may stand. -/
theorem append_singleton_eq {α : Type} (xs before after : List α) (last x : α)
    (h : xs ++ [last] = before ++ x :: after) :
    (after = [] ∧ before = xs ∧ x = last) ∨
      ∃ rest, after = rest ++ [last] ∧ xs = before ++ x :: rest := by
  rcases List.eq_nil_or_concat after with rfl | ⟨rest, y, rfl⟩
  · rcases List.append_inj' h rfl with ⟨rfl, hlast⟩
    exact Or.inl ⟨rfl, rfl, (List.cons.inj hlast).1.symm⟩
  · rw [List.concat_eq_append, ← List.cons_append, ← List.append_assoc] at h
    rcases List.append_inj' h rfl with ⟨rfl, hlast⟩
    obtain rfl := (List.cons.inj hlast).1
    exact Or.inr ⟨rest, List.concat_eq_append, rfl⟩

/-- One more event. -/
theorem inFlight_append (events : List Event) (e : Event) (id : Bytes) :
    InFlight (events ++ [e]) id ↔ (e.type = .backupStarted ∧ e.jobID = id) ∨
      (InFlight events id ∧ (e.jobID = id → e.type.outcome = none)) := by
  constructor
  · rintro ⟨before, start, after, heq, hstart, hid, hafter⟩
    rcases append_singleton_eq events before after e start heq with
      ⟨rfl, rfl, rfl⟩ | ⟨rest, rfl, rfl⟩
    · exact Or.inl ⟨hstart, hid⟩
    · refine Or.inr ⟨⟨before, start, rest, rfl, hstart, hid, fun e' he' => ?_⟩, ?_⟩
      · exact hafter e' (List.mem_append_left _ he')
      · exact hafter e (List.mem_append_right _ List.mem_cons_self)
  · rintro (⟨hstart, hid⟩ | ⟨⟨before, start, after, rfl, hstart, hid, hafter⟩, he⟩)
    · exact ⟨events, e, [], rfl, hstart, hid, fun e' he' => absurd he' List.not_mem_nil⟩
    · refine ⟨before, start, after ++ [e], ?_, hstart, hid, fun e' he' => ?_⟩
      · rw [List.append_assoc, List.cons_append]
      · rcases List.mem_append.mp he' with hold | hnew
        · exact hafter e' hold
        · obtain rfl := List.mem_singleton.mp hnew
          exact he

/-- Nothing is running before anything was said. -/
theorem not_inFlight_nil (id : Bytes) : ¬ InFlight [] id := by
  rintro ⟨before, start, after, heq, _⟩
  exact List.append_ne_nil_of_right_ne_nil before (List.cons_ne_nil start after) heq.symm

/-- One more event, before which the job was running if it says that it ended. -/
theorem paired_append (events : List Event) (e : Event) (h : Paired events)
    (he : ended e = true → InFlight events e.jobID) : Paired (events ++ [e]) := by
  intro before e' after heq hend
  rcases append_singleton_eq events before after e e' heq with ⟨rfl, rfl, rfl⟩ | ⟨rest, rfl, rfl⟩
  · exact he hend
  · exact h before e' rest rfl hend

/-- What it takes to be an end of this kind. -/
theorem endedAs_iff (host plugin status : Bytes) (e : Event) :
    endedAs host plugin status e = true ↔
      ∃ st, e.type.outcome = some st ∧ [e.host, e.plugin, st.text] = [host, plugin, status] := by
  cases h : e.type.outcome with
  | none => simp only [endedAs, h, Option.any_none, Bool.false_and, Bool.false_eq_true,
      reduceCtorEq, false_and, exists_false]
  | some st =>
      simp only [endedAs, h, Option.any_some, Bool.and_eq_true, decide_eq_true_eq,
        Option.some.injEq, exists_eq_left', List.cons.injEq, and_true]
      constructor
      · rintro ⟨⟨hst, hhost⟩, hplugin⟩
        exact ⟨hhost, hplugin, hst⟩
      · rintro ⟨hhost, hplugin, hst⟩
        exact ⟨⟨hst, hhost⟩, hplugin⟩

section Shown

variable (accepts : Bytes → Bool) (hwords : ∀ st : JobStatus, accepts st.text = true)

include hwords

/-- One more event counts if it is an end of this kind whose label values are
    accepted. -/
theorem given_jobsTotal (p : Publisher) (e : Event) (host plugin status : Bytes) :
    (p.given accepts e).2.jobsTotal [host, plugin, status] =
      p.jobsTotal [host, plugin, status] +
        if (accepts host = true ∧ accepts plugin = true) ∧ endedAs host plugin status e = true
        then 1 else 0 := by
  cases hend : e.type.outcome with
  | none =>
      have hnot : ¬ endedAs host plugin status e = true := by
        rw [endedAs_iff, hend]
        simp only [reduceCtorEq, false_and, exists_false, not_false_eq_true]
      rw [(given_unended accepts p e hend).1, if_neg (fun h => hnot h.2), Nat.add_zero]
  | some st =>
      by_cases hsame : [e.host, e.plugin, st.text] = [host, plugin, status]
      · have hcounted : endedAs host plugin status e = true :=
          (endedAs_iff _ _ _ e).mpr ⟨st, hend, hsame⟩
        simp only [List.cons.injEq, and_true] at hsame
        obtain ⟨rfl, rfl, rfl⟩ := hsame
        by_cases hlabels : Labelled accepts e
        · have haccepted : accepts e.host = true ∧ accepts e.plugin = true := hlabels
          rw [given_ended accepts hwords _ e st hend hlabels, if_pos ⟨haccepted, hcounted⟩]
          simp only [Publisher.finish, CounterVec.inc, Function.update_self]
        · rw [given_refused accepts _ e st hend hlabels, if_neg (fun h => hlabels h.1),
            Nat.add_zero]
      · -- It is an end of another kind.
        have hnot : ¬ endedAs host plugin status e = true := by
          rw [endedAs_iff, hend]
          simp only [Option.some.injEq, exists_eq_left']
          exact hsame
        rw [if_neg (fun h => hnot h.2), Nat.add_zero]
        by_cases hlabels : Labelled accepts e
        · rw [given_ended accepts hwords _ e st hend hlabels]
          simp only [Publisher.finish, CounterVec.inc]
          rw [Function.update_of_ne (fun h => hsame h.symm)]
        · rw [given_refused accepts _ e st hend hlabels]

/-- The ends of jobs are counted where their label values are accepted, and
    others are not. -/
theorem shown_jobsTotal (events : List Event) (host plugin status : Bytes) :
    (shown accepts events).jobsTotal [host, plugin, status] =
      if accepts host = true ∧ accepts plugin = true then
        events.countP (endedAs host plugin status)
      else 0 := by
  induction events using List.reverseRecOn with
  | nil =>
      split
      · rfl
      · rfl
  | append_singleton events e ih =>
      rw [shown_append, given_jobsTotal accepts hwords, ih, List.countP_append,
        List.countP_singleton]
      by_cases haccepted : accepts host = true ∧ accepts plugin = true
      · rw [if_pos haccepted, if_pos haccepted]
        simp only [haccepted, and_self, true_and]
      · rw [if_neg haccepted, if_neg haccepted, if_neg (fun h => haccepted h.1)]

/-- Where the label values of every end are accepted, the jobs whose starts are
    remembered are those in flight. -/
theorem mem_jobStarts_iff (events : List Event)
    (hall : ∀ e ∈ events, ended e = true → Labelled accepts e) (id : Bytes) :
    id ∈ (shown accepts events).jobStarts ↔ InFlight events id := by
  induction events using List.reverseRecOn with
  | nil => exact iff_of_false (AList.notMem_empty id) (not_inFlight_nil id)
  | append_singleton events e ih =>
      have hbefore := ih fun e' he' => hall e' (List.mem_append_left _ he')
      rw [shown_append, inFlight_append]
      cases hend : e.type.outcome with
      | none =>
          by_cases hstart : e.type = .backupStarted
          · rw [given_started accepts _ e hstart, AList.mem_insert, hbefore]
            simp only [hstart, true_and, implies_true, and_true, eq_comm]
          · rw [(given_other accepts _ e hstart hend).jobStarts, hbefore]
            simp only [hstart, false_and, false_or, implies_true, and_true]
      | some st =>
          have hlabels : Labelled accepts e := by
            refine hall e (List.mem_append_right _ List.mem_cons_self) ?_
            rw [ended, hend]
            rfl
          have hstart : e.type ≠ .backupStarted := by
            intro hstart
            rw [hstart] at hend
            cases hend
          rw [given_ended accepts hwords _ e st hend hlabels]
          simp only [Publisher.finish, AList.mem_erase, hbefore, hstart, false_and, false_or,
            reduceCtorEq, imp_false]
          rw [and_comm, ne_comm]

/-- Where besides every job that ended was running until then, every end is
    observed, under its label values and in order. -/
theorem shown_observed (events : List Event)
    (hall : ∀ e ∈ events, ended e = true → Labelled accepts e) (hpaired : Paired events) :
    (shown accepts events).jobDuration.map Prod.fst =
      (events.filter ended).map (fun e => [e.host, e.plugin]) := by
  induction events using List.reverseRecOn with
  | nil => rfl
  | append_singleton events e ih =>
      have hall' : ∀ e' ∈ events, ended e' = true → Labelled accepts e' := fun e' he' =>
        hall e' (List.mem_append_left _ he')
      have hbefore := ih hall' fun before e' after heq => by
        subst heq
        exact hpaired before e' (after ++ [e]) (by rw [List.append_assoc, List.cons_append])
      rw [shown_append, List.filter_append, List.map_append]
      cases hend : e.type.outcome with
      | none =>
          have hnot : ended e = false := by rw [ended, hend]; rfl
          rw [(given_unended accepts _ e hend).2, hbefore, List.filter_singleton, hnot]
          exact (List.append_nil _).symm
      | some st =>
          have hdone : ended e = true := by rw [ended, hend]; rfl
          have hlabels := hall e (List.mem_append_right _ List.mem_cons_self) hdone
          -- The job was running, so its start is remembered.
          have hmem := (mem_jobStarts_iff accepts hwords events hall' e.jobID).mpr
            (hpaired events e [] rfl hdone)
          rcases Option.isSome_iff_exists.mp (AList.lookup_isSome.mpr hmem) with ⟨start, hstart⟩
          rw [given_ended accepts hwords _ e st hend hlabels]
          simp only [Publisher.finish, hstart]
          rw [List.map_append, hbefore, List.filter_singleton, hdone]
          rfl

end Shown

end Metrics

end Bop
