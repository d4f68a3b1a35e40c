import Bop.Deploy.Rollout

/-!
# Unattended Updates

Any number of runs of the updater, one after the other as the timer starts them,
each with whatever GitHub, the controller and the file system answer and each
stopped anywhere. What a run needs of the host is what every run leaves of it,
so the link names an installed release at every moment from the first on.

A run asks before it does anything: unless the controller is not running, or
says that no job is in progress and none is queued, nothing is downloaded,
changed or restarted. What cannot be added up, such as a count printed by a
request that then fails, is the exception: the shell abandons the question and
goes on as if the controller were idle. A run asks once. A job that begins while
a release is being downloaded is not asked about again.

## Main definitions

* `Standing`, `Settles`: What a run keeps, and what it leaves.
* `Intrusive`, `NoneCounted`, `IdleSeen`: Commands with an effect, and what comes
  before them.

## Theorems

* `update_withstands`: One run.
* `asks_first`: It asks before it does anything.
* `always_deployable`: Any number of runs.
-/

namespace Bop

namespace Deploy

open Prog

section Runs

variable (out : Outside) (h₀ : Host)

/-- The link names what is installed, and so did the one the run found. -/
def Standing (h : Host) : Prop :=
  Deployable out h ∧ ∀ link, h₀.current = some link → WholeLink out h link

/-- How a run ends that is not stopped. -/
structure Settles (r : Except Bytes Ended) (h : Host) : Prop where
  standing : Standing out h₀ h
  untouched : r = .ok .upToDate ∨ r = .ok .busy → h = h₀
  deployed : ∀ tag, r = .ok (.deployed tag) → h.current = some (releaseLink tag)
  reports : Reports h₀ r h

variable {out h₀} {tag : Bytes}

theorem standing_of_aside (h : Host) (ha : Aside out h₀ tag h) : Standing out h₀ h :=
  ⟨fun link hlink => (ha.2 link (ha.1.symm.trans hlink)).1, fun link hlink => (ha.2 link hlink).1⟩

theorem standing_of_linked (h : Host) (hl : Linked out h₀ tag h) : Standing out h₀ h := by
  refine ⟨fun link hlink => ?_, hl.1.2⟩
  rcases hl.2 with hc | hc
  · exact hl.1.2 link (hc.symm.trans hlink)
  · rw [hc] at hlink
    cases hlink
    exact hl.1.1

/-- A run that fails. -/
theorem settles_of_error (h : Host) (msg : Bytes) (hs : Standing out h₀ h)
    (hreports : ∀ link, msg ≠ [] → h₀.current = some link → h.current = some link) :
    Settles out h₀ (.error msg) h where
  standing := hs
  untouched := by rintro (heq | heq) <;> cases heq
  deployed := fun _ heq => by cases heq
  reports := by
    rintro msg' link heq hmsg hlink
    cases heq
    exact hreports link hmsg hlink

/-- A run that fails before it exchanges the link. -/
theorem settles_of_current (h : Host) (msg : Bytes) (hs : Standing out h₀ h)
    (hc : h.current = h₀.current) : Settles out h₀ (.error msg) h :=
  settles_of_error h msg hs fun _ _ hlink => hc.trans hlink

/-- A run that deploys. -/
theorem settles_of_deployed (h : Host) (hs : Standing out h₀ h)
    (hc : h.current = some (releaseLink tag)) : Settles out h₀ (.ok (.deployed tag)) h where
  standing := hs
  untouched := by rintro (heq | heq) <;> cases heq
  deployed := by
    rintro tag' heq
    cases heq
    exact hc
  reports := reports_ok _ h

/-- What is chosen was offered. -/
theorem chooseTag_withstands (hnames : ∀ tag, out.offered tag → hasSuffix tag ".partial" = false)
    {inv pre : Host → Prop} (hinv : ∀ h, pre h → inv h) (channel : Bytes) :
    Withstands (sem out) half inv pre (chooseTag channel)
      (fun r h => pre h ∧ ∀ tag, r = .ok tag → Taken tag) := by
  have hname : ∀ name : Option Bytes, (∀ tag ∈ name, out.offered tag) →
      jqTag name = "null" ∨ out.offered (jqTag name) := by
    intro name hoffered
    cases name with
    | none => exact Or.inl rfl
    | some tag => exact Or.inr (hoffered tag rfl)
  have hchannel : Withstands (sem out) half inv pre (channelTag channel)
      (fun r h => pre h ∧ ∀ tag, r = .ok tag → tag = "null" ∨ out.offered tag) := by
    unfold channelTag
    split
    · refine withstands_known hinv _ _ _ (fun r => ∀ tag ∈ r.tagName, out.offered tag)
        (withstands_print hinv _ _ (withstands_read out hinv .latest trivial
          (fun x => ∀ r, x = some r → ∀ tag ∈ r.tagName, out.offered tag)
          fun h x h' _ hsem r hr => hsem.2 r hr)) (fun r hr => ?_)
        fun err h hw => ⟨hw, fun _ heq => by cases heq⟩
      refine withstands_ret _ hinv fun h hw => ⟨hw, fun tag heq => ?_⟩
      cases heq
      exact hname _ hr
    split
    · refine withstands_known hinv _ _ _ (fun rs => ∀ r ∈ rs, ∀ tag ∈ r.tagName, out.offered tag)
        (withstands_print hinv _ _ (withstands_read out hinv .newest trivial
          (fun x => ∀ rs, x = some rs → ∀ r ∈ rs, ∀ tag ∈ r.tagName, out.offered tag)
          fun h x h' _ hsem rs hrs => hsem.2 rs hrs)) (fun rs hrs => ?_)
        fun err h hw => ⟨hw, fun _ heq => by cases heq⟩
      refine withstands_ret _ hinv fun h hw => ⟨hw, fun tag heq => ?_⟩
      cases heq
      refine hname _ fun tag htag => ?_
      rcases Option.mem_bind_iff.mp htag with ⟨r, hr, hrtag⟩
      exact hrs r (List.mem_of_find?_eq_some hr) tag hrtag
    · exact withstands_ret _ hinv fun h hw => ⟨hw, fun _ heq => by cases heq⟩
  unfold chooseTag
  refine withstands_known hinv _ _ _ _ hchannel (fun tag htag => ?_)
    fun err h hw => ⟨hw, fun _ heq => by cases heq⟩
  refine withstands_ret _ hinv fun h hw => ⟨hw, fun tag' heq => ?_⟩
  split at heq
  · cases heq
  · next hnull =>
      split at heq
      · next hshape =>
          cases heq
          rw [not_or] at hnull
          exact ⟨hshape, hnames tag (htag.resolve_left hnull.2)⟩
      · cases heq

/-- What is fetched was published. -/
theorem fetch_withstands {inv pre : Host → Prop} (hinv : ∀ h, pre h → inv h) (tag : Bytes) :
    Withstands (sem out) half inv pre (fetch out.sha256 tag)
      (fun r h => pre h ∧ ∀ archive, r = .ok archive → ∃ sums,
        out.served tag (assetOf tag) archive ∧ out.served tag "checksums.txt" sums ∧
          Listed out.sha256 (assetOf tag) archive sums) := by
  have hdownload : ∀ file, Withstands (sem out) half inv pre (mustPrint (download tag file))
      (fun r h => pre h ∧ ∀ data, r = .ok data → out.served tag file data) :=
    fun file => withstands_print hinv _ _ (withstands_read out hinv (.download tag file) trivial
      (fun x => ∀ data, x = some data → out.served tag file data)
      fun h x h' _ hsem data hdata => hsem.2 data hdata)
  have hfail : ∀ err h, pre h → pre h ∧ ∀ archive, (.error err : Except Bytes Bytes) = .ok archive →
      ∃ sums, out.served tag (assetOf tag) archive ∧ out.served tag "checksums.txt" sums ∧
        Listed out.sha256 (assetOf tag) archive sums :=
    fun err h hw => ⟨hw, fun _ heq => by cases heq⟩
  unfold fetch
  refine withstands_known hinv _ _ _ (fun _ => True) (withstands_weaken
    (withstands_still out hinv (must (cmd .mktemp)) ⟨trivial, fun _ => trivial⟩)
    (fun _ hw => hw) (fun _ hw => hw) fun _ _ hw => ⟨hw, fun _ _ => trivial⟩) (fun _ _ => ?_)
    fun err => hfail _
  refine withstands_known hinv _ _ _ _ (hdownload _) (fun archive harchive => ?_) fun err => hfail _
  refine withstands_known hinv _ _ _ _ (hdownload _) (fun sums hsums => ?_) fun err => hfail _
  refine withstands_ret _ hinv fun h hw => ⟨hw, fun archive' heq => ?_⟩
  split at heq
  · next hverified =>
      cases heq
      exact ⟨sums, harchive, hsums, listed_of_verified out.sha256 tag archive sums hverified⟩
  · cases heq

/-- The end of a run: the link is exchanged and old releases go. -/
theorem switch_withstands (hdep : Deployable out h₀) (keep : Nat) :
    Withstands (sem out) half (Standing out h₀)
      (fun h => Stocked out h₀ tag h ∧ h.current = h₀.current)
      (do
        let link : Option Bytes ← cmd .readlink
        let previous := link.getD []
        let keepPrevious := basename (if previous = [] then "none" else previous)
        check (rollout tag previous) id fun _ =>
        check (prune keep tag keepPrevious) id fun _ =>
        return .ok (.deployed tag))
      (Settles out h₀) := by
  have hnew : ∀ h, Exchanged out h₀ tag h → Standing out h₀ h :=
    fun h hw => standing_of_linked h (linked_of_exchanged h hw)
  refine withstands_bind (fun x h => (Stocked out h₀ tag h ∧ h.current = h₀.current) ∧
    x = h₀.current) _ _ (withstands_read out (fun h hw => standing_of_linked h ⟨hw.1, Or.inl hw.2⟩)
      .readlink trivial (fun x => x = h₀.current) ?_) fun link => withstands_fact _ fun hlink => ?_
  · exact fun h x h' hw hsem => hsem.2.trans hw.2
  have hprevious : Option.getD link [] = h₀.current.getD [] := by rw [hlink]
  have hkeep : ∀ l, h₀.current = some l →
      basename l = basename (if Option.getD link [] = [] then "none" else Option.getD link []) := by
    intro l hl
    rcases hdep l hl with ⟨_, _, _, hrelease, _⟩
    have hne : l ≠ [] := by
      rw [hrelease]
      exact List.append_ne_nil_of_left_ne_nil (by decide) _
    rw [hprevious, hl, Option.getD_some, if_neg hne]
  refine withstands_check _ _ _ _ (withstands_weaken (rollout_withstands _ hprevious)
    (fun _ hw => hw) standing_of_linked fun _ _ hw => hw) (fun _ => ?_)
    (fun _ h hw => standing_of_linked h hw.1) fun err h hw => ?_
  · refine withstands_check _ _ _ _ (withstands_weaken (prune_withstands keep _ hkeep)
      (fun h hw => hw.2.2 rfl) hnew fun _ _ hw => hw) (fun _ => ?_) (fun _ h hw => hnew h hw.1)
      fun err h hw => ?_
    · exact withstands_ret _ (fun h hw => hnew h hw.1)
        fun h hw => settles_of_deployed h (hnew h hw.1) hw.1.2
    · refine settles_of_error h _ (hnew h hw.1) fun link hmsg _ => absurd ?_ hmsg
      exact hw.2 err rfl
  · exact settles_of_error h err (standing_of_linked h hw.1)
      fun link hmsg hlink => hw.2.1 err link rfl hmsg hlink

/-- One run. -/
theorem update_withstands
    (hnames : ∀ tag, out.offered tag → hasSuffix tag ".partial" = false)
    (hdep : Deployable out h₀) (cfg : Config) :
    Withstands (sem out) half (Standing out h₀) (fun h => h = h₀) (update out.sha256 cfg)
      (Settles out h₀) := by
  have hstart : ∀ h, h = h₀ → Standing out h₀ h := by
    rintro h rfl
    exact ⟨hdep, hdep⟩
  have hfail : ∀ msg h, h = h₀ → Settles out h₀ (.error msg) h := by
    rintro msg h rfl
    exact settles_of_current _ msg (hstart _ rfl) rfl
  have hstill : ∀ r h, (r = .ok .upToDate ∨ r = .ok .busy) → h = h₀ → Settles out h₀ r h := by
    rintro r h hr rfl
    refine ⟨hstart _ rfl, fun _ => rfl, fun tag heq => ?_, fun _ _ _ _ hlink => hlink⟩
    rcases hr with rfl | rfl <;> cases heq
  unfold update
  refine withstands_known hstart _ _ _ _ (chooseTag_withstands hnames hstart cfg.channel)
    (fun tag htaken => ?_) fun err => hfail _
  refine withstands_bind (fun x h => h = h₀ ∧ x = h₀.current) _ _ (withstands_read out hstart
    .readlink trivial (fun x => x = h₀.current) ?_) fun link => withstands_fact _ fun hlink => ?_
  · rintro h x h' rfl hsem
    exact hsem.2
  split
  · exact withstands_ret _ hstart fun h => hstill _ h (Or.inl rfl)
  next hother =>
  refine withstands_bind (fun _ h => h = h₀) controllerBusy _ (withstands_still out hstart _
    (calls_controllerBusy _ trivial fun _ => trivial)) fun busy => ?_
  cases busy with
  | true => exact withstands_ret _ hstart fun h => hstill _ h (Or.inr rfl)
  | false =>
      refine withstands_known hstart _ _ _ _ (fetch_withstands hstart tag)
        (fun archive harchive => ?_) fun err => hfail _
      -- The new release is not the one the link names.
      have haside : ∀ h, h = h₀ → Aside out h₀ tag h := by
        rintro h rfl
        refine ⟨rfl, fun l hl => ⟨hdep l hl, ?_⟩⟩
        rintro rfl
        rw [hlink, hl] at hother
        exact hother (basename_taken tag htaken)
      refine withstands_check _ _ _ _ (withstands_weaken (unpack_withstands htaken archive) haside
        standing_of_aside fun _ _ hw => hw) (fun _ => ?_) (fun _ h hw => standing_of_aside h hw.1)
        fun err h hw => settles_of_current h err (standing_of_aside h hw.1) hw.1.1
      rcases harchive with ⟨sums, harchive, hsums, hlisted⟩
      exact withstands_weaken (switch_withstands hdep cfg.keep) (fun h hw =>
        ⟨⟨⟨tag, out.untar archive, htaken, rfl, (hw.2 rfl).1, archive, sums, harchive, hsums,
          hlisted, rfl, (hw.2 rfl).2⟩, fun l hl => (hw.1.2 l hl).1⟩, hw.1.1⟩) (fun _ hw => hw)
        fun _ _ hw => hw

end Runs

/-! ### What comes first -/

section Asking

/-- The commands that do something, on the host or with it. -/
def Intrusive : UpdateOp → Prop
  | .latest | .newest | .readlink | .isActive | .jobsIn _ | .sleep => False
  | _ => True

/-- Both lists were had and no job was counted on either, or what was printed is
    nothing that can be added up. -/
def NoneCounted (inProgress queued : Printed) : Prop :=
  (inProgress.ok = true ∧ queued.ok = true ∧ ∀ n ∈ inProgress.counts ++ queued.counts, n = 0) ∨
    added inProgress.orOne queued.orOne = none

/-- The controller was not running, or no job of it was counted. -/
def IdleSeen (tr : Trace UpdateOp UpdateAns) : Prop :=
  (⟨.isActive, false⟩ : Prog.Event UpdateOp UpdateAns) ∈ tr ∨ ∃ inProgress queued : Printed,
    (⟨.jobsIn "in_progress", inProgress⟩ : Prog.Event UpdateOp UpdateAns) ∈ tr ∧
      (⟨.jobsIn "queued", queued⟩ : Prog.Event UpdateOp UpdateAns) ∈ tr ∧
      NoneCounted inProgress queued

/-- That was seen before anything was done. -/
def Guarded (tr : Trace UpdateOp UpdateAns) : Prop :=
  ∀ tr₁ e tr₂, tr = tr₁ ++ e :: tr₂ → Intrusive e.1 → IdleSeen tr₁

/-- The new release was restarted, and after a while the controller was running and
    its API answered. -/
def Healthy (tr : Trace UpdateOp UpdateAns) : Prop :=
  ∃ (tr₁ tr₂ : Trace UpdateOp UpdateAns) (counts : List Nat), tr = tr₁ ++ [⟨.restart, true⟩,
    ⟨.sleep, ()⟩, ⟨.isActive, true⟩, ⟨.jobsIn "completed", ⟨counts, true⟩⟩] ++ tr₂

/-- Asking is not intrusive. -/
theorem guarded_of_calls {α : Type} (p : Script α) (hp : Calls (fun o => ¬ Intrusive o) p)
    (tr : Trace UpdateOp UpdateAns) (a : α) (hr : Runs p tr a) :
    ∀ e ∈ tr, ¬ Intrusive e.1 := by
  refine (calls_iff_runs _ (fun o => ?_) p).mp hp tr a hr
  cases o with
  | latest | newest | readlink | download _ _ | listReleases => exact ⟨none⟩
  | jobsIn _ => exact ⟨⟨[], false⟩⟩
  | sleep => exact ⟨()⟩
  | _ => exact ⟨false⟩

/-- What was seen is seen in any longer trace. -/
theorem idleSeen_mono (tr tr' : Trace UpdateOp UpdateAns) (hsub : tr ⊆ tr') (h : IdleSeen tr) :
    IdleSeen tr' := by
  rcases h with hstopped | ⟨inProgress, queued, hin, hqueued, hnone⟩
  · exact Or.inl (hsub hstopped)
  · exact Or.inr ⟨inProgress, queued, hsub hin, hsub hqueued, hnone⟩

/-- Once it was seen, anything may follow. -/
theorem guarded_append (tr₁ tr₂ : Trace UpdateOp UpdateAns) (hquiet : ∀ e ∈ tr₁, ¬ Intrusive e.1)
    (h : tr₂ = [] ∨ IdleSeen tr₁) : Guarded (tr₁ ++ tr₂) := by
  intro sofar e rest heq hintrusive
  rcases List.append_eq_append_iff.mp heq with ⟨mid, rfl, hrest⟩ | ⟨mid, rfl, hrest⟩
  · rcases h with rfl | hidle
    · have hnil := congrArg List.length hrest
      simp only [List.length_nil, List.length_append, List.length_cons] at hnil
      omega
    · exact idleSeen_mono _ _ (List.subset_append_left _ _) hidle
  · cases mid with
    | nil =>
        rcases h with rfl | hidle
        · cases hrest
        · rw [List.append_nil] at hidle
          exact hidle
    | cons e' mid =>
        rw [List.cons_append, List.cons.injEq] at hrest
        exact absurd (hrest.1 ▸ hintrusive)
          (hquiet e' (List.mem_append_right _ List.mem_cons_self))

/-- A sum of nothing is of lists that were had and on which no job was. -/
theorem noneCounted_of_added (inProgress queued : Printed)
    (h : ∀ n, added inProgress.orOne queued.orOne = some n → n = 0) :
    NoneCounted inProgress queued := by
  -- A list that could not be had ends with a one.
  have hfailed : ∀ p : Printed, p.orOne = [0] ∨ p.orOne = [] → p.ok = true ∧
      ∀ n ∈ p.counts, n = 0 := by
    rintro ⟨counts, ok⟩ hp
    cases ok with
    | true =>
        refine ⟨rfl, fun n hn => ?_⟩
        rcases hp with hp | hp
        · rw [show counts = [0] from hp] at hn
          exact List.mem_singleton.mp hn
        · rw [show counts = [] from hp] at hn
          cases hn
    | false =>
        have hlast : (counts ++ [1]).getLast? = some 1 := List.getLast?_concat
        rcases hp with hp | hp <;> rw [show counts ++ [1] = _ from hp] at hlast <;> cases hlast
  have hboth : ∀ p q : Printed, (p.orOne = [0] ∨ p.orOne = []) → q.orOne = [0] →
      NoneCounted p q := fun p q hp hq => by
    rcases hfailed p hp with ⟨hpok, hpcounts⟩
    rcases hfailed q (Or.inl hq) with ⟨hqok, hqcounts⟩
    exact Or.inl ⟨hpok, hqok, fun n hn => (List.mem_append.mp hn).elim (hpcounts n) (hqcounts n)⟩
  by_cases hnone : added inProgress.orOne queued.orOne = none
  · exact Or.inr hnone
  · rcases Option.ne_none_iff_exists'.mp hnone with ⟨n, hn⟩
    obtain rfl := h n hn
    unfold added at hn
    split at hn
    · next k hp hq =>
        cases hn
        exact hboth _ _ (Or.inr hp) hq
    · next m k hp hq =>
        have hsum := Option.some.inj hn
        obtain rfl : m = 0 := by omega
        obtain rfl : k = 0 := by omega
        exact hboth _ _ (Or.inl hp) hq
    · cases hn

/-- Whoever is not busy has said so, or was not understood. -/
theorem idle_of_not_busy (tr : Trace UpdateOp UpdateAns) (h : Runs controllerBusy tr false) :
    IdleSeen tr := by
  rcases (runs_call_iff _ _ _ _).mp h with ⟨active, tr₁, rfl, hactive⟩
  cases active with
  | false => exact Or.inl List.mem_cons_self
  | true =>
      rcases (runs_call_iff _ _ _ _).mp hactive with ⟨inProgress, tr₂, rfl, hprogress⟩
      rcases (runs_call_iff _ _ _ _).mp hprogress with ⟨queued, tr₃, rfl, hqueued⟩
      refine Or.inr ⟨inProgress, queued, List.mem_cons_of_mem _ List.mem_cons_self,
        List.mem_cons_of_mem _ (List.mem_cons_of_mem _ List.mem_cons_self), ?_⟩
      refine noneCounted_of_added inProgress queued fun n hn => ?_
      simp only [Prog.bind, hn] at hqueued
      have hzero := of_decide_eq_false ((runs_ret_iff _ _ _).mp hqueued).2.symm
      omega

/-- Nothing is done before the controller was asked. -/
theorem asks_first (sha256 : Bytes → Bytes) (cfg : Config) (tr : Trace UpdateOp UpdateAns)
    (r : Except Bytes Ended) (h : Runs (update sha256 cfg) tr r) : Guarded tr := by
  have hchoose : Calls (fun o => ¬ Intrusive o) (chooseTag cfg.channel) := by
    refine calls_check _ _ _ _ ?_ fun _ => trivial
    unfold channelTag
    split
    · exact ⟨id, fun _ => calls_check _ (.ret _) _ _ trivial fun _ => trivial⟩
    split
    · exact ⟨id, fun _ => calls_check _ (.ret _) _ _ trivial fun _ => trivial⟩
    · trivial
  have hbusy := calls_controllerBusy (fun o => ¬ Intrusive o) id fun _ => id
  rcases (runs_check_iff _ _ _ _ _).mp h with ⟨tr₁, tr₂, tag, rfl, h₁, h₂⟩ | ⟨err, h₁, _⟩
  · have hquiet := guarded_of_calls _ hchoose _ _ h₁
    rcases (runs_call_iff _ _ _ _).mp h₂ with ⟨link, tr₃, rfl, h₃⟩
    have hlink : ∀ e ∈ tr₁ ++ [(⟨.readlink, link⟩ : Prog.Event UpdateOp UpdateAns)],
        ¬ Intrusive e.1 := by
      intro e he
      rcases List.mem_append.mp he with he | he
      · exact hquiet e he
      · rw [List.mem_singleton.mp he]
        exact id
    rw [← List.singleton_append, ← List.append_assoc]
    change Runs (ite _ _ _) tr₃ r at h₃
    split at h₃
    · exact guarded_append _ _ hlink (Or.inl ((runs_ret_iff _ _ _).mp h₃).1)
    · rcases (runs_bind_iff _ _ _ _).mp h₃ with ⟨tr₄, tr₅, busy, rfl, h₄, h₅⟩
      have hasked := guarded_of_calls _ hbusy _ _ h₄
      rw [← List.append_assoc]
      refine guarded_append _ _ (fun e he => ?_) ?_
      · exact (List.mem_append.mp he).elim (hlink e) (hasked e)
      · cases busy with
        | true => exact Or.inl ((runs_ret_iff _ _ _).mp h₅).1
        | false =>
            exact Or.inr (idleSeen_mono _ _ (List.subset_append_right _ _)
              (idle_of_not_busy _ h₄))
  · rw [← List.append_nil tr]
    exact guarded_append _ _ (guarded_of_calls _ hchoose _ _ h₁) (Or.inl rfl)

/-- A rollback is no success. -/
theorem rollback_fails (tag previous : Bytes) (tr : Trace UpdateOp UpdateAns) :
    ¬ Runs (rollback tag previous) tr (.ok ()) := by
  intro h
  unfold rollback at h
  dsimp only at h
  split at h
  · cases ((runs_ret_iff _ _ _).mp h).2
  · rcases (runs_check_iff _ _ _ _ _).mp h with ⟨_, _, _, _, _, h⟩ | ⟨_, _, h⟩
    · rcases (runs_check_iff _ _ _ _ _).mp h with ⟨_, _, _, _, _, h⟩ | ⟨_, _, h⟩
      · cases ((runs_ret_iff _ _ _).mp h).2
      · cases h
    · cases h

/-- Whoever is healthy was asked. -/
theorem asked_of_healthy (tr : Trace UpdateOp UpdateAns) (h : Runs healthy tr true) :
    ∃ counts : List Nat,
      tr = [⟨.sleep, ()⟩, ⟨.isActive, true⟩, ⟨.jobsIn "completed", ⟨counts, true⟩⟩] := by
  rcases (runs_call_iff _ _ _ _).mp h with ⟨_, tr₁, rfl, hslept⟩
  rcases (runs_call_iff _ _ _ _).mp hslept with ⟨active, tr₂, rfl, hactive⟩
  cases active with
  | false => cases ((runs_ret_iff _ _ _).mp hactive).2
  | true =>
      rcases (runs_call_iff _ _ _ _).mp hactive with ⟨completed, tr₃, rfl, hcompleted⟩
      rcases (runs_ret_iff _ _ _).mp hcompleted with ⟨rfl, hok⟩
      rcases completed with ⟨counts, ok⟩
      cases hok
      exact ⟨counts, rfl⟩

/-- A release that is rolled out was found healthy after its restart. -/
theorem rollout_healthy (tag previous : Bytes) (tr : Trace UpdateOp UpdateAns)
    (h : Runs (rollout tag previous) tr (.ok ())) : Healthy tr := by
  rcases (runs_check_iff _ _ _ _ _).mp h with ⟨tr₁, tr₂, _, rfl, _, h₂⟩ | ⟨_, _, herr⟩
  · rcases (runs_check_iff _ _ _ _ _).mp h₂ with ⟨tr₃, tr₄, _, rfl, h₃, h₄⟩ | ⟨_, _, herr⟩
    · rcases (runs_call_iff _ _ _ _).mp h₃ with ⟨ok, tr₅, rfl, h₅⟩
      rcases (runs_ret_iff _ _ _).mp h₅ with ⟨rfl, hok⟩
      rcases (runs_bind_iff _ _ _ _).mp h₄ with ⟨tr₆, tr₇, up, rfl, h₆, h₇⟩
      cases ok with
      | false => cases hok
      | true =>
          cases up with
          | true =>
              rcases asked_of_healthy tr₆ h₆ with ⟨n, rfl⟩
              refine ⟨tr₁, tr₇, n, ?_⟩
              simp only [List.append_assoc, List.cons_append, List.nil_append]
          | false => exact absurd h₇ (rollback_fails tag previous tr₇)
    · cases herr
  · cases herr

/-- What a part of a run shows, the run shows. -/
theorem healthy_part (tr₁ tr₂ tr₃ : Trace UpdateOp UpdateAns) (h : Healthy tr₂) :
    Healthy (tr₁ ++ (tr₂ ++ tr₃)) := by
  rcases h with ⟨sofar, rest, n, rfl⟩
  exact ⟨tr₁ ++ sofar, rest ++ tr₃, n, by simp only [List.append_assoc]⟩

/-- And so was one that is deployed. -/
theorem deployed_healthy (sha256 : Bytes → Bytes) (cfg : Config) (tr : Trace UpdateOp UpdateAns)
    (tag : Bytes) (h : Runs (update sha256 cfg) tr (.ok (.deployed tag))) : Healthy tr := by
  rcases (runs_check_iff _ _ _ _ _).mp h with ⟨tr₁, tr₂, tag', rfl, _, h₂⟩ | ⟨_, _, herr⟩
  · rcases (runs_call_iff _ _ _ _).mp h₂ with ⟨link, tr₃, rfl, h₃⟩
    change Runs (ite _ _ _) tr₃ _ at h₃
    split at h₃
    · cases ((runs_ret_iff _ _ _).mp h₃).2
    rcases (runs_bind_iff _ _ _ _).mp h₃ with ⟨tr₄, tr₅, busy, rfl, _, h₅⟩
    cases busy with
    | true => cases ((runs_ret_iff _ _ _).mp h₅).2
    | false =>
        rcases (runs_check_iff _ _ _ _ _).mp h₅ with ⟨tr₆, tr₇, _, rfl, _, h₇⟩ | ⟨_, _, herr⟩
        · rcases (runs_check_iff _ _ _ _ _).mp h₇ with ⟨tr₈, tr₉, _, rfl, _, h₉⟩ | ⟨_, _, herr⟩
          · rcases (runs_call_iff _ _ _ _).mp h₉ with ⟨found, tr₁₀, rfl, h₁₀⟩
            rcases (runs_check_iff _ _ _ _ _).mp h₁₀ with
              ⟨tr₁₁, tr₁₂, _, rfl, h₁₁, _⟩ | ⟨_, _, herr⟩
            · have hhealthy := healthy_part (tr₁ ++ (⟨.readlink, link⟩ :: (tr₄ ++ (tr₆ ++ (tr₈ ++
                [⟨.readlink, found⟩]))))) tr₁₁ tr₁₂ (rollout_healthy _ _ _ h₁₁)
              simp only [List.append_assoc, List.cons_append, List.nil_append] at hhealthy
              exact hhealthy
            · cases herr
          · cases herr
        · cases herr
  · cases herr

end Asking

/-! ### Any number of runs -/

/-- Any number of runs of the updater, each configured and answered in any way and
    stopped anywhere, on a host without a release at first, where GitHub names no
    release that ends in `.partial`. At every moment `current` is absent or names an
    installed release, also in the middle of the next run, to the end of which the
    release that it found stays installed. The run does nothing unless it found the
    controller idle, deploys nothing that it did not find healthy, and unless it ends
    without a word it leaves the old link if it does not deploy. -/
theorem always_deployable (out : Outside)
    (hnames : ∀ tag, out.offered tag → hasSuffix tag ".partial" = false) (h₀ h : Host)
    (hfirst : h₀.current = none)
    (hruns : Relation.ReflTransGen (fun u v => ∃ p, (∃ cfg, p = update out.sha256 cfg) ∧
      Cut (sem out) half p u v) h₀ h) :
    Deployable out h ∧ ∀ cfg,
      (∀ h', Cut (sem out) half (update out.sha256 cfg) h h' → Standing out h h') ∧
      ∀ tr r, Runs (update out.sha256 cfg) tr r → Guarded tr ∧
        (∀ tag, r = .ok (.deployed tag) → Healthy tr) ∧
        ∀ h', Steps (sem out) h tr h' → Settles out h r h' := by
  have hdep : Deployable out h := by
    refine cut_runs (fun p => ∃ cfg, p = update out.sha256 cfg) ?_ h₀ h hruns ?_
    · rintro _ ⟨cfg, rfl⟩ u v hu hcut
      exact ((update_withstands hnames hu cfg).2 u v rfl hcut).1
    · intro link hlink
      rw [hfirst] at hlink
      cases hlink
  refine ⟨hdep, fun cfg => ⟨fun h' hcut => (update_withstands hnames hdep cfg).2 h h' rfl hcut,
    fun tr r hr => ⟨asks_first out.sha256 cfg tr r hr, ?_, fun h' hs =>
      (update_withstands hnames hdep cfg).1 h r h' rfl ⟨tr, hr, hs⟩⟩⟩⟩
  rintro tag rfl
  exact deployed_healthy out.sha256 cfg tr tag hr

/-! ### A first release -/

/-- The tag of a release. -/
def firstTag : Bytes := "v1.0.0"

/-- Its archive: a `bop` that is a script of one line. -/
def firstArchive : Bytes :=
  [31, 139, 8, 0, 0, 0, 0, 0, 2, 3, 237, 205, 49, 14, 130, 64, 20, 4, 208, 95, 115, 10, 8, 7, 96,
   33, 139, 158, 71, 42, 109, 128, 136, 222, 223, 13, 141, 137, 189, 36, 198, 247, 154, 153,
   76, 51, 211, 178, 198, 183, 165, 226, 60, 142, 123, 22, 159, 153, 82, 63, 188, 251, 190,
   159, 114, 206, 81, 167, 56, 192, 115, 123, 92, 238, 229, 50, 254, 83, 219, 116, 211, 109,
   238, 182, 107, 21, 0, 0, 0, 0, 0, 0, 0, 0, 0, 252, 144, 23, 25, 90, 203, 159, 0, 40, 0, 0]

/-- What the archive unpacks to. -/
def firstTree : Tree := fun path => if path = "bop" then some "#!/bin/sh\n" else none

/-- The archive's digest. -/
def firstDigest : Bytes :=
  "7fd8c120e069f27990bcbd9ddaeb61db66dc4eb2102144d3bb9355c8f8c19326"

/-- Its list of checksums. -/
def firstSums : Bytes := firstDigest ++ "  " ++ assetOf firstTag ++ "\n"

/-- GitHub, when it has published that release and no other. -/
def firstOutside : Outside where
  sha256 := fun data => if data = firstArchive then firstDigest else []
  untar := fun archive => if archive = firstArchive then firstTree else Tree.empty
  runs := fun t => t "bop" = some "#!/bin/sh\n"
  offered := fun tag => tag = firstTag
  served := fun tag file data => tag = firstTag ∧
    (file = assetOf firstTag ∧ data = firstArchive ∨ file = "checksums.txt" ∧ data = firstSums)

/-- A host that was set up and has no release. -/
def firstHost : Host := ⟨fun _ => none, none, none⟩

theorem chooseTag_first :
    Performs (sem firstOutside) (chooseTag "stable") firstHost (.ok firstTag) firstHost := by
  refine ⟨[⟨.latest, some ⟨some firstTag, false⟩⟩], ?_, ?_⟩
  · refine Runs.call _ _ _ _ _ ((runs_ret_iff _ _ _).mpr ⟨rfl, ?_⟩)
    decide
  · refine Steps.cons _ firstHost _ _ _ _ ⟨rfl, ?_⟩ (Steps.nil _)
    rintro r hr tag htag
    cases hr
    cases htag
    rfl

theorem fetch_first : Performs (sem firstOutside) (fetch firstOutside.sha256 firstTag) firstHost
    (.ok firstArchive) firstHost := by
  have hverified : verified firstOutside.sha256 (assetOf firstTag) firstArchive firstSums =
      true := by
    decide +kernel
  refine ⟨[⟨.mktemp, true⟩, ⟨.download firstTag (assetOf firstTag), some firstArchive⟩,
    ⟨.download firstTag "checksums.txt", some firstSums⟩], ?_, ?_⟩
  · refine Runs.call _ _ _ _ _ (Runs.call _ _ _ _ _ (Runs.call _ _ _ _ _
      ((runs_ret_iff _ _ _).mpr ⟨rfl, ?_⟩)))
    exact (if_pos hverified).symm
  · refine Steps.cons _ firstHost _ _ _ _ rfl (Steps.cons _ firstHost _ _ _ _ ⟨rfl, ?_⟩
      (Steps.cons _ firstHost _ _ _ _ ⟨rfl, ?_⟩ (Steps.nil _)))
    · intro data hdata
      cases hdata
      exact ⟨rfl, Or.inl ⟨rfl, rfl⟩⟩
    · intro data hdata
      cases hdata
      exact ⟨rfl, Or.inr ⟨rfl, rfl⟩⟩

/-- The host when the new release has got its name. -/
def unpackedHost : Host :=
  ((((((firstHost.put (partialOf firstTag) none).put (partialOf firstTag) (some Tree.empty)).put
    (partialOf firstTag) (some firstTree)).put firstTag none).put (partialOf firstTag) none).put
    firstTag (some firstTree))

theorem unpack_first : Performs (sem firstOutside) (unpack firstTag firstArchive) firstHost (.ok ())
    unpackedHost := by
  have hne : firstTag ≠ partialOf firstTag := by decide
  refine ⟨[⟨.removeTree (partialOf firstTag), true⟩, ⟨.makeDir (partialOf firstTag), true⟩,
    ⟨.untar firstArchive (partialOf firstTag), true⟩, ⟨.version (partialOf firstTag), true⟩,
    ⟨.removeTree firstTag, true⟩, ⟨.rename (partialOf firstTag) firstTag, true⟩], ?_, ?_⟩
  · exact Runs.call _ _ _ _ _ (Runs.call _ _ _ _ _ (Runs.call _ _ _ _ _ (Runs.call _ _ _ _ _
      (Runs.call _ _ _ _ _ (Runs.call _ _ _ _ _ (Runs.ret _))))))
  · have htree :
        some firstTree = some (Tree.over (firstOutside.untar firstArchive) Tree.empty) := by
      rw [over_empty]
      change _ = some (if firstArchive = firstArchive then firstTree else Tree.empty)
      rw [if_pos rfl]
    let h₁ := firstHost.put (partialOf firstTag) none
    let h₂ := h₁.put (partialOf firstTag) (some Tree.empty)
    let h₃ := h₂.put (partialOf firstTag) (some firstTree)
    let h₄ := h₃.put firstTag none
    refine Steps.cons _ h₁ _ _ _ _ rfl (Steps.cons _ h₂ _ _ _ _ ?_ (Steps.cons _ h₃ _ _ _ _ ?_
      (Steps.cons _ h₃ _ _ _ _ ?_ (Steps.cons _ h₄ _ _ _ _ rfl (Steps.cons _ _ _ _ _ _ ?_
        (Steps.nil _))))))
    · change h₂ = h₁.put _ (some (Option.getD (h₁.releases _) Tree.empty))
      rw [put_self]
      rfl
    · exact ⟨Tree.empty, put_self h₁ _ _, by rw [← htree]⟩
    · exact ⟨rfl, fun _ => ⟨firstTree, put_self h₂ _ _, rfl⟩⟩
    · exact ⟨firstTree, (put_other h₃ firstTag _ none hne.symm).trans (put_self h₂ _ _), firstTree,
        fun _ => rfl, rfl⟩

/-- A first run that is stopped before it restarts the controller. -/
theorem cut_first : Cut (sem firstOutside) half (update firstOutside.sha256 ⟨"stable", 3⟩) firstHost
    { unpackedHost with current := some (releaseLink firstTag), next := none } := by
  refine cut_of_bind _ _ _ _ _ _ chooseTag_first (Cut.after UpdateOp.readlink _ none _ firstHost _
    ⟨rfl, rfl⟩ ?_)
  have hother : ¬ (Option.map basename none).getD [] = firstTag := by decide
  let linkedHost : Host := { unpackedHost with next := some (releaseLink firstTag) }
  have hlinked : sem firstOutside unpackedHost (.symlink (releaseLink firstTag)) true linkedHost :=
    rfl
  have hreplaced : sem firstOutside linkedHost .replaceLink true
      { unpackedHost with current := some (releaseLink firstTag), next := none } := ⟨_, rfl, rfl⟩
  rw [Prog.bind, if_neg hother]
  refine Cut.after UpdateOp.isActive _ false _ firstHost _ rfl ?_
  refine cut_of_bind (fetch _ _) _ _ _ _ _ fetch_first ?_
  refine cut_of_bind (unpack _ _) _ _ _ _ _ unpack_first ?_
  refine Cut.after UpdateOp.readlink _ none _ unpackedHost _ ⟨rfl, rfl⟩ ?_
  exact Cut.after _ _ _ _ _ _ hlinked (Cut.after _ _ _ _ _ _ hreplaced (Cut.before _ _))

/-- It leaves a link to an installed release. -/
theorem always_deployable_first : ∃ h : Host, h.current = some (releaseLink firstTag) ∧
    Deployable firstOutside h := by
  have hnames : ∀ tag, firstOutside.offered tag → hasSuffix tag ".partial" = false := by
    rintro tag rfl
    decide
  exact ⟨_, rfl, (always_deployable firstOutside hnames firstHost _ rfl
    (Relation.ReflTransGen.single ⟨_, ⟨⟨"stable", 3⟩, rfl⟩, cut_first⟩)).1⟩

end Deploy

end Bop
