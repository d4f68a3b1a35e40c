import Bop.Data.Table
import Bop.Text.LocalTime
import Bop.Web.JobOrder

/-!
# The Activity Chart

The chart has a bucket for each day of its window. The dates of the buckets are
found by going back from now, day by day in local time, and are then written in
UTC; a job is counted in the bucket whose date its own text begins with, which
is the date at its own offset.

Going back in local time keeps the clock. An offset that has changed since
moves the instant, and may move it over midnight in UTC. Then two buckets have
one date, of which one is lost, or a date is left out. And a text that has an
offset may begin with another date than that in UTC.

## Main definitions

* `DayBucket`, `bucketJobsByDay`: The chart.
* `Stamp`: A timestamp of RFC 3339.
* `window`: The days of the chart, in UTC.
* `Charted`: Every day of the window has its bucket, and every job is counted in
  that of its day.
* `Steady`: The same clock some days before is on the day as many days before.

## Theorems

* `emptyBuckets_iff`: When the buckets are those of the window.
* `countJob_iff`: When a job is counted in the bucket of its day.
* `charted_iff`: When the chart is right.
-/

namespace Bop

namespace Web

/-! ### The chart -/

/-- `interface DayBucket`. -/
structure DayBucket where
  date : Bytes
  label : Bytes
  succeeded : Nat
  active : Nat
  failed : Nat
deriving DecidableEq

/-- The bucket with one more job. -/
def DayBucket.count (status : Bytes) (b : DayBucket) : DayBucket :=
  if status = "completed" then { b with succeeded := b.succeeded + 1 }
  else if status = "failed" then { b with failed := b.failed + 1 }
  else { b with active := b.active + 1 }

/-- The jobs counted in a bucket. -/
def DayBucket.total (b : DayBucket) : Nat := b.succeeded + b.active + b.failed

theorem DayBucket.count_date (status : Bytes) (b : DayBucket) : (b.count status).date = b.date := by
  unfold DayBucket.count
  split
  · rfl
  · split <;> rfl

/-- A job is counted in exactly one field. -/
theorem DayBucket.count_total (status : Bytes) (b : DayBucket) :
    (b.count status).total = b.total + 1 := by
  unfold DayBucket.count
  split
  · simp only [DayBucket.total]
    omega
  · split
    · simp only [DayBucket.total]
      omega
    · simp only [DayBucket.total]
      omega

/-- The buckets, by date, in the order they were set. -/
abbrev Buckets := Table DayBucket.date

variable (toLocaleDateString : Int → Bytes)

/-- The bucket of a date that is set some days before now. -/
def dayBucket (d : Int) : DayBucket :=
  ⟨(toISOString d).take 10, toLocaleDateString d, 0, 0, 0⟩

/-- The first loop: the buckets of the days. An invalid date throws. -/
def emptyBuckets (z : Zone) (now : Int) (days : Nat) : Option Buckets :=
  (List.range days).reverse.foldlM (fun (buckets : Buckets) (i : Nat) => do
    let d ← setDate z now (getDate z now - i)
    return buckets.put (dayBucket toLocaleDateString d)) Table.empty

/-- The second loop, for one job. -/
def countJob (buckets : Buckets) (job : Job) : Buckets :=
  let date := job.queuedAt.take 10
  match buckets.find? date with
  -- Outside the visible window.
  | none => buckets
  | some _ => buckets.update (fun b => if b.date = date then b.count job.status else b) fun b => by
      split
      · exact b.count_date job.status
      · rfl

/-- `bucketJobsByDay`. -/
def bucketJobsByDay (z : Zone) (now : Int) (jobs : List Job) (days : Nat) :
    Option (List DayBucket) :=
  (emptyBuckets toLocaleDateString z now days).map fun buckets => (jobs.foldl countJob buckets).rows

/-! ### Timestamps -/

/-- A timestamp of RFC 3339. Its offset is `Z`, or a sign, hours and minutes. -/
structure Stamp where
  day : Int
  hour : Nat
  minute : Nat
  second : Nat
  fraction : Bytes
  zone : Option (Bool × Nat × Nat)
  year : FourDigits day
  clock : hour < 24 ∧ minute < 60 ∧ second ≤ 60
  digits : fraction = [] ∨ ∃ d ds, fraction = 46 :: d :: ds ∧ ∀ b ∈ d :: ds, Json.isDigit b = true
  bound : ∀ x ∈ zone, x.2.1 < 24 ∧ x.2.2 < 60

/-- The minutes by which its clock is ahead of UTC. -/
def Stamp.offset (s : Stamp) : Int :=
  match s.zone with
  | none => 0
  -- Behind UTC.
  | some (true, hours, minutes) => -(60 * hours + minutes)
  | some (false, hours, minutes) => 60 * hours + minutes

/-- Its day in UTC. -/
def Stamp.utcDay (s : Stamp) : Int := (1440 * s.day + 60 * s.hour + s.minute - s.offset) / 1440

/-- Its offset as it is written. -/
def Stamp.zoneText (s : Stamp) : Bytes :=
  match s.zone with
  | none => "Z"
  | some (behind, hours, minutes) =>
      (if behind then ("-" : Bytes) else "+") ++ padDigits 2 hours ++ ":" ++ padDigits 2 minutes

/-- The text. -/
def Stamp.text (s : Stamp) : Bytes :=
  dayText s.day ++ ("T" ++ padDigits 2 s.hour ++ ":" ++ padDigits 2 s.minute ++ ":" ++
    padDigits 2 s.second ++ s.fraction ++ s.zoneText)

/-! ### What the chart is to show -/

/-- The days of the chart, the last being that of now. -/
def window (now : Int) (days : Nat) : List Int :=
  (List.range days).reverse.map fun i : Nat => now / msPerDay - i

/-- The buckets with a job counted in that of a day. -/
def countOn (day : Int) (status : Bytes) (buckets : List DayBucket) : List DayBucket :=
  buckets.map fun b => if b.date = dayText day then b.count status else b

/-- There is a bucket for every day of the window, each job adds one to one
    field of the bucket of its day, if the chart has one, and to nothing else,
    and in the end as many are counted as there are jobs in the window. -/
def Charted (z : Zone) (now : Int) (days : Nat) (utcDay : Job → Int) (jobs : List Job) : Prop :=
  ∃ buckets, bucketJobsByDay toLocaleDateString z now jobs days = some buckets ∧
    buckets.map DayBucket.date = (window now days).map dayText ∧
    (∀ before job after, jobs = before ++ job :: after → ∃ b b',
      bucketJobsByDay toLocaleDateString z now before days = some b ∧
      bucketJobsByDay toLocaleDateString z now (before ++ [job]) days = some b' ∧
      b' = countOn (utcDay job) job.status b) ∧
    (buckets.map DayBucket.total).sum = jobs.countP (fun job => utcDay job ∈ window now days)

/-- The same clock some days before now. -/
def sameClock (z : Zone) (now : Int) (i : Nat) : Int := z.utc (z.localTime now - i * msPerDay)

/-- What the offset has changed since the same clock some days before does not
    move that clock to another day of UTC. -/
def Steady (z : Zone) (now : Int) (i : Nat) : Prop :=
  let moved := z.offset now - z.offsetAt (z.localTime now - i * msPerDay)
  0 ≤ now % msPerDay + moved ∧ now % msPerDay + moved < msPerDay

/-- The text of a job begins with its date in UTC, or with a date that is as much
    outside the window. -/
def Dated (now : Int) (days : Nat) (s : Stamp) : Prop :=
  s.day = s.utcDay ∨ s.day ∉ window now days ∧ s.utcDay ∉ window now days

/-! ### The buckets -/

/-- The same clock some days before is on the day as many days before exactly
    when the offsets are steady. -/
theorem utcDay_iff (z : Zone) (now : Int) (i : Nat) :
    sameClock z now i / msPerDay = now / msPerDay - i ↔ Steady z now i := by
  unfold Steady sameClock Zone.utc
  dsimp only
  generalize z.offsetAt (z.localTime now - i * msPerDay) = off
  -- Local time and back differ by how much the offset has changed.
  unfold Zone.localTime msPerDay
  omega

/-- The date of that clock is that of the day as many days before exactly when,
    besides, the year of that day has four digits. -/
theorem date_iff (z : Zone) (now : Int) (i : Nat) :
    (toISOString (sameClock z now i)).take 10 = dayText (now / msPerDay - i) ↔
      FourDigits (now / msPerDay - i) ∧ Steady z now i := by
  unfold toISOString
  simp only [List.append_assoc]
  rw [take_dayText_iff, utcDay_iff, and_comm]

/-- The first loop sets the bucket of one day after the other, if all of them are
    valid. -/
theorem foldlM_setDate (z : Zone) (now : Int) (is : List Nat) (t t' : Buckets) :
    is.foldlM (fun (buckets : Buckets) (i : Nat) => do
      let d ← setDate z now (getDate z now - i)
      return buckets.put (dayBucket toLocaleDateString d)) t = some t' ↔
    (∀ i ∈ is, timeClip (sameClock z now i) = some (sameClock z now i)) ∧
      t' =
        (is.map fun i => dayBucket toLocaleDateString (sameClock z now i)).foldl Table.put t := by
  induction is generalizing t with
  | nil =>
      rw [List.foldlM_nil]
      exact ⟨fun h => ⟨fun i hi => absurd hi List.not_mem_nil, (Option.some.inj h).symm⟩,
        fun h => congrArg some h.2.symm⟩
  | cons i is ih =>
      rw [List.foldlM_cons, setDate_eq, List.forall_mem_cons, List.map_cons, List.foldl_cons]
      -- Of a step only whether its day is valid can fail.
      change (timeClip (sameClock z now i) >>= _) >>= _ = _ ↔ _
      cases hclip : timeClip (sameClock z now i) with
      | none =>
          refine ⟨fun h => ?_, fun h => ?_⟩
          · cases h
          · cases h.1.1
      | some d =>
          have hd : d = sameClock z now i := by
            unfold timeClip at hclip
            split at hclip
            · exact (Option.some.inj hclip).symm
            · cases hclip
          subst hd
          exact (ih _).trans (and_congr_left' (and_iff_right rfl).symm)

theorem mem_days (days i : Nat) : i ∈ (List.range days).reverse ↔ i < days := by
  rw [List.mem_reverse, List.mem_range]

/-- Different days of a window have different dates. -/
theorem nodup_window (now : Int) (days : Nat)
    (h : ∀ i < days, FourDigits (now / msPerDay - (i : Nat))) :
    ((window now days).map dayText).Nodup := by
  rw [window, List.map_map]
  refine List.Nodup.map_on (fun i hi j hj heq => ?_) (List.nodup_reverse.mpr List.nodup_range)
  rw [mem_days] at hj
  have hdays : now / msPerDay - (i : Int) = now / msPerDay - j := dayText_inj _ _ (h j hj) heq
  omega

/-- The buckets of the days that are gone back have the dates of the window
    exactly when each has that of its day, and no two days have one date. -/
theorem keys_window_iff (z : Zone) (now : Int) (days : Nat) (t : Buckets)
    (ht : t = (((List.range days).reverse.map fun i =>
      dayBucket toLocaleDateString (sameClock z now i)).foldl Table.put Table.empty)) :
    t.rows.map DayBucket.date = (window now days).map dayText ↔
      (∀ i < days, FourDigits (now / msPerDay - i) ∧ Steady z now i) ∧
        ((window now days).map dayText).Nodup := by
  subst ht
  rw [Table.keys_putAll_iff _ _ (by simp only [window, List.length_map])]
  refine and_congr_left' ?_
  rw [window, List.map_map, List.map_map, List.map_inj_left]
  simp only [mem_days, Function.comp_apply, dayBucket, date_iff]

/-- The buckets are those of the window exactly when all of its years have four
    digits and the offsets are steady. -/
theorem emptyBuckets_iff (z : Zone) (now : Int) (days : Nat) :
    (∃ t, emptyBuckets toLocaleDateString z now days = some t ∧
      t.rows.map DayBucket.date = (window now days).map dayText) ↔
      ∀ i < days, FourDigits (now / msPerDay - i) ∧ Steady z now i := by
  constructor
  · rintro ⟨t, ht, hdates⟩
    have hput := (foldlM_setDate toLocaleDateString z now _ _ t).mp ht
    exact ((keys_window_iff toLocaleDateString z now days t hput.2).mp hdates).1
  · intro h
    -- Every day that is gone back to is valid, so the loop sets all of its buckets.
    have hvalid : ∀ i ∈ (List.range days).reverse,
        timeClip (sameClock z now i) = some (sameClock z now i) := by
      intro i hi
      rw [mem_days] at hi
      refine timeClip_of_fourDigits _ ?_
      rw [(utcDay_iff z now i).mpr (h i hi).2]
      exact (h i hi).1
    exact ⟨_, (foldlM_setDate toLocaleDateString z now _ _ _).mpr ⟨hvalid, rfl⟩,
      (keys_window_iff toLocaleDateString z now days _ rfl).mpr
        ⟨h, nodup_window now days fun i hi => (h i hi).1⟩⟩

/-! ### The jobs -/

/-- A text begins with the date of its day. -/
theorem take_text (s : Stamp) : s.text.take 10 = dayText s.day :=
  (take_dayText_iff s.day s.day _).mpr ⟨rfl, s.year⟩

/-- Counting a job counts it in the buckets of the date its text begins with. -/
theorem countJob_rows (t : Buckets) (job : Job) :
    (countJob t job).rows =
      t.rows.map fun b => if b.date = job.queuedAt.take 10 then b.count job.status else b := by
  unfold countJob
  dsimp only
  split
  · next hfind =>
      rw [Table.find?_eq_none_iff] at hfind
      -- Without a bucket of that date the update would change nothing either.
      have hid : ∀ b ∈ t.rows,
          (if b.date = job.queuedAt.take 10 then b.count job.status else b) = b := by
        intro b hb
        exact if_neg fun hdate => hfind (List.mem_map.mpr ⟨b, hb, hdate⟩)
      exact ((List.map_congr_left hid).trans (List.map_id _)).symm
  · rfl

/-- Counting jobs keeps the dates. -/
theorem countJob_dates (t : Buckets) (job : Job) :
    (countJob t job).rows.map DayBucket.date = t.rows.map DayBucket.date := by
  rw [countJob_rows, List.map_map]
  refine List.map_congr_left fun b _ => ?_
  dsimp only [Function.comp_apply]
  split
  · exact b.count_date job.status
  · rfl

theorem countJobs_dates (jobs : List Job) (t : Buckets) :
    (jobs.foldl countJob t).rows.map DayBucket.date = t.rows.map DayBucket.date := by
  induction jobs generalizing t with
  | nil => rfl
  | cons job jobs ih => exact (ih (countJob t job)).trans (countJob_dates t job)

/-- Counting changes a bucket. -/
theorem DayBucket.count_ne (status : Bytes) (b : DayBucket) : b.count status ≠ b := by
  intro h
  have := b.count_total status
  rw [h] at this
  omega

/-- A job is counted in the bucket of its day exactly when its text begins with
    that date, or neither is a date of the window. -/
theorem countJob_iff (now : Int) (days : Nat) (hyears : ∀ d ∈ window now days, FourDigits d)
    (t : Buckets) (hdates : t.rows.map DayBucket.date = (window now days).map dayText)
    (s : Stamp) (job : Job) (hjob : job.queuedAt = s.text) :
    (countJob t job).rows = countOn s.utcDay job.status t.rows ↔ Dated now days s := by
  rw [countJob_rows, hjob, take_text, countOn, List.map_inj_left]
  -- The bucket of a day of the window.
  have hbucket : ∀ d ∈ window now days, ∃ b ∈ t.rows, b.date = dayText d := by
    intro d hd
    have hmem := List.mem_map_of_mem (f := dayText) hd
    rw [← hdates] at hmem
    exact List.mem_map.mp hmem
  -- And a day whose date a bucket has is one of the window.
  have hday : ∀ d, ∀ b ∈ t.rows, b.date = dayText d → d ∈ window now days := by
    intro d b hb hdate
    have hmem := List.mem_map_of_mem (f := DayBucket.date) hb
    rw [hdates, hdate] at hmem
    rcases List.mem_map.mp hmem with ⟨d', hd', heq⟩
    exact (dayText_inj d d' (hyears d' hd') heq.symm) ▸ hd'
  constructor
  · intro h
    by_contra hdated
    rw [Dated, not_or, not_and_or, not_not, not_not] at hdated
    rcases hdated with ⟨hne, hmem | hmem⟩
    · -- The day of the text is in the window: its bucket is counted up, and should not be.
      rcases hbucket _ hmem with ⟨b, hb, hdate⟩
      have heq := h b hb
      rw [if_pos hdate, if_neg fun hdate' =>
        hne (dayText_inj _ _ (hyears _ hmem) (hdate'.symm.trans hdate)).symm] at heq
      exact b.count_ne job.status heq
    · -- The day in UTC is: its bucket should be counted up, and is not.
      rcases hbucket _ hmem with ⟨b, hb, hdate⟩
      have heq := h b hb
      rw [if_pos hdate, if_neg fun hdate' =>
        hne (dayText_inj _ _ (hyears _ hmem) (hdate'.symm.trans hdate))] at heq
      exact b.count_ne job.status heq.symm
  · rintro (heq | ⟨hday₁, hday₂⟩) b hb
    · rw [heq]
    · -- Neither has a bucket.
      rw [if_neg fun hdate => hday₁ (hday _ b hb hdate),
        if_neg fun hdate => hday₂ (hday _ b hb hdate)]

/-- Counting on a date adds one for every bucket that has it. -/
theorem sum_countOn (date status : Bytes) (rows : List DayBucket) :
    ((rows.map fun b => if b.date = date then b.count status else b).map DayBucket.total).sum =
      (rows.map DayBucket.total).sum + (rows.map DayBucket.date).count date := by
  induction rows with
  | nil => rfl
  | cons b rows ih =>
      simp only [List.map_cons, List.sum_cons, List.count_cons, ih, beq_iff_eq]
      -- The bucket at the front has the date or not.
      split
      · rw [b.count_total status]
        omega
      · omega

/-- The jobs that are counted. -/
theorem sum_countJobs (now : Int) (days : Nat) (hyears : ∀ d ∈ window now days, FourDigits d)
    (stamp : Job → Stamp) (jobs : List Job)
    (hjobs : ∀ job ∈ jobs, job.queuedAt = (stamp job).text ∧ Dated now days (stamp job))
    (t : Buckets) (hdates : t.rows.map DayBucket.date = (window now days).map dayText) :
    ((jobs.foldl countJob t).rows.map DayBucket.total).sum = (t.rows.map DayBucket.total).sum +
      jobs.countP (fun job => (stamp job).utcDay ∈ window now days) := by
  induction jobs generalizing t with
  | nil => rfl
  | cons job jobs ih =>
      rcases List.forall_mem_cons.mp hjobs with ⟨⟨hjob, hdated⟩, hrest⟩
      rw [List.foldl_cons, ih hrest _ ((countJob_dates t job).trans hdates), List.countP_cons,
        (countJob_iff now days hyears t hdates (stamp job) job hjob).mpr hdated, countOn,
        sum_countOn]
      -- The dates of the window differ, so at most one bucket counts the job.
      have hcount : (t.rows.map DayBucket.date).count (dayText (stamp job).utcDay) =
          if (stamp job).utcDay ∈ window now days then 1 else 0 := by
        rw [t.nodup.count, hdates]
        refine if_congr ⟨fun hmem => ?_, List.mem_map_of_mem⟩ rfl rfl
        rcases List.mem_map.mp hmem with ⟨d, hd, heq⟩
        exact (dayText_inj _ d (hyears d hd) heq.symm) ▸ hd
      rw [hcount]
      simp only [decide_eq_true_eq]
      omega

/-- The chart is right exactly when all years of the window have four digits,
    the offsets are steady in it, and every job's text begins with its date in
    UTC, as far as that matters. -/
theorem charted_iff (z : Zone) (now : Int) (days : Nat) (stamp : Job → Stamp) (jobs : List Job)
    (hstamp : ∀ job ∈ jobs, job.queuedAt = (stamp job).text) :
    Charted toLocaleDateString z now days (fun job => (stamp job).utcDay) jobs ↔
      (∀ i < days, FourDigits (now / msPerDay - i) ∧ Steady z now i) ∧
        ∀ job ∈ jobs, Dated now days (stamp job) := by
  have hyears : (∀ i < days, FourDigits (now / msPerDay - i) ∧ Steady z now i) →
      ∀ d ∈ window now days, FourDigits d := by
    intro h d hd
    rcases List.mem_map.mp hd with ⟨i, hi, rfl⟩
    exact (h i ((mem_days days i).mp hi)).1
  -- The chart of one more job is that of the others with the job counted.
  have hsplit : ∀ (t : Buckets) (before : List Job) (job : Job),
      ((before ++ [job]).foldl countJob t).rows =
        (countJob (before.foldl countJob t) job).rows := by
    intro t before job
    rw [List.foldl_append]
    rfl
  constructor
  · rintro ⟨buckets, hbuckets, hdates, hcounted, _⟩
    rcases Option.map_eq_some_iff.mp hbuckets with ⟨t, ht, rfl⟩
    -- The dates are those of the first loop.
    rw [countJobs_dates] at hdates
    have hdays := (emptyBuckets_iff toLocaleDateString z now days).mp ⟨t, ht, hdates⟩
    refine ⟨hdays, fun job hmem => ?_⟩
    rcases List.append_of_mem hmem with ⟨before, after, hjobs⟩
    rcases hcounted before job after hjobs with ⟨b, b', hb, hb', heq⟩
    rw [bucketJobsByDay, ht, Option.map_some, Option.some.injEq] at hb hb'
    rw [hsplit] at hb'
    refine (countJob_iff now days (hyears hdays) (before.foldl countJob t)
      ((countJobs_dates before t).trans hdates) (stamp job) job (hstamp job hmem)).mp ?_
    rw [hb', hb]
    exact heq
  · rintro ⟨hdays, hdated⟩
    rcases (emptyBuckets_iff toLocaleDateString z now days).mpr hdays with ⟨t, ht, hdates⟩
    -- The first loop succeeds, so the chart of any jobs is a fold over its buckets.
    have hrun : ∀ jobs, bucketJobsByDay toLocaleDateString z now jobs days =
        some (jobs.foldl countJob t).rows := by
      intro jobs
      rw [bucketJobsByDay, ht]
      rfl
    refine ⟨_, hrun jobs, (countJobs_dates jobs t).trans hdates, ?_, ?_⟩
    · rintro before job after rfl
      refine ⟨_, _, hrun before, hrun (before ++ [job]), ?_⟩
      have hmem : job ∈ before ++ job :: after := List.mem_append_right _ List.mem_cons_self
      rw [hsplit]
      exact (countJob_iff now days (hyears hdays) _ ((countJobs_dates before t).trans hdates)
        (stamp job) job (hstamp job hmem)).mpr (hdated job hmem)
    · rw [sum_countJobs now days (hyears hdays) stamp jobs
        (fun job hmem => ⟨hstamp job hmem, hdated job hmem⟩) t hdates]
      -- The buckets are empty at first.
      have hzero : ∀ b ∈ t.rows, b.total = 0 := by
        intro b hb
        rw [((foldlM_setDate toLocaleDateString z now _ _ t).mp ht).2] at hb
        rcases Table.mem_putAll _ _ b hb with hb | hb
        · rcases List.mem_map.mp hb with ⟨i, _, rfl⟩
          rfl
        · exact absurd hb List.not_mem_nil
      have hsum : (t.rows.map DayBucket.total).sum = 0 := by
        rw [List.sum_eq_zero_iff_forall_eq_nat, List.forall_mem_map]
        exact hzero
      rw [hsum, Nat.zero_add]

/-! ### Times and zones without surprises -/

/-- In a zone whose offset never changes the offsets are steady. -/
theorem steady_of_fixed (z : Zone) (off : Int) (h : ∀ t, z.offset t = off) (now : Int) (i : Nat) :
    Steady z now i := by
  rcases z.offsetAt_mem (z.localTime now - i * msPerDay) with ⟨u, hu⟩
  unfold Steady
  dsimp only
  -- Nothing has moved, and the time of day is within its day.
  rw [hu, h, h, Int.sub_self, Int.add_zero]
  exact ⟨Int.emod_nonneg now (by decide), Int.emod_lt_of_pos now (by decide)⟩

/-- What the server writes of a time in UTC, as a timestamp. -/
def stampOf (t : Time) (h : Marshals t) : Stamp where
  day := dayOf t
  hour := secondOfDay t / 3600
  minute := secondOfDay t / 60 % 60
  second := secondOfDay t % 60
  fraction := fraction (nanosecond t)
  zone := none
  year := h
  clock := by
    have := secondOfDay_lt t
    omega
  digits := by
    unfold fraction
    split
    · exact Or.inl rfl
    · next hne =>
      rcases List.exists_cons_of_ne_nil hne with ⟨d, ds, hds⟩
      rw [hds]
      refine Or.inr ⟨d, ds, rfl, fun b hb => ?_⟩
      rw [← hds] at hb
      exact isDigit_padDigits 9 _ b (mem_of_mem_trimZeros _ b hb)
  bound := by
    intro x hx
    cases hx

theorem text_stampOf (t : Time) (h : Marshals t) : (stampOf t h).text = rfc3339Nano t := by
  unfold Stamp.text rfc3339Nano clockText
  rw [← dayText_of_fourDigits (dayOf t) h]
  simp only [List.append_assoc]
  rfl

theorem utcDay_stampOf (t : Time) (h : Marshals t) : (stampOf t h).utcDay = dayOf t := by
  have hlt := secondOfDay_lt t
  -- The clock of the day is less than a day.
  change (1440 * dayOf t + 60 * (secondOfDay t / 3600 : Nat) +
    (secondOfDay t / 60 % 60 : Nat) - 0) / 1440 = dayOf t
  omega

/-- Such a text begins with the date in UTC. -/
theorem dated_stampOf (now : Int) (days : Nat) (t : Time) (h : Marshals t) :
    Dated now days (stampOf t h) := Or.inl (utcDay_stampOf t h).symm

/-! ### A chart in UTC, and one in spring -/

/-- A zone of no offset. -/
def utcZone : Zone := ⟨fun _ => 0, fun _ => by decide⟩

/-- Eight o'clock on the ninth of March 2024. -/
def backupTime : Time := 1709971200000000000

/-- A job of that time. -/
def backupJob : Job :=
  ⟨"job-1", "web", "filesystem", ⟨7, 0, 0, 0⟩, "completed", rfc3339Nano backupTime⟩

/-- On the tenth, at noon, a chart of three days is right in UTC. -/
theorem charted_backupJob :
    Charted toISOString utcZone 1710072000000 3 (fun _ => dayOf backupTime) [backupJob] := by
  have hmarshals : Marshals backupTime := by decide +kernel
  rw [← utcDay_stampOf backupTime hmarshals]
  refine (charted_iff toISOString utcZone 1710072000000 3 (fun _ => stampOf backupTime hmarshals)
    [backupJob] (List.forall_mem_singleton.mpr (text_stampOf backupTime hmarshals).symm)).mpr
    ⟨fun i hi => ⟨?_, steady_of_fixed utcZone 0 (fun _ => rfl) _ i⟩,
      List.forall_mem_singleton.mpr (dated_stampOf _ _ backupTime hmarshals)⟩
  have hyears : ∀ i < 3, FourDigits (1710072000000 / msPerDay - (i : Nat)) := by decide +kernel
  exact hyears i hi

/-- A zone that is an hour ahead, and two from the last Sunday of March 2026, one
    o'clock in UTC, on. -/
def springZone : Zone where
  offset t := if t < 1774746000000 then 3600000 else 7200000
  bound t := by
    unfold msPerDay
    split <;> omega

/-- In the last half hour of that Sunday in UTC. -/
def springNight : Int := 1774827000000

theorem springZone_offsetAt (i : Nat) (hi : i < 2) :
    springZone.offsetAt (springZone.localTime springNight - i * msPerDay) =
      if i = 0 then 7200000 else 3600000 := by
  have hlocal : ∀ u, springZone.localTime u =
      u + if u < 1774746000000 then 3600000 else 7200000 := fun _ => rfl
  have hoffset : ∀ u, springZone.offset u = if u < 1774746000000 then 3600000 else 7200000 :=
    fun _ => rfl
  rw [Zone.offsetAt_of_first springZone _
    (springNight - i * msPerDay + if i = 0 then 0 else 3600000)]
  · rw [hoffset]
    unfold springNight msPerDay
    split <;> split <;> omega
  · simp only [hlocal]
    unfold springNight msPerDay
    split <;> split <;> split <;> omega
  · intro v hv
    simp only [hlocal]
    unfold springNight msPerDay at *
    split <;> split <;> split at hv <;> omega

/-- Half past one on Monday is in summer time, and on Sunday in winter time. -/
theorem sameClock_springNight (i : Nat) (hi : i < 2) :
    sameClock springZone springNight i = if i = 0 then 1774827000000 else 1774744200000 := by
  rw [sameClock, Zone.utc, springZone_offsetAt i hi]
  have hlocal : springZone.localTime springNight = 1774834200000 := by decide
  rw [hlocal]
  unfold msPerDay
  split <;> omega

/-- Both are on that Sunday in UTC, and the bucket set first is replaced. -/
theorem bucketJobsByDay_springNight :
    bucketJobsByDay toISOString springZone springNight [] 2 =
      some [dayBucket toISOString 1774827000000] := by
  have hempty := (foldlM_setDate toISOString springZone springNight [1, 0] Table.empty _).mpr
    ⟨fun i hi => ?_, rfl⟩
  · rw [List.map_cons, List.map_cons, List.map_nil, sameClock_springNight 1 (by decide),
      sameClock_springNight 0 (by decide)] at hempty
    refine (congrArg (Option.map _) hempty).trans (congrArg some ?_)
    decide +kernel
  · have hlt : i < 2 := by
      rcases List.mem_cons.mp hi with rfl | hi
      · decide
      · rw [List.mem_singleton.mp hi]
        decide
    rw [sameClock_springNight i hlt]
    split <;> decide

/-- The day before has the date of that Sunday too: of a chart of two days one
    bucket is lost. -/
theorem not_charted_springNight :
    (∃ b, bucketJobsByDay toISOString springZone springNight [] 2 = some [b] ∧
      b.date = "2026-03-29") ∧
    ¬ Charted toISOString springZone springNight 2 (fun _ => 0) [] := by
  refine ⟨⟨_, bucketJobsByDay_springNight, by decide +kernel⟩, ?_⟩
  rintro ⟨buckets, hbuckets, hdates, _⟩
  rw [bucketJobsByDay_springNight] at hbuckets
  cases hbuckets
  -- One bucket cannot have the dates of two days.
  have hlen := congrArg List.length hdates
  simp only [window, List.length_map, List.length_reverse, List.length_range,
    List.length_singleton] at hlen
  omega

end Web

end Bop
