import Bop.Api.Handlers
import Bop.Text.Rfc3339

/-!
# The Order of Jobs in the Console

The console shows jobs with the newest first and finds that order by comparing
the texts of their times. The texts come from the server as `MarshalJSON`
writes them, and the comparison is the browser's `localeCompare`, a parameter
here: of it only the order of digits, of the period and of the `Z` is used.

Texts of times are compared byte by byte by every such function, and a time
without a fraction is then put after the times of the same second that have
one. So the order is the order of times exactly when no listed time's fraction
begins the fraction of a later one.

## Main definitions

* `Job`: `interface Job`, and `ofSummary` what the server sends of one.
* `Before`, `Collates`: What is known of `localeCompare`.
* `newestFirst`, `recentJobs`: The two sorts.
* `Chronological`: Newest first by time.

## Theorems

* `aligned_rfc3339Nano`: Two texts of times differ first where both have digits
  or one has a `Z`.
* `localeCompare_iff`: On texts of times `localeCompare` is the order of bytes.
* `pairwise_mergeSort_iff`: When a sorted list is sorted by another relation.
* `chronological_iff`: When the jobs are shown newest first.
-/

namespace Bop

namespace Web

/-- `interface Job`. A time is the text the server sent. -/
structure Job where
  id : Bytes
  host : Bytes
  plugin : Bytes
  policy : Policy
  status : Bytes
  queuedAt : Bytes

/-- What the console reads of a job that the server sends. -/
def ofSummary (job : Api.JobSummary) : Job :=
  ⟨job.id, job.host, job.plugin, job.policy, job.status, rfc3339Nano job.queuedAt⟩

/-- The jobs of a response. -/
def received (jobs : List Bop.Job) : List Job :=
  jobs.map (fun job => ofSummary (Api.newJobSummary job))

/-! ### The comparison of texts -/

/-- One byte sorts before another: digits in numeric order, and digits and the
    period before the letter. -/
def Before (c d : UInt8) : Prop :=
  (Json.isDigit c = true ∧ Json.isDigit d = true ∧ c < d) ∨
    ((c = 46 ∨ Json.isDigit c = true) ∧ d = 90)

/-- The bytes of the texts of times. -/
def StampByte (b : UInt8) : Prop := Json.isDigit b = true ∨ b ∈ ("-.:TZ" : Bytes)

/-- What is known of `localeCompare`: texts of times are compared where they
    first differ. -/
structure Collates (localeCompare : Bytes → Bytes → Int) : Prop where
  same : ∀ s, localeCompare s s = 0
  before : ∀ p c d x y, Before c d → (∀ b ∈ p ++ c :: x, StampByte b) →
    (∀ b ∈ p ++ d :: y, StampByte b) → localeCompare (p ++ c :: x) (p ++ d :: y) < 0
  after : ∀ p c d x y, Before c d → (∀ b ∈ p ++ c :: x, StampByte b) →
    (∀ b ∈ p ++ d :: y, StampByte b) → 0 < localeCompare (p ++ d :: y) (p ++ c :: x)

/-- The sort of `JobsPage`. -/
def newestFirst (localeCompare : Bytes → Bytes → Int) (jobs : List Job) : List Job :=
  -- `Array.prototype.sort` is stable, as a merge sort is.
  jobs.mergeSort (fun a b => localeCompare b.queuedAt a.queuedAt ≤ 0)

/-- `recentJobs` of `DashboardPage`. -/
def recentJobs (localeCompare : Bytes → Bytes → Int) (jobs : List Job) : List Job :=
  (newestFirst localeCompare jobs).take 8

/-- Two texts are the same, or the bytes where they first differ have an order. -/
def Aligned (s t : Bytes) : Prop :=
  s = t ∨ ∃ p c d x y, s = p ++ c :: x ∧ t = p ++ d :: y ∧ (Before c d ∨ Before d c)

theorem aligned_cons (c : UInt8) (s t : Bytes) (h : Aligned s t) : Aligned (c :: s) (c :: t) := by
  rcases h with rfl | ⟨p, d, e, x, y, rfl, rfl, h⟩
  · exact Or.inl rfl
  · exact Or.inr ⟨c :: p, d, e, x, y, rfl, rfl, h⟩

/-- Digits that differ have an order. -/
theorem before_of_digits (c d : UInt8) (hc : Json.isDigit c = true) (hd : Json.isDigit d = true)
    (h : c ≠ d) : Before c d ∨ Before d c := by
  rcases UInt8.lt_or_lt_of_ne h with hlt | hlt
  · exact Or.inl (Or.inl ⟨hc, hd, hlt⟩)
  · exact Or.inr (Or.inl ⟨hd, hc, hlt⟩)

/-- Texts that begin with as many digits. -/
theorem aligned_digits (a b x y : Bytes) (ha : ∀ c ∈ a, Json.isDigit c = true)
    (hb : ∀ c ∈ b, Json.isDigit c = true) (hlen : a.length = b.length) (h : Aligned x y) :
    Aligned (a ++ x) (b ++ y) := by
  induction a generalizing b with
  | nil =>
      cases List.eq_nil_of_length_eq_zero hlen.symm
      exact h
  | cons c a ih => cases b with
    | nil => cases hlen
    | cons d b =>
        by_cases hcd : c = d
        · subst hcd
          exact aligned_cons c _ _ (ih b (fun e he => ha e (List.mem_cons_of_mem c he))
            (fun e he => hb e (List.mem_cons_of_mem c he)) (Nat.succ.inj hlen))
        · -- They first differ in the two digits at the front.
          exact Or.inr ⟨[], c, d, a ++ x, b ++ y, rfl, rfl,
            before_of_digits c d (ha c List.mem_cons_self) (hb d List.mem_cons_self) hcd⟩

/-- Two numerals of one width and what follows them. -/
theorem aligned_padDigits (width n m : Nat) (x y : Bytes) (h : Aligned x y) :
    Aligned (padDigits width n ++ x) (padDigits width m ++ y) :=
  aligned_digits _ _ x y (isDigit_padDigits width n) (isDigit_padDigits width m)
    (by simp only [length_padDigits]) h

/-- Digits up to a `Z`, of which one text may have more. -/
theorem aligned_zone (a b : Bytes) (ha : ∀ c ∈ a, Json.isDigit c = true)
    (hb : ∀ c ∈ b, Json.isDigit c = true) : Aligned (a ++ [90]) (b ++ [90]) := by
  induction a generalizing b with
  | nil => cases b with
    | nil => exact Or.inl rfl
    | cons d b => exact Or.inr ⟨[], 90, d, [], b ++ [90], rfl, rfl,
        Or.inr (Or.inr ⟨Or.inr (hb d List.mem_cons_self), rfl⟩)⟩
  | cons c a ih => cases b with
    -- The first text goes on where the other has its letter.
    | nil => exact Or.inr ⟨[], c, 90, a ++ [90], [], rfl, rfl,
        Or.inl (Or.inr ⟨Or.inr (ha c List.mem_cons_self), rfl⟩)⟩
    | cons d b =>
        by_cases hcd : c = d
        · subst hcd
          exact aligned_cons c _ _ (ih b (fun e he => ha e (List.mem_cons_of_mem c he))
            (fun e he => hb e (List.mem_cons_of_mem c he)))
        · exact Or.inr ⟨[], c, d, a ++ [90], b ++ [90], rfl, rfl,
            before_of_digits c d (ha c List.mem_cons_self) (hb d List.mem_cons_self) hcd⟩

theorem isDigit_trimZeros (n : Nat) :
    ∀ c ∈ trimZeros (padDigits 9 n), Json.isDigit c = true :=
  fun c hc => isDigit_padDigits 9 n c (mem_of_mem_trimZeros _ c hc)

/-- Fractions of a second, either of which may be left out. -/
theorem aligned_fraction (n m : Nat) : Aligned (fraction n ++ "Z") (fraction m ++ "Z") := by
  have hn := isDigit_trimZeros n
  have hm := isDigit_trimZeros m
  unfold fraction
  split_ifs with hn₀ hm₀ hm₀
  · exact Or.inl rfl
  · -- One has a period where the other ends in its letter.
    exact Or.inr ⟨[], 90, 46, [], _, rfl, rfl, Or.inr (Or.inr ⟨Or.inl rfl, rfl⟩)⟩
  · exact Or.inr ⟨[], 46, 90, _, [], rfl, rfl, Or.inl (Or.inr ⟨Or.inl rfl, rfl⟩)⟩
  · exact aligned_cons 46 _ _ (aligned_zone _ _ hn hm)

/-- Two texts of times differ first where both have digits or one has a `Z`. -/
theorem aligned_rfc3339Nano (t u : Time) : Aligned (rfc3339Nano t) (rfc3339Nano u) := by
  unfold rfc3339Nano isoDate dateText clockText
  simp only [List.append_assoc]
  -- Year, month, day, hour, minute and second have fixed widths.
  refine aligned_padDigits 4 _ _ _ _ (aligned_cons 45 _ _ ?_)
  refine aligned_padDigits 2 _ _ _ _ (aligned_cons 45 _ _ ?_)
  refine aligned_padDigits 2 _ _ _ _ (aligned_cons 84 _ _ ?_)
  refine aligned_padDigits 2 _ _ _ _ (aligned_cons 58 _ _ ?_)
  refine aligned_padDigits 2 _ _ _ _ (aligned_cons 58 _ _ ?_)
  exact aligned_padDigits 2 _ _ _ _ (aligned_fraction _ _)

theorem stampByte_padDigits (width n : Nat) : ∀ b ∈ padDigits width n, StampByte b :=
  fun b hb => Or.inl (isDigit_padDigits width n b hb)

/-- The text of a time is made of digits and the bytes of the layout. -/
theorem stampByte_rfc3339Nano (t : Time) : ∀ b ∈ rfc3339Nano t, StampByte b := by
  have hsep : ∀ b ∈ ("-.:TZ" : Bytes), StampByte b := fun b hb => Or.inr hb
  have hfraction : ∀ b ∈ fraction (nanosecond t), StampByte b := by
    unfold fraction
    split
    · exact fun b hb => absurd hb List.not_mem_nil
    · intro b hb
      rcases List.mem_cons.mp hb with rfl | hb
      · exact hsep 46 (by decide)
      · exact Or.inl (isDigit_trimZeros _ b hb)
  unfold rfc3339Nano isoDate dateText clockText
  simp only [List.forall_mem_append]
  -- What stands between the numerals is one byte each.
  have hlit : ∀ b ∈ ("-" : Bytes) ++ "T" ++ ":" ++ "Z", StampByte b :=
    fun b hb => hsep b ((by decide +kernel : ∀ b ∈ ("-" : Bytes) ++ "T" ++ ":" ++ "Z",
      b ∈ ("-.:TZ" : Bytes)) b hb)
  simp only [List.forall_mem_append] at hlit
  rcases hlit with ⟨⟨⟨hdash, hT⟩, hcolon⟩, hZ⟩
  have hpad := stampByte_padDigits
  exact ⟨⟨⟨⟨⟨⟨⟨⟨hpad _ _, hdash⟩, hpad _ _⟩, hdash⟩, hpad _ _⟩, hT⟩,
    ⟨⟨⟨⟨hpad _ _, hcolon⟩, hpad _ _⟩, hcolon⟩, hpad _ _⟩⟩, hfraction⟩, hZ⟩

/-- A byte that sorts before another is smaller. -/
theorem lt_of_before (c d : UInt8) (h : Before c d) : c < d := by
  rcases h with ⟨-, -, hlt⟩ | ⟨rfl | hc, rfl⟩
  · exact hlt
  · decide
  · exact digit_lt_zone c hc

theorem append_cons_lt (p x y : Bytes) (c d : UInt8) (h : c < d) : p ++ c :: x < p ++ d :: y :=
  List.append_left_lt (List.cons_lt_cons_iff.mpr (Or.inl h))

variable {localeCompare : Bytes → Bytes → Int}

/-- On texts of times `localeCompare` is the order of bytes. -/
theorem localeCompare_iff (hcmp : Collates localeCompare) (t u : Time) :
    localeCompare (rfc3339Nano t) (rfc3339Nano u) ≤ 0 ↔ rfc3339Nano t ≤ rfc3339Nano u := by
  have ht := stampByte_rfc3339Nano t
  have hu := stampByte_rfc3339Nano u
  rcases aligned_rfc3339Nano t u with heq | ⟨p, c, d, x, y, hs, hs', h⟩
  · rw [heq, hcmp.same]
    exact iff_of_true (Int.le_refl 0) (List.lt_irrefl _)
  · rw [hs] at ht ⊢
    rw [hs'] at hu ⊢
    rcases h with h | h
    · -- What first differs decides both orders, and in the same way.
      refine iff_of_true (Int.le_of_lt (hcmp.before p c d x y h ht hu)) ?_
      exact List.lt_asymm (append_cons_lt p x y c d (lt_of_before c d h))
    · refine iff_of_false (Int.not_le.mpr (hcmp.after p d c y x h hu ht)) ?_
      exact fun hle => hle (append_cons_lt p y x d c (lt_of_before d c h))

/-! ### The sort -/

/-- A list sorted by `le` is sorted by a relation exactly when `le` implies the
    relation on its elements, if elements that `le` does not tell apart are
    related. -/
theorem pairwise_mergeSort_iff {α : Type} (le : α → α → Bool) (R : α → α → Prop)
    (htrans : ∀ a b c, le a b = true → le b c = true → le a c = true)
    (htotal : ∀ a b, (le a b || le b a) = true)
    (l : List α) (htie : ∀ a ∈ l, ∀ b ∈ l, le a b = true → le b a = true → R a b) :
    (l.mergeSort le).Pairwise R ↔ ∀ a ∈ l, ∀ b ∈ l, le a b = true → R a b := by
  have hsorted := List.pairwise_mergeSort htrans htotal l
  have hmem : ∀ a, a ∈ l.mergeSort le ↔ a ∈ l := fun a => List.mem_mergeSort
  constructor
  · intro hR a ha b hb hab
    -- Either place of the two in the sorted list settles it.
    have hrel : a = b ∨ (le a b = true ∧ R a b) ∨ (le b a = true ∧ R b a) := by
      have hboth : (l.mergeSort le).Pairwise (fun a b => le a b = true ∧ R a b) := hsorted.and hR
      rcases List.getElem_of_mem ((hmem a).mpr ha) with ⟨i, hi, rfl⟩
      rcases List.getElem_of_mem ((hmem b).mpr hb) with ⟨j, hj, rfl⟩
      rw [List.pairwise_iff_getElem] at hboth
      rcases Nat.lt_trichotomy i j with hij | rfl | hij
      · exact Or.inr (Or.inl (hboth i j hi hj hij))
      · exact Or.inl rfl
      · exact Or.inr (Or.inr (hboth j i hj hi hij))
    rcases hrel with rfl | ⟨-, h⟩ | ⟨hba, -⟩
    · exact htie a ha a ha hab hab
    · exact h
    · -- The other one comes first, so `le` cannot tell them apart.
      exact htie a ha b hb hab hba
  · intro h
    refine hsorted.imp_of_mem (fun {a b} ha hb hab => ?_)
    exact h a ((hmem a).mp ha) b ((hmem b).mp hb) hab

/-- The time of a job is not before the time of another. -/
def NoEarlier (a b : Job) : Prop :=
  ∀ t u, Marshals t → Marshals u → a.queuedAt = rfc3339Nano t → b.queuedAt = rfc3339Nano u → u ≤ t

/-- Newest first by time. -/
def Chronological (jobs : List Job) : Prop := jobs.Pairwise NoEarlier

/-- On jobs that the server sends, the sort is the descending order of bytes. -/
theorem newestFirst_received (hcmp : Collates localeCompare) (jobs : List Bop.Job) :
    newestFirst localeCompare (received jobs) =
      (received jobs).mergeSort (fun a b => Api.bytesLE b.queuedAt a.queuedAt) := by
  have hagree : ∀ a ∈ received jobs, ∀ b ∈ received jobs,
      decide (localeCompare b.queuedAt a.queuedAt ≤ 0) = Api.bytesLE b.queuedAt a.queuedAt := by
    intro a ha b hb
    rcases List.mem_map.mp ha with ⟨j, -, rfl⟩
    rcases List.mem_map.mp hb with ⟨k, -, rfl⟩
    exact decide_eq_decide.mpr (localeCompare_iff hcmp k.queuedAt j.queuedAt)
  -- So a merge of either makes the same choices.
  have hmap : (newestFirst localeCompare (received jobs)).map id =
      ((received jobs).map id).mergeSort (fun a b => Api.bytesLE b.queuedAt a.queuedAt) :=
    List.map_mergeSort hagree
  rwa [List.map_id, List.map_id] at hmap

/-- Of two texts of times, the one that does not come later is of a time that
    is not later, exactly when neither fraction gets in the way. -/
theorem le_of_text_iff (t u : Time) (ht : Marshals t) (hu : Marshals u) :
    (rfc3339Nano u ≤ rfc3339Nano t → u ≤ t) ↔ ¬ (t < u ∧ FractionBegins t u) := by
  constructor
  · rintro h ⟨hlt, hbegins⟩
    -- The earlier time has the later text, and would have to be the later time.
    have htext := (rfc3339Nano_lt t u ht hu hlt).1 hbegins
    exact absurd (h (List.lt_asymm htext)) (Int.not_le.mpr hlt)
  · intro hnot htext
    by_contra hle
    have hlt : t < u := Int.not_le.mp hle
    exact htext ((rfc3339Nano_lt t u ht hu hlt).2 (fun hbegins => hnot ⟨hlt, hbegins⟩))

/-- Different times have different texts. -/
theorem rfc3339Nano_inj (t u : Time) (ht : Marshals t) (hu : Marshals u)
    (h : rfc3339Nano t = rfc3339Nano u) : t = u := by
  have hne : ∀ t u : Time, Marshals t → Marshals u → t < u → rfc3339Nano t ≠ rfc3339Nano u := by
    intro t u ht hu hlt heq
    have horder := rfc3339Nano_lt t u ht hu hlt
    rw [heq] at horder
    -- The texts have an order, whichever it is.
    by_cases hbegins : FractionBegins t u
    · exact List.lt_irrefl _ (horder.1 hbegins)
    · exact List.lt_irrefl _ (horder.2 hbegins)
  rcases Int.lt_trichotomy t u with hlt | heq | hlt
  · exact absurd h (hne t u ht hu hlt)
  · exact heq
  · exact absurd h.symm (hne u t hu ht hlt)

theorem noEarlier_iff (a b : Bop.Job) (ha : Marshals a.queuedAt) (hb : Marshals b.queuedAt) :
    NoEarlier (ofSummary (Api.newJobSummary a)) (ofSummary (Api.newJobSummary b)) ↔
      b.queuedAt ≤ a.queuedAt := by
  constructor
  · exact fun h => h _ _ ha hb rfl rfl
  · intro h t u ht hu htext htext'
    -- A text is that of one time only.
    rwa [← rfc3339Nano_inj a.queuedAt t ha ht htext, ← rfc3339Nano_inj b.queuedAt u hb hu htext']

/-- The jobs are shown newest first exactly when no job's fraction of a second
    begins the fraction of a later job of the same second. -/
theorem chronological_newestFirst (hcmp : Collates localeCompare) (jobs : List Bop.Job)
    (hmarshals : ∀ job ∈ jobs, Marshals job.queuedAt) :
    Chronological (newestFirst localeCompare (received jobs)) ↔
      ∀ a ∈ jobs, ∀ b ∈ jobs,
        ¬ (a.queuedAt < b.queuedAt ∧ FractionBegins a.queuedAt b.queuedAt) := by
  rw [newestFirst_received hcmp, Chronological, pairwise_mergeSort_iff]
  · -- The order of texts against the order of times, for the jobs of the list.
    simp only [received, List.forall_mem_map]
    refine forall₂_congr fun a ha => forall₂_congr fun b hb => ?_
    rw [noEarlier_iff a b (hmarshals a ha) (hmarshals b hb),
      ← le_of_text_iff _ _ (hmarshals a ha) (hmarshals b hb)]
    exact imp_congr_left decide_eq_true_iff
  · -- The order of texts is transitive and total.
    intro a b c hab hbc
    exact decide_eq_true (List.le_trans (of_decide_eq_true hbc) (of_decide_eq_true hab))
  · intro a b
    rw [Bool.or_eq_true]
    exact (List.le_total b.queuedAt a.queuedAt).imp decide_eq_true decide_eq_true
  · -- Jobs with one text were queued at one time.
    intro a _ b _ hab hba t u ht hu htext htext'
    have heq := List.le_antisymm (of_decide_eq_true hba) (of_decide_eq_true hab)
    rw [htext, htext'] at heq
    exact Int.le_of_eq (rfc3339Nano_inj t u ht hu heq).symm

/-- In a chronological list the first eight are the latest. -/
theorem latest_of_chronological (jobs : List Job) (h : Chronological jobs) :
    ∀ a ∈ jobs.take 8, ∀ b ∈ jobs.drop 8, NoEarlier a b := by
  rw [Chronological, ← List.take_append_drop 8 jobs, List.pairwise_append] at h
  exact h.2.2

/-- The jobs are shown newest first, and the eight recent ones are the eight
    latest, exactly when no job's fraction of a second begins the fraction of a
    later job of the same second. -/
theorem chronological_iff (hcmp : Collates localeCompare) (jobs : List Bop.Job)
    (hmarshals : ∀ job ∈ jobs, Marshals job.queuedAt) :
    (Chronological (newestFirst localeCompare (received jobs)) ∧
      ∀ a ∈ recentJobs localeCompare (received jobs),
        ∀ b ∈ (newestFirst localeCompare (received jobs)).drop 8, NoEarlier a b) ↔
      ∀ a ∈ jobs, ∀ b ∈ jobs,
        ¬ (a.queuedAt < b.queuedAt ∧ FractionBegins a.queuedAt b.queuedAt) := by
  rw [← chronological_newestFirst hcmp jobs hmarshals]
  -- What is in order from front to back has its latest in front.
  exact and_iff_left_of_imp (latest_of_chronological _)

/-! ### A whole second and a half -/

/-- The order of bytes as a comparison. -/
def byteCompare (s t : Bytes) : Int := if s < t then -1 else if t < s then 1 else 0

theorem collates_byteCompare : Collates byteCompare where
  same := fun s => by
    rw [byteCompare, if_neg (List.lt_irrefl s), if_neg (List.lt_irrefl s)]
  before := fun p c d x y h _ _ => by
    rw [byteCompare, if_pos (append_cons_lt p x y c d (lt_of_before c d h))]
    decide
  after := fun p c d x y h _ _ => by
    have hlt := append_cons_lt p x y c d (lt_of_before c d h)
    rw [byteCompare, if_neg (List.lt_asymm hlt), if_pos hlt]
    decide

/-- A job queued at a time. -/
def queuedJob (t : Time) : Bop.Job := newJob "web" "postgres" ⟨7, 4, 0, 0⟩ t t

/-- Two jobs with fractions that do not begin each other are in order. -/
theorem chronological_quarters :
    Chronological (newestFirst byteCompare
      (received [queuedJob 1767225625250000000, queuedJob 1767225625750000000])) :=
  ((chronological_iff collates_byteCompare
    [queuedJob 1767225625250000000, queuedJob 1767225625750000000]
    (by decide +kernel)).mpr (by decide +kernel)).1

/-- A job of a whole second is shown as newer than one queued half a second
    after it. -/
theorem not_chronological_half :
    Collates byteCompare ∧
      (∀ job ∈ [queuedJob 1767225625000000000, queuedJob 1767225625500000000],
        Marshals job.queuedAt) ∧
      ¬ Chronological (newestFirst byteCompare
        (received [queuedJob 1767225625000000000, queuedJob 1767225625500000000])) := by
  have hmarshals : ∀ job ∈ [queuedJob 1767225625000000000, queuedJob 1767225625500000000],
      Marshals job.queuedAt := by decide +kernel
  refine ⟨collates_byteCompare, hmarshals, ?_⟩
  rw [chronological_newestFirst collates_byteCompare _ hmarshals]
  decide +kernel

end Web

end Bop
