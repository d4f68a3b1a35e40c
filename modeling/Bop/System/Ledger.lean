import Bop.Core
import Mathlib.Data.Multiset.UnionInter
import Mathlib.Logic.Relation

/-!
# The Ledger of Jobs

What the queue, the threads and the rows are for, with everything else left
out: a job is a key with a stored status, and somebody may hold a claim to it.
A claim is a promise that its holder is the only one who will run the job, and
it says how far the holder is. The ledger has no threads and no programs, so
one step of it is one thing that may happen to a claim or to a row.

The invariant ties the two together. Claims are to distinct jobs, the phase of
a claim determines the stored status of its job, and a job whose pipeline was
begun is never queued again. Nothing about a row alone would do: the update of
a status asks for no status before.

## Main definitions

* `Phase`: How far the holder of a claim is.
* `Ledger`, `Ledger.Step`: Rows, claims and what may happen to them.
* `Ledger.Inv`: The invariant.
* `Edge`: What a step may do to a stored status.

## Theorems

* `step_inv`: A step keeps the invariant.
* `step_edge`: A step moves every status along an edge.
* `steps_inv`: A run keeps the invariant.
* `edges_terminal`, `edges_isSome`: A final status is final, and a row stays.
-/

namespace Bop

/-- How far the holder of a job is with it. -/
inductive Phase
  /-- The job is queued and nothing has been written. -/
  | waiting
  /-- The job is marked in progress. -/
  | marked
  /-- The pipeline has begun. -/
  | running
  /-- Nothing more will be written. -/
  | closed
  deriving DecidableEq

variable {Key : Type}

/-- Stored statuses, claims and the jobs whose pipeline was begun. -/
structure Ledger (Key : Type) where
  status : Key → Option JobStatus
  claims : Multiset (Key × Phase)
  begun : Multiset Key

/-- What a step may do to the stored status of one job. -/
inductive Edge : Option JobStatus → Option JobStatus → Prop
  | stay (st : Option JobStatus) : Edge st st
  | create : Edge none (some .queued)
  | mark : Edge (some .queued) (some .inProgress)
  | complete : Edge (some .inProgress) (some .completed)
  | fail : Edge (some .inProgress) (some .failed)

/-- A status no job leaves. -/
def JobStatus.terminal : JobStatus → Bool
  | .completed | .failed => true
  | .queued | .inProgress => false

/-- A row stays. -/
theorem edges_isSome (a b : Option JobStatus) (h : Relation.ReflTransGen Edge a b)
    (ha : a.isSome) : b.isSome := by
  induction h with
  | refl => exact ha
  | tail _ hedge ih =>
      cases hedge with
      | stay st => exact ih
      | _ => rfl

/-- A final status is final. -/
theorem edges_terminal (a b : Option JobStatus) (h : Relation.ReflTransGen Edge a b)
    (st : JobStatus) (hst : st.terminal = true) (ha : a = some st) : b = some st := by
  induction h with
  | refl => exact ha
  | tail _ hedge ih =>
      cases hedge with
      | stay st => exact ih
      | create => cases ih
      | mark => cases ih; cases hst
      | complete => cases ih; cases hst
      | fail => cases ih; cases hst

/-- What recovery makes of a status. -/
def failActive (st : JobStatus) : JobStatus := if st = .inProgress then .failed else st

namespace Ledger

/-- The keys that are claimed. -/
def claimed (l : Ledger Key) : Multiset Key := l.claims.map Prod.fst

/-- What the phase of a claim says about its job. -/
def Held (l : Ledger Key) (k : Key) : Phase → Prop
  | .waiting => l.status k = some .queued
  | .marked => l.status k = some .inProgress ∧ k ∉ l.begun
  | .running => l.status k = some .inProgress
  | .closed => (l.status k).isSome

/-- The invariant. -/
structure Inv (l : Ledger Key) : Prop where
  /-- No job is claimed twice. -/
  nodup : l.claimed.Nodup
  /-- The phase of a claim agrees with the row. -/
  held : ∀ k p, (k, p) ∈ l.claims → l.Held k p
  /-- No pipeline was begun twice. -/
  begunNodup : l.begun.Nodup
  /-- A job whose pipeline was begun has a row and is not queued. -/
  begunMoved : ∀ k ∈ l.begun, (l.status k).isSome ∧ l.status k ≠ some .queued

/-- Whatever its phase, a claimed job has a row. -/
theorem isSome_of_held (l : Ledger Key) (k : Key) (p : Phase) (h : l.Held k p) :
    (l.status k).isSome := by
  cases p with
  | waiting => rw [show l.status k = _ from h]; rfl
  | marked => rw [h.1]; rfl
  | running => rw [show l.status k = _ from h]; rfl
  | closed => exact h

/-- A job without a row is not claimed and was not begun. -/
theorem free_of_none (l : Ledger Key) (hi : Inv l) (k : Key) (hk : l.status k = none) :
    (∀ p, (k, p) ∉ l.claims) ∧ k ∉ l.begun := by
  constructor
  · intro p hp
    have := l.isSome_of_held k p (hi.held k p hp)
    rw [hk] at this
    cases this
  · intro hb
    have := (hi.begunMoved k hb).1
    rw [hk] at this
    cases this

/-- The other claims when one is singled out: they are to other jobs. -/
theorem rest_of_cons (l : Ledger Key) (hi : Inv l) (k : Key) (p : Phase)
    (rest : Multiset (Key × Phase)) (h : l.claims = (k, p) ::ₘ rest) :
    k ∉ rest.map Prod.fst ∧ (rest.map Prod.fst).Nodup ∧
      ∀ k' p', (k', p') ∈ rest → k' ≠ k ∧ l.Held k' p' := by
  have hnodup := hi.nodup
  rw [claimed, h, Multiset.map_cons, Multiset.nodup_cons] at hnodup
  refine ⟨hnodup.1, hnodup.2, fun k' p' hmem => ⟨?_, hi.held k' p' ?_⟩⟩
  · rintro rfl
    exact hnodup.1 (Multiset.mem_map.mpr ⟨(k', p'), hmem, rfl⟩)
  · rw [h]
    exact Multiset.mem_cons_of_mem hmem

/-- The holder of one claim moves it to another phase. The other claims are
    not affected. -/
theorem inv_rephase (l : Ledger Key) (hi : Inv l) (k : Key) (p p' : Phase)
    (rest : Multiset (Key × Phase)) (h : l.claims = (k, p) ::ₘ rest) (hheld : l.Held k p') :
    Inv { l with claims := (k, p') ::ₘ rest } := by
  rcases l.rest_of_cons hi k p rest h with ⟨hk, hrest, hother⟩
  refine ⟨?_, ?_, hi.begunNodup, hi.begunMoved⟩
  · rw [claimed, Multiset.map_cons, Multiset.nodup_cons]
    exact ⟨hk, hrest⟩
  · intro k' q hmem
    rcases Multiset.mem_cons.mp hmem with heq | hmem
    · cases heq
      cases p' <;> exact hheld
    · have := (hother k' q hmem).2
      cases q <;> exact this

/-- Claims to jobs that are queued and free. -/
theorem inv_claim (l : Ledger Key) (hi : Inv l) (ks : Multiset Key) (hnodup : ks.Nodup)
    (hqueued : ∀ k ∈ ks, l.status k = some .queued) (hfree : Disjoint ks l.claimed) :
    Inv { l with claims := ks.map (fun k => (k, .waiting)) + l.claims } := by
  refine ⟨?_, ?_, hi.begunNodup, hi.begunMoved⟩
  · rw [claimed, Multiset.map_add, Multiset.map_map]
    simp only [Function.comp_def, Multiset.map_id']
    exact Multiset.nodup_add.mpr ⟨hnodup, hi.nodup, hfree⟩
  · intro k p hmem
    rcases Multiset.mem_add.mp hmem with hmem | hmem
    · rcases Multiset.mem_map.mp hmem with ⟨k', hk', heq⟩
      cases heq
      exact hqueued k hk'
    · have := hi.held k p hmem
      cases p <;> exact this

/-- Recovery writes to rows nobody is running. -/
theorem inv_orphan (l : Ledger Key) (hi : Inv l)
    (h : ∀ k p, (k, p) ∈ l.claims → p ≠ .marked ∧ p ≠ .running) :
    Inv { l with status := fun k => (l.status k).map failActive } := by
  refine ⟨hi.nodup, ?_, hi.begunNodup, ?_⟩
  · intro k p hmem
    have hheld := hi.held k p hmem
    -- A claim that waits is for a queued row, which is not touched, and a closed one asks for a row
    -- only.
    cases p with
    | waiting =>
        change (l.status k).map failActive = some .queued
        rw [show l.status k = some .queued from hheld]
        rfl
    | marked => exact absurd rfl (h k _ hmem).1
    | running => exact absurd rfl (h k _ hmem).2
    | closed =>
        change ((l.status k).map failActive).isSome
        rw [Option.isSome_map]
        exact hheld
  · intro k hk
    rcases hi.begunMoved k hk with ⟨hsome, hne⟩
    refine ⟨by rw [Option.isSome_map]; exact hsome, ?_⟩
    change (l.status k).map failActive ≠ some .queued
    cases hst : l.status k with
    | none => decide
    | some st =>
        rw [hst] at hne
        cases st with
        | queued => exact absurd rfl hne
        | _ => decide

variable [DecidableEq Key]

/-- One thing that may happen. -/
inductive Step : Ledger Key → Ledger Key → Prop
  /-- A row is created, and nobody claims it. -/
  | create (l : Ledger Key) (k : Key) (hk : l.status k = none) :
      Step l { l with status := Function.update l.status k (some .queued) }
  /-- A claim to a row that was just created. -/
  | createClaim (l : Ledger Key) (k : Key) (hk : l.status k = none) :
      Step l { l with
        status := Function.update l.status k (some .queued)
        claims := (k, .waiting) ::ₘ l.claims }
  /-- Claims are given up. -/
  | drop (l : Ledger Key) (claims : Multiset (Key × Phase)) (h : claims ≤ l.claims) :
      Step l { l with claims := claims }
  /-- Jobs that are queued and that nobody claims are claimed. -/
  | claim (l : Ledger Key) (ks : Multiset Key) (hnodup : ks.Nodup)
      (hqueued : ∀ k ∈ ks, l.status k = some .queued) (hfree : Disjoint ks l.claimed) :
      Step l { l with claims := ks.map (fun k => (k, .waiting)) + l.claims }
  /-- The holder of a claim marks its job, and may have to stop there. -/
  | mark (l : Ledger Key) (k : Key) (p : Phase) (rest : Multiset (Key × Phase))
      (hp : p = .marked ∨ p = .closed) (h : l.claims = (k, .waiting) ::ₘ rest) :
      Step l { l with
        status := Function.update l.status k (some .inProgress)
        claims := (k, p) ::ₘ rest }
  /-- The holder begins the pipeline. -/
  | begin (l : Ledger Key) (k : Key) (rest : Multiset (Key × Phase))
      (h : l.claims = (k, .marked) ::ₘ rest) :
      Step l { l with claims := (k, .running) ::ₘ rest, begun := k ::ₘ l.begun }
  /-- The holder records how its job ended. -/
  | finish (l : Ledger Key) (k : Key) (rest : Multiset (Key × Phase)) (st : JobStatus)
      (hst : st.terminal = true) (h : l.claims = (k, .running) ::ₘ rest) :
      Step l { l with
        status := Function.update l.status k (some st)
        claims := (k, .closed) ::ₘ rest }
  /-- The holder stops without recording anything. -/
  | abandon (l : Ledger Key) (k : Key) (p : Phase) (rest : Multiset (Key × Phase))
      (h : l.claims = (k, p) ::ₘ rest) :
      Step l { l with claims := (k, .closed) ::ₘ rest }
  /-- The jobs in progress that nobody is running are failed. -/
  | orphan (l : Ledger Key) (h : ∀ k p, (k, p) ∈ l.claims → p ≠ .marked ∧ p ≠ .running) :
      Step l { l with status := fun k => (l.status k).map failActive }

/-- What a claim says survives a write to another row. -/
theorem held_update (l : Ledger Key) (k k' : Key) (p : Phase) (st : Option JobStatus)
    (claims : Multiset (Key × Phase)) (hne : k' ≠ k) (h : l.Held k' p) :
    Held ⟨Function.update l.status k st, claims, l.begun⟩ k' p := by
  cases p <;> simpa only [Held, Function.update_of_ne hne] using h

/-- The same where the holder also writes to its own row. -/
theorem inv_move (l : Ledger Key) (hi : Inv l) (k : Key) (p p' : Phase)
    (rest : Multiset (Key × Phase)) (h : l.claims = (k, p) ::ₘ rest) (st : Option JobStatus)
    (hheld : Held ⟨Function.update l.status k st, (k, p') ::ₘ rest, l.begun⟩ k p')
    (hbegun : k ∈ l.begun → st.isSome ∧ st ≠ some .queued) :
    Inv ⟨Function.update l.status k st, (k, p') ::ₘ rest, l.begun⟩ := by
  rcases l.rest_of_cons hi k p rest h with ⟨hk, hrest, hother⟩
  refine ⟨?_, ?_, hi.begunNodup, ?_⟩
  · rw [claimed, Multiset.map_cons, Multiset.nodup_cons]
    exact ⟨hk, hrest⟩
  · intro k' q hmem
    rcases Multiset.mem_cons.mp hmem with heq | hmem
    · cases heq
      exact hheld
    · rcases hother k' q hmem with ⟨hne, hq⟩
      exact l.held_update k k' q st _ hne hq
  · intro k' hk'
    change (Function.update l.status k st k').isSome ∧ Function.update l.status k st k' ≠ _
    by_cases heq : k' = k
    · subst heq
      rw [Function.update_self]
      exact hbegun hk'
    · rw [Function.update_of_ne heq]
      exact hi.begunMoved k' hk'

/-- A new row is queued, and nothing that was said of the others changes. -/
theorem inv_create (l : Ledger Key) (hi : Inv l) (k : Key) (hk : l.status k = none) :
    Inv { l with status := Function.update l.status k (some .queued) } := by
  have ⟨hclaims, hbegun⟩ := l.free_of_none hi k hk
  refine ⟨hi.nodup, ?_, hi.begunNodup, ?_⟩
  · intro k' p hmem
    have hne : k' ≠ k := by
      rintro rfl
      exact hclaims p hmem
    exact l.held_update k k' p _ _ hne (hi.held k' p hmem)
  · intro k' hk'
    have hne : k' ≠ k := by
      rintro rfl
      exact hbegun hk'
    simp only [Function.update_of_ne hne]
    exact hi.begunMoved k' hk'

/-- A step keeps the invariant. -/
theorem step_inv (l l' : Ledger Key) (h : Step l l') (hi : Inv l) : Inv l' := by
  cases h with
  | create k hk => exact l.inv_create hi k hk
  | createClaim k hk =>
      have hfree := (l.free_of_none hi k hk).1
      have hi' := l.inv_create hi k hk
      refine inv_claim _ hi' {k} (Multiset.nodup_singleton k) ?_ ?_
      · intro k' hk'
        rw [Multiset.mem_singleton.mp hk']
        exact Function.update_self k _ _
      · rw [Multiset.disjoint_left]
        intro k' hk' hmem
        rcases Multiset.mem_map.mp hmem with ⟨⟨_, p⟩, hp, rfl⟩
        rw [Multiset.mem_singleton] at hk'
        subst hk'
        exact hfree p hp
  | drop claims h =>
      refine ⟨Multiset.nodup_of_le (Multiset.map_le_map h) hi.nodup, ?_, hi.begunNodup,
        hi.begunMoved⟩
      intro k p hmem
      have := hi.held k p (Multiset.mem_of_le h hmem)
      cases p <;> exact this
  | claim ks hnodup hqueued hfree => exact l.inv_claim hi ks hnodup hqueued hfree
  | mark k p rest hp h =>
      have hqueued : l.status k = some .queued :=
        hi.held k .waiting (h ▸ Multiset.mem_cons_self _ _)
      -- Its pipeline has not begun, for a job whose pipeline has is no longer queued.
      have hnew : k ∉ l.begun := fun hk => (hi.begunMoved k hk).2 hqueued
      have hself : Function.update l.status k (some .inProgress) k = some .inProgress :=
        Function.update_self k _ _
      refine l.inv_move hi k .waiting p rest h _ ?_ (fun hk => absurd hk hnew)
      rcases hp with rfl | rfl
      · exact ⟨hself, hnew⟩
      · exact Option.isSome_iff_exists.mpr ⟨_, hself⟩
  | begin k rest h =>
      have hheld : l.status k = some .inProgress ∧ k ∉ l.begun :=
        hi.held k .marked (h ▸ Multiset.mem_cons_self _ _)
      -- The claim changes its phase first, and then the pipeline counts as begun.
      have hi' := l.inv_rephase hi k .marked .running rest h hheld.1
      refine ⟨hi'.nodup, ?_, Multiset.nodup_cons.mpr ⟨hheld.2, hi.begunNodup⟩, ?_⟩
      · intro k' p hmem
        have hk' := hi'.held k' p hmem
        cases p with
        | marked =>
            refine ⟨hk'.1, fun hbegun => ?_⟩
            rcases Multiset.mem_cons.mp hbegun with rfl | hbegun
            · rcases Multiset.mem_cons.mp hmem with heq | hrest
              · cases heq
              · exact ((l.rest_of_cons hi k' _ rest h).2.2 k' _ hrest).1 rfl
            · exact hk'.2 hbegun
        | waiting => exact hk'
        | running => exact hk'
        | closed => exact hk'
      · intro k' hk'
        rcases Multiset.mem_cons.mp hk' with rfl | hk'
        · simp only [hheld.1]
          exact ⟨rfl, by simp only [ne_eq, Option.some.injEq, reduceCtorEq, not_false_eq_true]⟩
        · exact hi.begunMoved k' hk'
  | finish k rest st hst h =>
      refine l.inv_move hi k .running .closed rest h _ ?_ (fun _ => ⟨rfl, ?_⟩)
      · change (Function.update l.status k (some st) k).isSome
        rw [Function.update_self]
        rfl
      · rintro heq
        cases heq
        cases hst
  | abandon k p rest h =>
      have hheld := hi.held k p (h ▸ Multiset.mem_cons_self _ _)
      exact l.inv_rephase hi k p .closed rest h (l.isSome_of_held k p hheld)
  | orphan h => exact l.inv_orphan hi h

/-- A step moves every status along an edge. -/
theorem step_edge (l l' : Ledger Key) (h : Step l l') (hi : Inv l) (k : Key) :
    Edge (l.status k) (l'.status k) := by
  -- Only the row that is written can move.
  have hupdate : ∀ (k' : Key) (st : Option JobStatus), Edge (l.status k') st →
      Edge (l.status k) (Function.update l.status k' st k) := by
    intro k' st hedge
    by_cases heq : k = k'
    · subst heq
      rw [Function.update_self]
      exact hedge
    · rw [Function.update_of_ne heq]
      exact Edge.stay _
  cases h with
  | create k' hk => exact hupdate k' _ (hk ▸ Edge.create)
  | createClaim k' hk => exact hupdate k' _ (hk ▸ Edge.create)
  | drop claims h => exact Edge.stay _
  | claim ks hnodup hqueued hfree => exact Edge.stay _
  | mark k' p rest hp h =>
      have hqueued : l.status k' = some .queued :=
        hi.held k' .waiting (h ▸ Multiset.mem_cons_self _ _)
      exact hupdate k' _ (hqueued ▸ Edge.mark)
  | begin k' rest h => exact Edge.stay _
  | finish k' rest st hst h =>
      have hactive : l.status k' = some .inProgress :=
        hi.held k' .running (h ▸ Multiset.mem_cons_self _ _)
      refine hupdate k' _ ?_
      rw [hactive]
      cases st with
      | completed => exact Edge.complete
      | failed => exact Edge.fail
      | queued => cases hst
      | inProgress => cases hst
  | abandon k' p rest h => exact Edge.stay _
  | orphan h =>
      simp only
      cases hst : l.status k with
      | none => exact Edge.stay _
      | some st =>
          cases st with
          | inProgress => exact Edge.fail
          | _ => exact Edge.stay _

/-- A run keeps the invariant and moves every status along edges. -/
theorem steps_inv (l l' : Ledger Key) (h : Relation.ReflTransGen Step l l') (hi : Inv l) :
    Inv l' ∧ ∀ k, Relation.ReflTransGen Edge (l.status k) (l'.status k) := by
  induction h with
  | refl => exact ⟨hi, fun k => Relation.ReflTransGen.refl⟩
  | tail _ hstep ih =>
      exact ⟨step_inv _ _ hstep ih.1, fun k => (ih.2 k).tail (step_edge _ _ hstep ih.1 k)⟩

end Ledger

end Bop
