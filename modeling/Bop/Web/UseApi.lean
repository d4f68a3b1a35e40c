import Mathlib.Data.List.Nodup
import Bop.Text.Bytes

/-!
# Fetching in the Console

A page of the console gets its data through one hook. It fetches when the page
is mounted and whenever what the page depends on changes, and the page may ask
it to fetch again; such a load says that it is loading until its request has
settled. Beside that it may poll: a refresh fetches without a word, and only
replaces the data. Requests are numbered as they begin, and what settles is
dropped unless it is the newest.

So the data only ever gets newer. But a refresh that begins during a load makes
the load's request an old one, and what a refresh fetches never ends the
loading. The hook stays loading until the next load.

## Main definitions

* `Hook`: The state of the hook, with the requests in flight.
* `load`, `refresh`, `settle`: Its callbacks.
* `Event`, `step`: What happens to it.
* `Run`: A run, with the steps that it took.
* `Undisturbed`: No refresh began during the last load.
* `Settled`: The page has an answer.

## Theorems

* `step_does`: What a step does to the answer and to the requests.
* `ordered_run`: The data only gets newer.
* `tracked_run`, `answered_run`: When the hook is loading, and what it shows
  otherwise.
* `settled_iff`: A page that waits for no request has an answer exactly when no
  refresh began during the last load.
-/

namespace Bop

namespace Web

namespace UseApi

/-- The two callbacks that fetch. -/
inductive Callback
  | load
  | refresh
deriving DecidableEq

/-- A request: its number, what the page depended on in the render that made its
    callback, and the callback. -/
structure Call (D : Type) where
  id : Nat
  deps : D
  callback : Callback
deriving DecidableEq

/-- Why a request was rejected. -/
inductive Failure
  | apiError (message : Bytes)
  | other

/-- What is said of it. -/
def Failure.message : Failure → Bytes
  | .apiError message => message
  | .other => "Could not reach the controller."

/-- The state of the hook. The last four fields are its surroundings: the timer
    of `setInterval`, `document.hidden`, the renders whose `reload` somebody may
    hold, and the requests that have not settled, newest first. -/
structure Hook (T D : Type) where
  data : Option T
  error : Option Bytes
  loading : Bool
  requestId : Nat
  deps : D
  intervalMs : Option Nat
  timer : Bool
  hidden : Bool
  rendered : List D
  calls : List (Call D)

variable {T D : Type} [DecidableEq D]

/-- The page polls: `intervalMs` is given, and not 0. -/
def Hook.polls (s : Hook T D) : Bool := s.intervalMs.any (· ≠ 0)

/-- `load`, as the render with these dependencies made it. -/
def load (deps : D) (s : Hook T D) : Hook T D :=
  { s with
    requestId := s.requestId + 1
    loading := true
    error := none
    calls := ⟨s.requestId + 1, deps, .load⟩ :: s.calls }

/-- `refresh`. -/
def refresh (s : Hook T D) : Hook T D :=
  { s with
    requestId := s.requestId + 1
    calls := ⟨s.requestId + 1, s.deps, .refresh⟩ :: s.calls }

/-- The callbacks of a request that has settled. -/
def settle (call : Call D) (outcome : Except Failure T) (s : Hook T D) : Hook T D :=
  let s := { s with calls := s.calls.erase call }
  -- A request that is not the newest is dropped, its `setLoading` with it.
  if call.id ≠ s.requestId then s else match call.callback, outcome with
    | .load, .ok result => { s with data := some result, loading := false }
    | .load, .error err => { s with error := some err.message, loading := false }
    | .refresh, .ok result => { s with data := some result }
    | .refresh, .error _ => s

/-- The effect that polls, from its start. -/
def startPolling (s : Hook T D) : Hook T D := { s with timer := s.polls && !s.hidden }

/-- `onVisibility`. -/
def onVisibility (s : Hook T D) : Hook T D :=
  if s.hidden then { s with timer := false } else { refresh s with timer := true }

/-- The first render and its effects. -/
def mount (deps : D) (intervalMs : Option Nat) (hidden : Bool) : Hook T D :=
  -- The effects run in order: the first load, then the timer.
  startPolling (load deps
    { data := none, error := none, loading := true, requestId := 0, deps := deps,
      intervalMs := intervalMs, timer := false, hidden := hidden, rendered := [deps], calls := [] })

/-- A later render. Its effects run if what they depend on has changed. -/
def render (deps : D) (intervalMs : Option Nat) (s : Hook T D) : Hook T D :=
  let next := { s with deps := deps, intervalMs := intervalMs, rendered := deps :: s.rendered }
  -- New dependencies make new callbacks, and then both effects run.
  if deps ≠ s.deps then startPolling (load deps next)
  else if intervalMs ≠ s.intervalMs then startPolling next
  else next

/-- What happens to the hook: the page is rendered, calls a `reload` that it was
    given, the timer ticks, the tab is hidden or shown, a request settles. -/
inductive Event (T D : Type)
  | render (deps : D) (intervalMs : Option Nat)
  | reload (deps : D)
  | tick
  | visibility (hidden : Bool)
  | settle (call : Call D) (outcome : Except Failure T)

/-- One step, if it can happen. -/
def step (s : Hook T D) : Event T D → Option (Hook T D)
  | .render deps intervalMs => some (render deps intervalMs s)
  -- Somebody may have kept the callback of any render.
  | .reload deps => if deps ∈ s.rendered then some (load deps s) else none
  | .tick => if s.timer then some (refresh s) else none
  | .visibility hidden =>
      let next := { s with hidden := hidden }
      some (if s.polls then onVisibility next else next)
  | .settle call outcome => if call ∈ s.calls then some (settle call outcome s) else none

/-- A run from a mount, and its steps, newest first: the state before each, and
    what happened. -/
inductive Run : List (Hook T D × Event T D) → Hook T D → Prop
  | mount (deps : D) (intervalMs : Option Nat) (hidden : Bool) :
      Run [] (mount deps intervalMs hidden)
  | step (steps : List (Hook T D × Event T D)) (s s' : Hook T D) (e : Event T D)
      (h : Run steps s) (hs : step s e = some s') : Run ((s, e) :: steps) s'

/-- The step begins a refresh. -/
def Refreshes (s : Hook T D) : Event T D → Prop
  | .tick => True
  | .visibility hidden => s.polls = true ∧ hidden = false
  | _ => False

/-- The step begins a load. -/
def Loads (s : Hook T D) : Event T D → Prop
  | .render deps _ => deps ≠ s.deps
  | .reload _ => True
  | _ => False

/-- The newest request is a load in flight. -/
def InLoad (s : Hook T D) : Prop :=
  ∃ c ∈ s.calls, c.id = s.requestId ∧ c.callback = .load

/-- No refresh began while the last load was in flight. -/
def Undisturbed : List (Hook T D × Event T D) → Prop
  | [] => True
  | (s, e) :: steps => Loads s e ∨ ¬ (Refreshes s e ∧ InLoad s) ∧ Undisturbed steps

/-- Every `reload` was that of the last render. -/
def Current (steps : List (Hook T D × Event T D)) : Prop :=
  ∀ s deps, (s, .reload deps) ∈ steps → deps = s.deps

/-- The request whose result a step makes the data. -/
def writes (s : Hook T D) : Event T D → Option Nat
  | .settle call (.ok _) => if call.id = s.requestId then some call.id else none
  | _ => none

/-- The data is the result of a request for what the page depends on. -/
def Holds (steps : List (Hook T D × Event T D)) (s : Hook T D) : Prop :=
  ∃ before call result, (before, .settle call (.ok result)) ∈ steps ∧ call.deps = s.deps ∧
    s.data = some result

/-- The page has an answer: it is not loading, and shows data or an error. -/
def Settled (steps : List (Hook T D × Event T D)) (s : Hook T D) : Prop :=
  s.loading = false ∧ (Holds steps s ∨ s.error.isSome = true)

/-- The requests whose results were made the data, newest first. -/
def written (steps : List (Hook T D × Event T D)) : List Nat :=
  steps.filterMap fun x => writes x.1 x.2

/-! ### What a step does -/

/-- Two states with the same answer and the same requests. -/
structure Alike (s t : Hook T D) : Prop where
  data : s.data = t.data
  error : s.error = t.error
  loading : s.loading = t.loading
  requestId : s.requestId = t.requestId
  deps : s.deps = t.deps
  calls : s.calls = t.calls

/-- What a step does to the answer and to the requests. -/
inductive Does (s : Hook T D) : Event T D → Hook T D → Prop
  | reload (deps : D) : Does s (.reload deps) (load deps s)
  | change (deps : D) (intervalMs : Option Nat) (hne : deps ≠ s.deps) :
      Does s (.render deps intervalMs) (load deps { s with deps := deps })
  | refresh (e : Event T D) (h : Refreshes s e) : Does s e (refresh s)
  | settle (call : Call D) (outcome : Except Failure T) (h : call ∈ s.calls) :
      Does s (.settle call outcome) (settle call outcome s)
  | nothing (e : Event T D) (hwrites : writes s e = none) (hrefreshes : ¬ Refreshes s e)
      (hloads : ¬ Loads s e) : Does s e s

theorem step_does (s s' : Hook T D) (e : Event T D) (h : step s e = some s') :
    ∃ t, Does s e t ∧ Alike t s' := by
  cases e with
  | render deps intervalMs =>
      cases h
      -- A new interval alone starts or stops polling, and fetches nothing.
      by_cases hdeps : deps = s.deps
      · refine ⟨s, .nothing _ rfl id (not_not.mpr hdeps), ?_⟩
        rw [render, if_neg (not_not.mpr hdeps)]
        split
        · exact ⟨rfl, rfl, rfl, rfl, hdeps.symm, rfl⟩
        · exact ⟨rfl, rfl, rfl, rfl, hdeps.symm, rfl⟩
      · refine ⟨_, .change deps intervalMs hdeps, ?_⟩
        rw [render, if_pos hdeps]
        exact ⟨rfl, rfl, rfl, rfl, rfl, rfl⟩
  | reload deps =>
      rw [step, Option.ite_none_right_eq_some] at h
      cases h.2
      exact ⟨_, .reload deps, rfl, rfl, rfl, rfl, rfl, rfl⟩
  | tick =>
      rw [step, Option.ite_none_right_eq_some] at h
      cases h.2
      exact ⟨_, .refresh _ trivial, rfl, rfl, rfl, rfl, rfl, rfl⟩
  | visibility hidden =>
      cases h
      -- Only a page that polls, and is shown again, refreshes.
      cases hpolls : s.polls with
      | false =>
          refine ⟨s, .nothing _ rfl (fun h => ?_) id, rfl, rfl, rfl, rfl, rfl, rfl⟩
          exact absurd (hpolls.symm.trans h.1) (by decide)
      | true =>
          cases hidden with
          | true =>
              refine ⟨s, .nothing _ rfl (fun h => ?_) id, rfl, rfl, rfl, rfl, rfl, rfl⟩
              exact absurd h.2 (by decide)
          | false => exact ⟨_, .refresh _ ⟨hpolls, rfl⟩, rfl, rfl, rfl, rfl, rfl, rfl⟩
  | settle call outcome =>
      rw [step, Option.ite_none_right_eq_some] at h
      cases h.2
      exact ⟨_, .settle call outcome h.1, rfl, rfl, rfl, rfl, rfl, rfl⟩

/-- A request that is not the newest settles without effect. -/
theorem settle_stale (call : Call D) (outcome : Except Failure T) (s : Hook T D)
    (h : call.id ≠ s.requestId) :
    settle call outcome s = { s with calls := s.calls.erase call } :=
  if_pos h

/-- The newest one has the effect of its callback. -/
theorem settle_newest (call : Call D) (outcome : Except Failure T) (s : Hook T D)
    (h : call.id = s.requestId) :
    settle call outcome s =
      let t := { s with calls := s.calls.erase call }
      match call.callback, outcome with
      | .load, .ok result => { t with data := some result, loading := false }
      | .load, .error err => { t with error := some err.message, loading := false }
      | .refresh, .ok result => { t with data := some result }
      | .refresh, .error _ => t :=
  if_neg (not_not.mpr h)

/-- Whatever settles, the number of requests and what the page depends on stay,
    and the requests left are those that were there, but for it. -/
theorem settle_frame (call : Call D) (outcome : Except Failure T) (s : Hook T D) :
    (settle call outcome s).calls = s.calls.erase call ∧
      (settle call outcome s).requestId = s.requestId ∧
      (settle call outcome s).deps = s.deps := by
  by_cases hid : call.id = s.requestId
  · rw [settle_newest call outcome s hid]
    -- Only the answer and `loading` are set.
    cases call.callback <;> cases outcome <;> exact ⟨rfl, rfl, rfl⟩
  · rw [settle_stale call outcome s hid]
    exact ⟨rfl, rfl, rfl⟩

/-! ### The order of what is written -/

/-- The requests are numbered as they begin, and what was written was the result
    of one that is no longer in flight. -/
structure Ordered (steps : List (Hook T D × Event T D)) (s : Hook T D) : Prop where
  calls : s.calls.Pairwise fun a b => b.id < a.id
  newest : ∀ c ∈ s.calls, c.id ≤ s.requestId
  past : ∀ i ∈ written steps, i ≤ s.requestId ∧ ∀ c ∈ s.calls, c.id ≠ i
  written : (written steps).Pairwise (· > ·)

omit [DecidableEq D] in
theorem Ordered.alike (steps : List (Hook T D × Event T D)) (s t : Hook T D) (h : Alike s t)
    (ho : Ordered steps s) : Ordered steps t := by
  rcases ho with ⟨hcalls, hnewest, hpast, hwritten⟩
  rw [h.calls] at hcalls hnewest hpast
  rw [h.requestId] at hnewest hpast
  exact ⟨hcalls, hnewest, hpast, hwritten⟩

/-- The requests that are left when one has settled have other numbers. -/
theorem Ordered.id_ne (steps : List (Hook T D × Event T D)) (s : Hook T D) (ho : Ordered steps s)
    (call : Call D) (hmem : call ∈ s.calls) (c : Call D) (hc : c ∈ s.calls.erase call) :
    c.id ≠ call.id := by
  have hids : (s.calls.map Call.id).Nodup :=
    List.pairwise_map.mpr (ho.calls.imp fun h => by omega)
  -- Numbers differ, so what is left in flight is not the request itself.
  have hnodup : s.calls.Nodup := hids.of_map
  rcases hnodup.mem_erase_iff.mp hc with ⟨hne, hc⟩
  exact fun hid => hne (List.inj_on_of_nodup_map hids hc hmem hid)

omit [DecidableEq D] in
/-- A request that begins gets a number of its own. -/
theorem ordered_begin (steps : List (Hook T D × Event T D)) (s t : Hook T D) (e : Event T D)
    (call : Call D) (hwrites : writes s e = none) (hid : call.id = s.requestId + 1)
    (hrequestId : t.requestId = s.requestId + 1) (hcalls : t.calls = call :: s.calls)
    (ho : Ordered steps s) : Ordered ((s, e) :: steps) t := by
  have hsame : written ((s, e) :: steps) = written steps := List.filterMap_cons_none hwrites
  constructor
  · rw [hcalls, List.pairwise_cons]
    -- Its number is behind all that were given.
    refine ⟨fun c hc => ?_, ho.calls⟩
    have := ho.newest c hc
    omega
  · rw [hcalls, List.forall_mem_cons]
    refine ⟨by omega, fun c hc => ?_⟩
    have := ho.newest c hc
    omega
  · rw [hsame, hcalls]
    intro i hi
    have := ho.past i hi
    rw [List.forall_mem_cons]
    exact ⟨by omega, by omega, this.2⟩
  · rw [hsame]
    exact ho.written

omit [DecidableEq D] in
theorem writes_settle_ok (s : Hook T D) (call : Call D) (result : T) :
    writes s (.settle call (.ok result)) = if call.id = s.requestId then some call.id else none :=
  rfl

omit [DecidableEq D] in
/-- What a request that settles adds to what was written. -/
theorem mem_written_settle (steps : List (Hook T D × Event T D)) (s : Hook T D) (call : Call D)
    (outcome : Except Failure T) (i : Nat)
    (hi : i ∈ written ((s, .settle call outcome) :: steps)) :
    i ∈ written steps ∨ (i = call.id ∧ i = s.requestId) := by
  rw [written, List.filterMap_cons] at hi
  cases outcome with
  | error err => exact Or.inl hi
  | ok result =>
      simp only [writes_settle_ok] at hi
      by_cases hid : call.id = s.requestId
      · rw [if_pos hid] at hi
        rcases List.mem_cons.mp hi with rfl | hi
        · exact Or.inr ⟨rfl, hid⟩
        · exact Or.inl hi
      · rw [if_neg hid] at hi
        exact Or.inl hi

theorem ordered_settle (steps : List (Hook T D × Event T D)) (s : Hook T D) (call : Call D)
    (outcome : Except Failure T) (hmem : call ∈ s.calls) (ho : Ordered steps s) :
    Ordered ((s, .settle call outcome) :: steps) (settle call outcome s) := by
  have hframe := settle_frame call outcome s
  have hsub : ∀ c ∈ s.calls.erase call, c ∈ s.calls := fun c hc => List.mem_of_mem_erase hc
  constructor
  · rw [hframe.1]
    exact ho.calls.sublist (List.erase_sublist)
  · rw [hframe.1, hframe.2.1]
    exact fun c hc => ho.newest c (hsub c hc)
  · rw [hframe.1, hframe.2.1]
    intro i hi
    rcases mem_written_settle steps s call outcome i hi with hi | ⟨rfl, hid⟩
    · exact ⟨(ho.past i hi).1, fun c hc => (ho.past i hi).2 c (hsub c hc)⟩
    · exact ⟨hid.le, ho.id_ne steps s call hmem⟩
  · rw [written, List.filterMap_cons]
    split
    · exact ho.written
    · next i hwrites =>
      refine List.pairwise_cons.mpr ⟨fun j hj => ?_, ho.written⟩
      -- It is the newest, and in flight, so it is not among the old ones.
      have hi : i = call.id ∧ call.id = s.requestId := by
        cases outcome with
        | error err => cases hwrites
        | ok result =>
            rw [writes_settle_ok, Option.ite_none_right_eq_some] at hwrites
            exact ⟨(Option.some.inj hwrites.2).symm, hwrites.1⟩
      have := ho.past j hj
      have hne := this.2 call hmem
      omega

theorem ordered_step (steps : List (Hook T D × Event T D)) (s s' : Hook T D) (e : Event T D)
    (hs : step s e = some s') (ho : Ordered steps s) : Ordered ((s, e) :: steps) s' := by
  rcases step_does s s' e hs with ⟨t, hdoes, halike⟩
  refine Ordered.alike _ t s' halike ?_
  cases hdoes with
  | reload deps => exact ordered_begin steps s _ _ _ rfl rfl rfl rfl ho
  | change deps intervalMs hne => exact ordered_begin steps s _ _ _ rfl rfl rfl rfl ho
  | refresh _ h =>
      refine ordered_begin steps s _ e _ ?_ rfl rfl rfl ho
      cases e with
      -- Only what settles writes, and a request begins in the three cases before.
      | settle call outcome => exact h.elim
      | _ => rfl
  | settle call outcome h => exact ordered_settle steps s call outcome h ho
  | nothing _ hwrites hrefreshes hloads =>
      have hsame : written ((s, e) :: steps) = written steps := List.filterMap_cons_none hwrites
      refine ⟨ho.calls, ho.newest, ?_, ?_⟩
      · rw [hsame]
        exact ho.past
      · rw [hsame]
        exact ho.written

omit [DecidableEq D] in
theorem ordered_mount (deps : D) (intervalMs : Option Nat) (hidden : Bool) :
    Ordered ([] : List (Hook T D × Event T D)) (mount deps intervalMs hidden) := by
  refine ⟨List.pairwise_singleton _ _, ?_, ?_, List.Pairwise.nil⟩
  · exact List.forall_mem_singleton.mpr (le_refl _)
  · exact fun i hi => absurd hi List.not_mem_nil

theorem ordered_run (steps : List (Hook T D × Event T D)) (s : Hook T D) (h : Run steps s) :
    Ordered steps s := by
  induction h with
  | mount deps intervalMs hidden => exact ordered_mount deps intervalMs hidden
  | step steps s s' e _ hs ih => exact ordered_step steps s s' e hs ih

/-! ### Whether the hook is loading -/

/-- The hook is loading exactly while its last load is in flight, unless a
    refresh disturbed it. Then it is loading whatever is in flight. -/
structure Tracked (steps : List (Hook T D × Event T D)) (s : Hook T D) : Prop where
  inLoad : InLoad s → s.loading = true
  undisturbed : Undisturbed steps → s.loading = true → InLoad s
  disturbed : ¬ Undisturbed steps → s.loading = true ∧ ¬ InLoad s

omit [DecidableEq D] in
theorem Alike.inLoad (s t : Hook T D) (h : Alike s t) : InLoad s ↔ InLoad t := by
  unfold InLoad
  rw [h.calls, h.requestId]

omit [DecidableEq D] in
theorem Tracked.alike (steps : List (Hook T D × Event T D)) (s t : Hook T D) (h : Alike s t)
    (ht : Tracked steps s) : Tracked steps t := by
  rcases ht with ⟨hinLoad, hundisturbed, hdisturbed⟩
  rw [Alike.inLoad s t h, h.loading] at hinLoad hundisturbed hdisturbed
  exact ⟨hinLoad, hundisturbed, hdisturbed⟩

omit [DecidableEq D] in
/-- A step that begins nothing leaves what began since the last load. -/
theorem undisturbed_cons (steps : List (Hook T D × Event T D)) (s : Hook T D) (e : Event T D)
    (hrefreshes : ¬ Refreshes s e) (hloads : ¬ Loads s e) :
    Undisturbed ((s, e) :: steps) ↔ Undisturbed steps := by
  rw [Undisturbed, or_iff_right hloads]
  exact and_iff_right fun h => hrefreshes h.1

omit [DecidableEq D] in
/-- A load is tracked from its begin. -/
theorem tracked_load (steps : List (Hook T D × Event T D)) (s : Hook T D) (e : Event T D)
    (deps : D) (he : Loads s e) (t : Hook T D) : Tracked ((s, e) :: steps) (load deps t) :=
  ⟨fun _ => rfl, fun _ _ => ⟨_, List.mem_cons_self, rfl, rfl⟩, fun h => absurd (Or.inl he) h⟩

omit [DecidableEq D] in
theorem tracked_refresh (steps : List (Hook T D × Event T D)) (s : Hook T D) (e : Event T D)
    (he : Refreshes s e) (ho : Ordered steps s) (ht : Tracked steps s) :
    Tracked ((s, e) :: steps) (refresh s) := by
  have hloads : ¬ Loads s e := by
    cases e with
    | tick => exact id
    | visibility hidden => exact id
    | _ => exact he.elim
  have hundisturbed : Undisturbed ((s, e) :: steps) ↔ ¬ InLoad s ∧ Undisturbed steps := by
    rw [Undisturbed, or_iff_right hloads, and_iff_right he]
  -- The newest request is the refresh.
  have hnot : ¬ InLoad (refresh s) := by
    rintro ⟨c, hc, hid, hcallback⟩
    rcases List.mem_cons.mp hc with rfl | hc
    · cases hcallback
    · have := ho.newest c hc
      change c.id = s.requestId + 1 at hid
      omega
  refine ⟨fun h => absurd h hnot, fun h hloading => ?_, fun h => ⟨?_, hnot⟩⟩
  · rw [hundisturbed] at h
    exact absurd (ht.undisturbed h.2 hloading) h.1
  · rw [hundisturbed, not_and_or, not_not] at h
    rcases h with h | h
    · exact ht.inLoad h
    · exact (ht.disturbed h).1

/-- A load that is still in flight is not the one that settled. -/
theorem inLoad_settle (steps : List (Hook T D × Event T D)) (s : Hook T D) (call : Call D)
    (outcome : Except Failure T) (hmem : call ∈ s.calls) (ho : Ordered steps s) :
    InLoad (settle call outcome s) ↔
      InLoad s ∧ ¬ (call.id = s.requestId ∧ call.callback = .load) := by
  have hframe := settle_frame call outcome s
  unfold InLoad
  rw [hframe.1, hframe.2.1]
  constructor
  · rintro ⟨c, hc, hid, hcallback⟩
    exact ⟨⟨c, List.mem_of_mem_erase hc, hid, hcallback⟩,
      fun hcall => ho.id_ne steps s call hmem c hc (hid.trans hcall.1.symm)⟩
  · rintro ⟨⟨c, hc, hid, hcallback⟩, hcall⟩
    have hne : c ≠ call := fun heq => hcall (heq ▸ ⟨hid, hcallback⟩)
    exact ⟨c, (List.mem_erase_of_ne hne).mpr hc, hid, hcallback⟩

/-- Only the last load ends the loading. -/
theorem loading_settle (call : Call D) (outcome : Except Failure T) (s : Hook T D)
    (hcall : ¬ (call.id = s.requestId ∧ call.callback = .load)) :
    (settle call outcome s).loading = s.loading := by
  by_cases hid : call.id = s.requestId
  · have hcallback : call.callback = .refresh := by
      cases h : call.callback with
      | load => exact absurd ⟨hid, h⟩ hcall
      | refresh => rfl
    rw [settle_newest call outcome s hid, hcallback]
    cases outcome <;> rfl
  · rw [settle_stale call outcome s hid]

theorem tracked_settle (steps : List (Hook T D × Event T D)) (s : Hook T D) (call : Call D)
    (outcome : Except Failure T) (hmem : call ∈ s.calls) (ho : Ordered steps s)
    (ht : Tracked steps s) :
    Tracked ((s, .settle call outcome) :: steps) (settle call outcome s) := by
  have hundisturbed := undisturbed_cons steps s (.settle call outcome) id id
  have hinLoad := inLoad_settle steps s call outcome hmem ho
  by_cases hcall : call.id = s.requestId ∧ call.callback = .load
  · -- The last load settles. It was not disturbed.
    have hload : InLoad s := ⟨call, hmem, hcall.1, hcall.2⟩
    have hloading : (settle call outcome s).loading = false := by
      rw [settle_newest call outcome s hcall.1, hcall.2]
      cases outcome <;> rfl
    refine ⟨fun h => absurd hcall (hinLoad.mp h).2, fun _ h => ?_, fun h => ?_⟩
    · exact absurd (hloading.symm.trans h) (by decide)
    · exact absurd hload (ht.disturbed fun h' => h (hundisturbed.mpr h')).2
  · -- Anything else leaves the loading and what is in flight of it.
    rw [and_iff_left hcall] at hinLoad
    have hloading := loading_settle call outcome s hcall
    rcases ht with ⟨h₁, h₂, h₃⟩
    rw [← hinLoad, ← hundisturbed, ← hloading] at h₂ h₃
    rw [← hinLoad, ← hloading] at h₁
    exact ⟨h₁, h₂, h₃⟩

theorem tracked_step (steps : List (Hook T D × Event T D)) (s s' : Hook T D) (e : Event T D)
    (hs : step s e = some s') (ho : Ordered steps s) (ht : Tracked steps s) :
    Tracked ((s, e) :: steps) s' := by
  rcases step_does s s' e hs with ⟨t, hdoes, halike⟩
  refine Tracked.alike _ t s' halike ?_
  cases hdoes with
  | reload deps => exact tracked_load steps s (.reload deps) deps trivial s
  | change deps intervalMs hne => exact tracked_load steps s (.render deps intervalMs) deps hne _
  | refresh _ h => exact tracked_refresh steps s e h ho ht
  | settle call outcome h => exact tracked_settle steps s call outcome h ho ht
  | nothing _ hwrites hrefreshes hloads =>
      have hundisturbed := undisturbed_cons steps s e hrefreshes hloads
      exact ⟨ht.inLoad, fun h => ht.undisturbed (hundisturbed.mp h),
        fun h => ht.disturbed fun h' => h (hundisturbed.mpr h')⟩

theorem tracked_run (steps : List (Hook T D × Event T D)) (s : Hook T D) (h : Run steps s) :
    Tracked steps s := by
  induction h with
  | mount deps intervalMs hidden =>
      exact ⟨fun _ => rfl, fun _ _ => ⟨_, List.mem_cons_self, rfl, rfl⟩, fun h => absurd trivial h⟩
  | step steps s s' e h hs ih => exact tracked_step steps s s' e hs (ordered_run steps s h) ih

/-! ### What the page shows -/

/-- The newest request is for what the page depends on, and a hook that is not
    loading has an answer. -/
structure Answered (steps : List (Hook T D × Event T D)) (s : Hook T D) : Prop where
  newest : ∀ c ∈ s.calls, c.id = s.requestId → c.deps = s.deps
  answer : s.loading = false → Holds steps s ∨ s.error.isSome = true

omit [DecidableEq D] in
theorem Answered.alike (steps : List (Hook T D × Event T D)) (s t : Hook T D) (h : Alike s t)
    (ha : Answered steps s) : Answered steps t := by
  rcases ha with ⟨hnewest, hanswer⟩
  unfold Holds at hanswer
  rw [h.calls, h.requestId, h.deps] at hnewest
  rw [h.loading, h.data, h.deps, h.error] at hanswer
  exact ⟨hnewest, hanswer⟩

omit [DecidableEq D] in
theorem Holds.cons (steps : List (Hook T D × Event T D)) (s t : Hook T D) (e : Event T D)
    (h : Holds steps s) (hdata : t.data = s.data) (hdeps : t.deps = s.deps) :
    Holds ((s, e) :: steps) t := by
  rcases h with ⟨before, call, result, hmem, hcall, hresult⟩
  exact ⟨before, call, result, List.mem_cons_of_mem _ hmem, hcall.trans hdeps.symm,
    hdata.trans hresult⟩

theorem answered_settle (steps : List (Hook T D × Event T D)) (s : Hook T D) (call : Call D)
    (outcome : Except Failure T) (hmem : call ∈ s.calls) (ha : Answered steps s) :
    Answered ((s, .settle call outcome) :: steps) (settle call outcome s) := by
  have hframe := settle_frame call outcome s
  constructor
  · rw [hframe.1, hframe.2.1, hframe.2.2]
    exact fun c hc => ha.newest c (List.mem_of_mem_erase hc)
  · by_cases hid : call.id = s.requestId
    · have hdeps := ha.newest call hmem hid
      rw [settle_newest call outcome s hid]
      cases outcome with
      | ok result =>
          -- Either callback makes the result the data.
          refine fun _ => Or.inl ⟨s, call, result, List.mem_cons_self, ?_, ?_⟩
          · cases call.callback <;> exact hdeps
          · cases call.callback <;> rfl
      | error err =>
          cases call.callback with
          | load => exact fun _ => Or.inr rfl
          | refresh => exact fun h => (ha.answer h).imp_left fun h => Holds.cons _ _ _ _ h rfl rfl
    · rw [settle_stale call outcome s hid]
      exact fun h => (ha.answer h).imp_left fun h => Holds.cons _ _ _ _ h rfl rfl

theorem answered_step (steps : List (Hook T D × Event T D)) (s s' : Hook T D) (e : Event T D)
    (hs : step s e = some s') (hcurrent : Current ((s, e) :: steps)) (ho : Ordered steps s)
    (ha : Answered steps s) : Answered ((s, e) :: steps) s' := by
  rcases step_does s s' e hs with ⟨t, hdoes, halike⟩
  refine Answered.alike _ t s' halike ?_
  -- No request that was there has the number of one that begins.
  have hold : ∀ c ∈ s.calls, c.id ≠ s.requestId + 1 := by
    intro c hc hid
    have := ho.newest c hc
    omega
  cases hdoes with
  | reload deps =>
      have hdeps := hcurrent s deps List.mem_cons_self
      exact ⟨List.forall_mem_cons.mpr ⟨fun _ => hdeps, fun c hc hid => absurd hid (hold c hc)⟩,
        fun h => Bool.noConfusion h⟩
  | change deps intervalMs hne =>
      exact ⟨List.forall_mem_cons.mpr ⟨fun _ => rfl, fun c hc hid => absurd hid (hold c hc)⟩,
        fun h => Bool.noConfusion h⟩
  | refresh _ h =>
      exact ⟨List.forall_mem_cons.mpr ⟨fun _ => rfl, fun c hc hid => absurd hid (hold c hc)⟩,
        fun h => (ha.answer h).imp_left fun h => Holds.cons _ _ _ _ h rfl rfl⟩
  | settle call outcome h => exact answered_settle steps s call outcome h ha
  | nothing _ hwrites hrefreshes hloads =>
      exact ⟨ha.newest, fun h => (ha.answer h).imp_left fun h => Holds.cons _ _ _ _ h rfl rfl⟩

theorem answered_run (steps : List (Hook T D × Event T D)) (s : Hook T D) (h : Run steps s)
    (hcurrent : Current steps) : Answered steps s := by
  induction h with
  | mount deps intervalMs hidden =>
      exact ⟨List.forall_mem_singleton.mpr fun _ => rfl, fun h => Bool.noConfusion h⟩
  | step steps s s' e h hs ih =>
      exact answered_step steps s s' e hs hcurrent (ordered_run steps s h)
        (ih fun s deps hmem => hcurrent s deps (List.mem_cons_of_mem _ hmem))

/-- In every run the data only gets newer; and where every `reload` was that of
    the last render, a page that waits for no request has an answer exactly when
    no refresh began during the last load. -/
theorem settled_iff (steps : List (Hook T D × Event T D)) (s : Hook T D) (h : Run steps s) :
    (written steps).Pairwise (· > ·) ∧
      (s.calls = [] → Current steps → (Settled steps s ↔ Undisturbed steps)) := by
  refine ⟨(ordered_run steps s h).written, fun hcalls hcurrent => ⟨fun hsettled => ?_, ?_⟩⟩
  · by_contra hdisturbed
    have hloading := ((tracked_run steps s h).disturbed hdisturbed).1
    exact absurd (hsettled.1.symm.trans hloading) (by decide)
  · intro hundisturbed
    have hloading : s.loading = false := by
      rw [← Bool.not_eq_true]
      intro hloading
      rcases (tracked_run steps s h).undisturbed hundisturbed hloading with ⟨c, hc, _⟩
      rw [hcalls] at hc
      exact absurd hc List.not_mem_nil
    exact ⟨hloading, (answered_run steps s h hcurrent).answer hloading⟩

/-! ### A page that polls -/

/-- The page of jobs, when its first load has begun. -/
def jobsPage : Hook Bytes Unit := mount () (some 5000) false

/-- Its first load, and the refresh of the first tick. -/
def jobsLoad : Call Unit := ⟨1, (), .load⟩

def jobsTick : Call Unit := ⟨2, (), .refresh⟩

/-- What either fetches. -/
def jobsBody : Bytes := "[]"

/-- The page when its load has settled before the first tick. -/
def jobsShown : Hook Bytes Unit := settle jobsLoad (.ok jobsBody) jobsPage

/-- A load that settles before the first tick gives an answer, and the refresh of
    the tick leaves the page with one. -/
theorem settled_jobsPage :
    Settled [(refresh jobsShown, .settle jobsTick (.ok jobsBody)), (jobsShown, .tick),
        (jobsPage, .settle jobsLoad (.ok jobsBody))]
      (settle jobsTick (.ok jobsBody) (refresh jobsShown)) := by
  refine ((settled_iff _ _ (.step _ (refresh jobsShown) _ (.settle jobsTick (.ok jobsBody))
    (.step _ jobsShown _ .tick (.step [] jobsPage _ (.settle jobsLoad (.ok jobsBody))
      (.mount () (some 5000) false) rfl) rfl) rfl)).2 rfl ?_).mpr ?_
  · intro s deps hmem
    simp only [List.mem_cons, Prod.mk.injEq, reduceCtorEq, and_false, List.not_mem_nil,
      or_self] at hmem
  · -- When the refresh begins, no load is in flight.
    refine Or.inr ⟨fun h => h.1, Or.inr ⟨?_, Or.inr ⟨fun h => h.1, trivial⟩⟩⟩
    rintro ⟨_, c, hc, _⟩
    exact absurd hc List.not_mem_nil

/-- One that takes longer leaves the page loading, though both requests have
    settled and the data is there. -/
theorem not_settled_jobsPage :
    ∃ (steps : List (Hook Bytes Unit × Event Bytes Unit)) (s : Hook Bytes Unit), Run steps s ∧
      steps.map Prod.snd =
        [.settle jobsTick (.ok jobsBody), .settle jobsLoad (.ok jobsBody), .tick] ∧
      s.calls = [] ∧ s.data = some jobsBody ∧ ¬ Settled steps s := by
  have hrun := Run.step _ _ (settle jobsTick (.ok jobsBody) (settle jobsLoad (.ok jobsBody)
    (refresh jobsPage))) (.settle jobsTick (.ok jobsBody))
    (.step _ _ _ (.settle jobsLoad (.ok jobsBody))
      (.step [] jobsPage _ .tick (.mount () (some 5000) false) rfl) rfl) rfl
  exact ⟨_, _, hrun, rfl, rfl, rfl, fun h => Bool.noConfusion h.1⟩

end UseApi

end Web

end Bop
