import Bop.Effect.Interp

/-!
# Monitors

A monitor watches the calls of a program and keeps a state of its own. Each
call either is allowed in that state and moves it, or is not allowed at all,
so a monitor is the protocol a program is supposed to follow: which calls it
may make, in which order, and what the answers change.

`Obeys m q p post` says that `p`, started when the monitor is in state `q`,
only ever makes allowed calls, whatever the answers are, and that `post` holds
of the result and of the monitor's state when it returns. It is the triple of
a program logic whose assertions are monitor states, and the rules below are
that logic's: a return, a call, sequencing, weakening and a loop invariant.

Two facts make a proof of `Obeys` worth having. Every run of the program is
one the monitor accepts (`obeys_runs`), and what is left of the program after
any call still obeys the monitor (`obeys_call`), which is the form an
interleaving with other programs needs.

## Main definitions

* `Monitor`: The state after a call, if the call is allowed.
* `watch`: The monitor's state after a whole trace.
* `Obeys`: A program keeps to a monitor.
* `logging`, `logOf`: The monitor that only keeps a log, and the log of a trace.

## Theorems

* `obeys_bind`: Sequencing.
* `obeys_mono`: Weakening the postcondition.
* `obeys_forEach`: A loop keeps what its body keeps.
* `obeys_runs`: A run of an obedient program is accepted.
* `obeys_check`: A checked call goes on or stops.
* `obeys_interp`: A protocol is kept on the level below, if every operation's
  implementation keeps it.
* `obeys_of_calls`: Calls that do not move the monitor do not move it together.
* `watch_append`: A trace is watched in two halves.
* `watch_invariant`: What the monitor's state says of the world stays true.
* `logOf_runs`: What is proved of a program's log holds of every run.
-/

namespace Bop

namespace Prog

variable {Op : Type} {Ans : Op → Type} {α β γ Q W : Type}

/-- The state after a call and its answer, or `none` if the call may not be
    made. -/
abbrev Monitor (Op : Type) (Ans : Op → Type) (Q : Type) :=
  Q → (o : Op) → Ans o → Option Q

/-- The monitor's state after a whole trace. -/
def watch (m : Monitor Op Ans Q) : Q → Trace Op Ans → Option Q
  | q, [] => some q
  | q, e :: tr => match m q e.1 e.2 with
    | none => none
    | some q' => watch m q' tr

/-- The program makes only allowed calls, and `post` holds when it returns. -/
def Obeys (m : Monitor Op Ans Q) : Q → Prog Op Ans α → (α → Q → Prop) → Prop
  | q, .ret a, post => post a q
  | q, .call o k, post => ∀ x, ∃ q', m q o x = some q' ∧ Obeys m q' (k x) post

/-- What is left after a call obeys the monitor from its next state. -/
theorem obeys_call (m : Monitor Op Ans Q) (q : Q) (o : Op) (k : Ans o → Prog Op Ans α)
    (post : α → Q → Prop) (h : Obeys m q (.call o k) post) (x : Ans o) :
    ∃ q', m q o x = some q' ∧ Obeys m q' (k x) post := h x

/-- Weakening the postcondition. -/
theorem obeys_mono (m : Monitor Op Ans Q) (p : Prog Op Ans α) (q : Q)
    (post post' : α → Q → Prop) (h : Obeys m q p post) (himp : ∀ a q, post a q → post' a q) :
    Obeys m q p post' := by
  induction p generalizing q with
  | ret a => exact himp a q h
  | call o k ih =>
      intro x
      rcases h x with ⟨q', hm, hk⟩
      exact ⟨q', hm, ih x q' hk⟩

/-- Sequencing: what holds when the first half returns is what the second
    half may start from. -/
theorem obeys_bind (m : Monitor Op Ans Q) (p : Prog Op Ans α) (f : α → Prog Op Ans β) (q : Q)
    (mid : α → Q → Prop) (post : β → Q → Prop) (h : Obeys m q p mid)
    (hf : ∀ a q, mid a q → Obeys m q (f a) post) : Obeys m q (p >>= f) post := by
  induction p generalizing q with
  | ret a => exact hf a q h
  | call o k ih =>
      intro x
      rcases h x with ⟨q', hm, hk⟩
      exact ⟨q', hm, ih x q' hk⟩

/-- A loop keeps what its body keeps. -/
theorem obeys_forEach (m : Monitor Op Ans Q) (f : γ → Prog Op Ans Unit) (inv : Q → Prop)
    (xs : List γ) (q : Q) (hq : inv q)
    (hbody : ∀ x ∈ xs, ∀ q, inv q → Obeys m q (f x) (fun _ => inv)) :
    Obeys m q (forEach xs f) (fun _ => inv) := by
  induction xs generalizing q with
  | nil => exact hq
  | cons x xs ih =>
      refine obeys_bind m (f x) _ q (fun _ => inv) _ (hbody x List.mem_cons_self q hq) ?_
      intro _ q' hq'
      exact ih q' hq' (fun y hy => hbody y (List.mem_cons_of_mem x hy))

/-- A run of an obedient program is one the monitor accepts. -/
theorem obeys_runs (m : Monitor Op Ans Q) (p : Prog Op Ans α) (q : Q) (post : α → Q → Prop)
    (h : Obeys m q p post) (tr : Trace Op Ans) (a : α) (hr : Runs p tr a) :
    ∃ q', watch m q tr = some q' ∧ post a q' := by
  induction hr generalizing q with
  | ret a => exact ⟨q, rfl, h⟩
  | call o k x tr a _ ih =>
      rcases h x with ⟨q', hm, hk⟩
      rcases ih q' hk with ⟨q'', hw, hpost⟩
      refine ⟨q'', ?_, hpost⟩
      simp only [watch, hm]
      exact hw

/-- A checked call: the continuation starts where the call succeeded, and the
    program stops where it failed. -/
theorem obeys_check {ε : Type} (m : Monitor Op Ans Q) (p : Prog Op Ans (Except ε α))
    (wrap : ε → ε) (k : α → Prog Op Ans (Except ε β)) (q : Q)
    (mid : Except ε α → Q → Prop) (post : Except ε β → Q → Prop) (h : Obeys m q p mid)
    (hok : ∀ a q', mid (.ok a) q' → Obeys m q' (k a) post)
    (herr : ∀ err q', mid (.error err) q' → post (.error (wrap err)) q') :
    Obeys m q (check p wrap k) post := by
  refine obeys_bind m p _ q mid post h ?_
  intro r q' hr
  cases r with
  | ok a => exact hok a q' hr
  | error err => exact herr err q' hr

/-- Calls the monitor allows in a state without leaving it. -/
theorem obeys_of_calls (m : Monitor Op Ans Q) (P : Op → Prop) (q : Q)
    (hP : ∀ o, P o → ∀ x, m q o x = some q) (p : Prog Op Ans α) (h : Calls P p) :
    Obeys m q p (fun _ q' => q' = q) := by
  induction p with
  | ret a => rfl
  | call o k ih => exact fun x => ⟨q, hP o h.1 x, ih x (h.2 x)⟩

/-- A program that keeps to a protocol keeps to the one of the level below: `f`
    says in which state of the lower monitor each state of the upper one is, and
    every operation the upper monitor allows is implemented by a program that moves
    the lower one alike. -/
theorem obeys_interp {Op' Q' : Type} {Ans' : Op' → Type} (m : Monitor Op Ans Q)
    (m' : Monitor Op' Ans' Q') (f : Q → Q') (impl : (o : Op) → Prog Op' Ans' (Ans o))
    (himpl : ∀ q o, (∀ x, ∃ q', m q o x = some q') →
      Obeys m' (f q) (impl o) (fun x r => ∃ q', m q o x = some q' ∧ r = f q'))
    (p : Prog Op Ans α) (q : Q) (post : α → Q → Prop) (h : Obeys m q p post) :
    Obeys m' (f q) (interp impl p) (fun a r => ∃ q', post a q' ∧ r = f q') := by
  induction p generalizing q with
  | ret a => exact ⟨q, h, rfl⟩
  | call o k ih =>
      refine obeys_bind m' (impl o) _ (f q) _ _
        (himpl q o fun x => (h x).imp fun _ hx => hx.1) ?_
      rintro x r ⟨q', hq', rfl⟩
      rcases h x with ⟨q'', hq'', hk⟩
      rw [hq'] at hq''
      cases hq''
      exact ih x q' hk

/-- A trace is watched in two halves. -/
theorem watch_append (m : Monitor Op Ans Q) (q : Q) (tr₁ tr₂ : Trace Op Ans) :
    watch m q (tr₁ ++ tr₂) = (watch m q tr₁).bind (fun q' => watch m q' tr₂) := by
  induction tr₁ generalizing q with
  | nil => rfl
  | cons e tr₁ ih =>
      simp only [List.cons_append, watch]
      cases m q e.1 e.2 with
      | none => rfl
      | some q' => exact ih q'

/-- What the state of the monitor says of the world stays true along a trace it
    accepts. -/
theorem watch_invariant (m : Monitor Op Ans Q) (sem : Semantics Op Ans W) (inv : Q → W → Prop)
    (hstep : ∀ q q' o x w w', m q o x = some q' → sem w o x w' → inv q w → inv q' w')
    (tr : Trace Op Ans) (q q' : Q) (w w' : W) (hm : watch m q tr = some q')
    (hs : Steps sem w tr w') (hinv : inv q w) : inv q' w' := by
  induction hs generalizing q with
  | nil w =>
      cases hm
      exact hinv
  | cons w v w' o x tr hone _ ih =>
      simp only [watch] at hm
      cases hq : m q o x with
      | none =>
          rw [hq] at hm
          cases hm
      | some q₁ =>
          rw [hq] at hm
          exact ih q₁ hm (hstep q q₁ o x w v hq hone hinv)

/-! ### Logs -/

section Logs

variable {E : Type} (entries : (o : Op) → Ans o → List E)

/-- The monitor that allows every call and logs some of them. -/
def logging : Monitor Op Ans (List E) := fun log o x => some (log ++ entries o x)

/-- What a trace logs. -/
def logOf (tr : Trace Op Ans) : List E := tr.flatMap fun e => entries e.1 e.2

theorem logOf_cons (e : Event Op Ans) (tr : Trace Op Ans) :
    logOf entries (e :: tr) = entries e.1 e.2 ++ logOf entries tr := rfl

theorem logOf_append (tr₁ tr₂ : Trace Op Ans) :
    logOf entries (tr₁ ++ tr₂) = logOf entries tr₁ ++ logOf entries tr₂ := List.flatMap_append

theorem watch_logging (log : List E) (tr : Trace Op Ans) :
    watch (logging entries) log tr = some (log ++ logOf entries tr) := by
  induction tr generalizing log with
  | nil => exact congrArg some (List.append_nil log).symm
  | cons e tr ih =>
      rw [watch, logging, logOf_cons, ← List.append_assoc]
      exact ih _

/-- What is proved of the log of a program holds of the log of every run. -/
theorem logOf_runs (p : Prog Op Ans α) (post : α → List E → Prop)
    (h : Obeys (logging entries) [] p post) (tr : Trace Op Ans) (a : α) (hr : Runs p tr a) :
    post a (logOf entries tr) := by
  rcases obeys_runs _ p [] post h tr a hr with ⟨log, hwatch, hpost⟩
  rw [watch_logging, List.nil_append] at hwatch
  cases hwatch
  exact hpost

/-- A call that is not logged leaves the log as it is. -/
theorem obeys_unlogged (o : Op) (log : List E) (h : ∀ x, entries o x = []) :
    Obeys (logging entries) log (op o) (fun _ log' => log' = log) :=
  fun x => ⟨log, by rw [logging, h x, List.append_nil], rfl⟩

/-- A checked program that is not logged. -/
theorem obeys_check_unlogged {ε : Type} (p : Prog Op Ans (Except ε α)) (wrap : ε → ε)
    (k : α → Prog Op Ans (Except ε β)) (log : List E) (post : Except ε β → List E → Prop)
    (hp : Obeys (logging entries) log p (fun _ log' => log' = log))
    (herr : ∀ err, post (.error err) log)
    (hok : ∀ a, Obeys (logging entries) log (k a) post) :
    Obeys (logging entries) log (check p wrap k) post := by
  refine obeys_check _ p wrap k log _ post hp ?_ ?_
  · rintro a log' rfl
    exact hok a
  · rintro err log' rfl
    exact herr _

end Logs

end Prog

end Bop
