import Mathlib.Data.List.Basic

/-!
# Transactional Servers

A server that executes statements of some kind, each at once or, inside a
transaction, when the transaction is committed. A request that succeeds took
effect. One that fails may have taken effect or not, because the failure may
be the loss of the answer.

What a client relies on is that a transaction is committed as a whole: until
then nothing of it is in what the server keeps, and giving the connection up
leaves it there.

## Main definitions

* `TxState`: What is committed and what is pending.
* `Request`, `Request.apply`: The requests and their effects.
* `Served`: The requests a server was sent, with their outcomes.

## Theorems

* `served_append`: Requests are served in order.
* `served_execute`: Inside a transaction statements are only collected.
* `served_idle`: Beginning a transaction and giving one up commit nothing.
-/

namespace Bop

namespace Txn

variable {Stmt : Type}

/-- What a server has committed, and the transaction in progress. -/
structure TxState (Stmt : Type) where
  committed : List Stmt
  pending : Option (List Stmt)

/-- What a server is asked. -/
inductive Request (Stmt : Type)
  | start
  | execute (s : Stmt)
  | commit
  | discard

/-- What a request does. A statement outside a transaction is its own. -/
def Request.apply : Request Stmt → TxState Stmt → TxState Stmt
  | .start, w => { w with pending := some [] }
  | .execute s, w => match w.pending with
    | some p => { w with pending := some (p ++ [s]) }
    | none => { w with committed := w.committed ++ [s] }
  | .commit, w => ⟨w.committed ++ w.pending.getD [], none⟩
  | .discard, w => { w with pending := none }

/-- A server is sent requests, each of which succeeds or fails. -/
inductive Served : TxState Stmt → List (Request Stmt × Bool) → TxState Stmt → Prop
  | nil (w : TxState Stmt) : Served w [] w
  | took (w w' : TxState Stmt) (q : Request Stmt) (ok : Bool) (qs : List (Request Stmt × Bool))
      (hrest : Served (q.apply w) qs w') : Served w ((q, ok) :: qs) w'
  | lost (w w' : TxState Stmt) (q : Request Stmt) (qs : List (Request Stmt × Bool))
      (hrest : Served w qs w') : Served w ((q, false) :: qs) w'

/-- Requests are served in order. -/
theorem served_append (w w' : TxState Stmt) (qs qs' : List (Request Stmt × Bool)) :
    Served w (qs ++ qs') w' ↔ ∃ w₁, Served w qs w₁ ∧ Served w₁ qs' w' := by
  induction qs generalizing w with
  | nil =>
      constructor
      · exact fun h => ⟨w, Served.nil w, h⟩
      · rintro ⟨w₁, hnil, h⟩
        cases hnil
        exact h
  | cons q qs ih =>
      constructor
      · intro h
        cases h with
        | took _ _ _ _ _ hrest =>
            rcases (ih _).mp hrest with ⟨w₁, hqs, hqs'⟩
            exact ⟨w₁, Served.took _ _ _ _ _ hqs, hqs'⟩
        | lost _ _ _ _ hrest =>
            rcases (ih _).mp hrest with ⟨w₁, hqs, hqs'⟩
            exact ⟨w₁, Served.lost _ _ _ _ hqs, hqs'⟩
      · rintro ⟨w₁, hqs, hqs'⟩
        cases hqs with
        | took _ _ _ _ _ hrest => exact Served.took _ _ _ _ _ ((ih _).mpr ⟨w₁, hrest, hqs'⟩)
        | lost _ _ _ _ hrest => exact Served.lost _ _ _ _ ((ih _).mpr ⟨w₁, hrest, hqs'⟩)

/-- A request takes effect, unless it fails. -/
theorem served_cons (w w' : TxState Stmt) (q : Request Stmt × Bool)
    (qs : List (Request Stmt × Bool)) (h : Served w (q :: qs) w') :
    Served (q.1.apply w) qs w' ∨ (q.2 = false ∧ Served w qs w') := by
  cases h with
  | took _ _ _ _ _ hrest => exact Or.inl hrest
  | lost _ _ _ _ hrest => exact Or.inr ⟨rfl, hrest⟩

/-- Inside a transaction statements are only collected, and all of them are if
    every request succeeds. -/
theorem served_execute (qs : List (Request Stmt × Bool)) (stmts : List Stmt)
    (hqs : qs.map Prod.fst = stmts.map Request.execute) (w w' : TxState Stmt) (p : List Stmt)
    (hp : w.pending = some p) (h : Served w qs w') :
    w'.committed = w.committed ∧
      ((∀ q ∈ qs, q.2 = true) → w'.pending = some (p ++ stmts)) := by
  induction qs generalizing w p stmts with
  | nil =>
      cases h
      rw [hp, List.map_eq_nil_iff.mp hqs.symm, List.append_nil]
      exact ⟨rfl, fun _ => rfl⟩
  | cons q qs ih =>
      rcases q with ⟨q, ok⟩
      cases stmts with
      | nil => cases hqs
      | cons s stmts =>
          rw [List.map_cons, List.map_cons, List.cons.injEq] at hqs
          rcases hqs with ⟨rfl, hqs⟩
          cases h with
          | took _ _ _ _ _ hrest =>
              -- The statement joins those that wait for the commit.
              have hstep : (Request.execute s).apply w = ⟨w.committed, some (p ++ [s])⟩ := by
                simp only [Request.apply, hp]
              rw [hstep] at hrest
              rcases ih stmts hqs _ (p ++ [s]) rfl hrest with ⟨hcommitted, hall⟩
              refine ⟨hcommitted, fun hok => ?_⟩
              rw [hall (List.forall_mem_cons.mp hok).2, List.append_assoc, List.singleton_append]
          | lost _ _ _ _ hrest =>
              rcases ih stmts hqs w p hp hrest with ⟨hcommitted, _⟩
              exact ⟨hcommitted, fun hok => absurd (hok _ List.mem_cons_self) Bool.false_ne_true⟩

/-- Beginning a transaction and giving one up change nothing that is
    committed. -/
theorem served_idle (qs : List (Request Stmt × Bool))
    (hqs : ∀ q ∈ qs, q.1 = Request.start ∨ q.1 = Request.discard) (w w' : TxState Stmt)
    (h : Served w qs w') : w'.committed = w.committed := by
  induction h with
  | nil w => rfl
  | took w w' q ok qs _ ih =>
      rcases List.forall_mem_cons.mp hqs with ⟨hq, hqs⟩
      rw [ih hqs]
      rcases hq with hq | hq <;> rw [show q = _ from hq] <;> rfl
  | lost w w' q qs _ ih => exact ih (List.forall_mem_cons.mp hqs).2

end Txn

end Bop
