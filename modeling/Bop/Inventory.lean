import Bop.Core
import Bop.Json.Value
import Mathlib.Data.List.AList

/-!
# The Inventory

The servers to back up, each with its plugins, its retention policy and the
repository it stores into. A Go map is a finite map without an order of its
own: ranging over one visits the keys in any order, so a function that ranges
takes the order as an argument.

A plugin's configuration is whatever a YAML or a JSON document can hold, and
each plugin parses its own out of it.

## Main definitions

* `GoMap`: A `map[string]V`.
* `Dyn`: An `interface{}` value from a document.
* `PluginConfig`, `Server`, `Inventory`: The file.
* `Server.check`, `Inventory.validate`: What is required of it.

## Theorems

* `validate_ok_iff`: Validation accepts exactly when every server passes.
* `validate_order`: The order of the range decides only which error is
  reported.
-/

namespace Bop

/-- A Go `map[string]V`. -/
abbrev GoMap (V : Type) := AList (fun _ : Bytes => V)

/-- A value of a configuration document. A number from JSON is kept as its
    literal, since every reader of one converts it on its own. -/
inductive Dyn
  | nil
  | bool (b : Bool)
  | int (i : Int)
  | float (n : Json.Number)
  | str (s : Bytes)
  | list (xs : List Dyn)
  | map (ms : List (Bytes × Dyn))

/-- A plugin's settings for one host. The map itself may be nil. -/
structure PluginConfig where
  config : Option (List (Bytes × Dyn))

/-- One host's entry. A plugin without settings has a nil value. -/
structure Server where
  host : Bytes
  sshUser : Bytes
  sshKey : Bytes
  plugins : GoMap (Option PluginConfig)
  retention : Policy
  schedule : Bytes
  verification : Option Verification
  storage : Bytes

/-- The inventory file. -/
structure Inventory where
  servers : GoMap Server

/-- The checks `Validate` makes of one server. -/
def Server.check (name : Bytes) (srv : Server) : Except Bytes Unit :=
  if srv.host = [] then
    .error ("server " ++ quoteGo name ++ ": host is required")
  else if srv.plugins.entries.length = 0 then
    .error ("server " ++ quoteGo name ++ ": at least one plugin is required")
  else if srv.retention.daily < 0 ∨ srv.retention.weekly < 0 ∨ srv.retention.monthly < 0 ∨
      srv.retention.yearly < 0 then
    .error ("server " ++ quoteGo name ++ ": retention values must not be negative")
  else .ok ()

/-- The loop of `Validate`, over the servers in the order the range visits
    them. -/
def checkAll : List (Sigma fun _ : Bytes => Server) → Except Bytes Unit
  | [] => .ok ()
  | s :: rest => match s.2.check s.1 with
    | .error err => .error err
    | .ok () => checkAll rest

/-- `Inventory.Validate`, given the order in which it ranges over the servers. -/
def Inventory.validate (inv : Inventory) (order : List (Sigma fun _ : Bytes => Server)) :
    Except Bytes Unit :=
  if inv.servers.entries.length = 0 then .error "no servers defined" else checkAll order

/-- An inventory that `Load` returns: some range over its servers passed. -/
def Inventory.Accepted (inv : Inventory) : Prop :=
  ∃ order, order.Perm inv.servers.entries ∧ inv.validate order = .ok ()

theorem checkAll_ok_iff (order : List (Sigma fun _ : Bytes => Server)) :
    checkAll order = .ok () ↔ ∀ s ∈ order, s.2.check s.1 = .ok () := by
  induction order with
  | nil => simp only [checkAll, List.not_mem_nil, false_implies, implies_true]
  | cons s rest ih =>
      rw [checkAll, List.forall_mem_cons, ← ih]
      cases s.2.check s.1 with
      | error err => simp only [reduceCtorEq, false_and]
      | ok u => simp only [true_and]

/-- Validation accepts exactly when there is a server and every one passes. -/
theorem validate_ok_iff (inv : Inventory) (order : List (Sigma fun _ : Bytes => Server))
    (h : order.Perm inv.servers.entries) :
    inv.validate order = .ok () ↔
      inv.servers.entries.length ≠ 0 ∧
        ∀ s ∈ inv.servers.entries, s.2.check s.1 = .ok () := by
  have hmem : (∀ s ∈ order, s.2.check s.1 = .ok ()) ↔
      ∀ s ∈ inv.servers.entries, s.2.check s.1 = .ok () := by
    constructor
    · exact fun hall s hs => hall s (h.mem_iff.mpr hs)
    · exact fun hall s hs => hall s (h.mem_iff.mp hs)
  rw [Inventory.validate, ← hmem, ← checkAll_ok_iff]
  split_ifs with h0
  · simp only [ne_eq, h0, not_true_eq_false, false_and]
  · simp only [ne_eq, h0, not_false_eq_true, true_and]

/-- The order of the range decides only which error is reported. -/
theorem validate_order (inv : Inventory) (order order' : List (Sigma fun _ : Bytes => Server))
    (h : order.Perm inv.servers.entries) (h' : order'.Perm inv.servers.entries) :
    inv.validate order = .ok () ↔ inv.validate order' = .ok () := by
  rw [validate_ok_iff inv order h, validate_ok_iff inv order' h']

end Bop
