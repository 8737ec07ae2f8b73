import CanaryRouting.Data.KeyMap
import CanaryRouting.Error
import CanaryRouting.Gateway.Rule

/-!
# Managed routes

Which rules of which route were injected for which header route. Rules are known by their
position, so taking a rule out moves every later one, and the registry follows: the positions
above the removed one go down by one.
-/

namespace CanaryRouting

/-- For every managed route the routes it has a rule in, and the position of that rule. -/
structure ManagedRoutes where
  /-- The positions, by managed route and route. -/
  entries : KeyMap String (KeyMap String Nat) := KeyMap.empty
  deriving DecidableEq

namespace ManagedRoutes

/-- The registry without entries. -/
def empty : ManagedRoutes := {}

/-- Whether the managed route has an entry for any route. -/
def contains (m : ManagedRoutes) (managed : String) : Bool := m.entries.contains managed

/-- The position of the rule that the managed route has in the route. -/
def index? (m : ManagedRoutes) (managed route : String) : Option Nat :=
  (m.entries.get? managed).bind fun routes => routes.get? route

/-- Whether nothing is recorded. -/
def isEmpty (m : ManagedRoutes) : Bool := m.entries.isEmpty

/-- Records the position of an injected rule, over an earlier one for the same pair. -/
def record (m : ManagedRoutes) (managed route : String) (index : Nat) : ManagedRoutes :=
  ⟨m.entries.insert managed (((m.entries.get? managed).getD KeyMap.empty).insert route index)⟩

/-- Puts a number at its place in an ascending list, unless it is there. -/
def insertAscending (n : Nat) : List Nat → List Nat
  | [] => [n]
  | k :: ks => if n < k then n :: k :: ks else if n = k then k :: ks else k :: insertAscending n ks

/-- The positions of all rules recorded for the route, ascending. -/
def indices (m : ManagedRoutes) (route : String) : List Nat :=
  (m.entries.values.filterMap fun routes => routes.get? route).foldr insertAscending []

/-- The error that there is no entry to delete. -/
def missing (managed route : String) : RoutingError :=
  .registryEntryAbsent (managed ++ "." ++ route)

/-- Drops one entry and, with its last entry, the managed route. -/
def drop (m : ManagedRoutes) (managed route : String) : ManagedRoutes :=
  match m.entries.get? managed with
  | none => m
  | some routes =>
    if (routes.erase route).isEmpty then ⟨m.entries.erase managed⟩
    else ⟨m.entries.insert managed (routes.erase route)⟩

/-- Lets the positions in the route that are above the removed one go down by one. -/
def renumber (m : ManagedRoutes) (route : String) (removed : Nat) : ManagedRoutes :=
  ⟨m.entries.mapValues fun _ routes =>
    match routes.get? route with
    | some i => if removed < i then routes.insert route (i - 1) else routes
    | none => routes⟩

/-- Deletes the entry of a pair and renumbers the rest; with the registry comes the position that
was recorded. -/
def removeEntry (m : ManagedRoutes) (managed route : String) :
    Except RoutingError (ManagedRoutes × Nat) :=
  match m.index? managed route with
  | some removed => .ok ((m.drop managed route).renumber route removed, removed)
  | none => .error (missing managed route)

end ManagedRoutes

/-- Takes the rule of a managed route out of the rules of a route, and its entry out of the
registry. -/
def removeManagedRule (m : ManagedRoutes) (rules : List Rule) (managed route : String) :
    Except RoutingError (ManagedRoutes × List Rule) :=
  match m.index? managed route with
  | none => .error (ManagedRoutes.missing managed route)
  | some i =>
    if rules.length ≤ i then .error (.managedRuleOutOfRange managed route i rules.length)
    else (m.removeEntry managed route).map fun (m', removed) => (m', rules.eraseIdx removed)

end CanaryRouting
