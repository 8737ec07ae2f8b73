import CanaryRouting.Config.Settings

/-!
# Targets

The routes that a request acts on: the configured ones and those discovered by selectors. Each
route is a target once, in the order of the kinds and within a kind in the order in which it was
first named. Naming a route again can only switch its header routes on.
-/

namespace CanaryRouting

/-- A route that a request acts on. -/
structure Target where
  /-- The kind of the route. -/
  kind : RouteKind
  /-- The name of the route. -/
  name : String
  /-- Whether header routes are asked for. -/
  useHeaderRoutes : Bool
  deriving DecidableEq, Repr

namespace Target

/-- Whether the route gets header routes: they are asked for, and its kind can carry them. -/
def takesHeaderRoutes (t : Target) : Bool := t.useHeaderRoutes && t.kind.supportsHeaderRoutes

/-- Whether the target is the route of this kind and name. -/
def isFor (t : Target) (kind : RouteKind) (name : String) : Bool :=
  t.kind = kind && t.name = name

/-- Adds a route to the targets: before the first one of a later kind if it is new, and otherwise
by switching on the header routes of the one that is there. -/
def add (targets : List Target) (kind : RouteKind) (name : String) (useHeaderRoutes : Bool) :
    List Target :=
  if targets.any fun t => t.isFor kind name then
    targets.map fun t =>
      if t.isFor kind name then { t with useHeaderRoutes := t.useHeaderRoutes || useHeaderRoutes }
      else t
  else
    targets.takeWhile (fun t => t.kind.rank ≤ kind.rank) ++ ⟨kind, name, useHeaderRoutes⟩
      :: targets.dropWhile (fun t => t.kind.rank ≤ kind.rank)

/-- Adds the routes that a selector discovered; these get header routes. -/
def addDiscovered (targets : List Target) (kind : RouteKind) (names : List String) :
    List Target :=
  names.foldl (fun ts name => add ts kind name true) targets

end Target

namespace Settings

/-- Adds the configured routes of a kind, first the listed ones and then the single one. -/
def addTargets (s : Settings) (targets : List Target) (kind : RouteKind) : List Target :=
  let listed := (s.choice kind).listed.foldl
    (fun ts e => Target.add ts kind e.name e.useHeaderRoutes) targets
  match s.single? kind with
  | some name => Target.add listed kind name true
  | none => listed

/-- The configured routes. -/
def targets (s : Settings) : List Target := RouteKind.all.foldl s.addTargets []

end Settings

end CanaryRouting
