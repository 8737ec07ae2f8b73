import CanaryRouting.Config.Rollout
import CanaryRouting.Config.Target
import CanaryRouting.Store.Program

/-!
# Plans

Before anything is changed, a request is resolved: the configuration is decoded, and the selectors
are asked for the routes they pick. The `Plan` says on which routes and with which registry
document the request works. The first failure of any step ends the request.
-/

namespace CanaryRouting

/-- A part of an operation: it may ask requests, and it may fail. -/
abbrev Call (α : Type) := ExceptT RoutingError Program α

namespace Call

/-- Takes over what has been computed without asking. -/
def ofExcept {α : Type} (x : Except RoutingError α) : Call α := ExceptT.mk (pure x)

/-- Takes over an operation of the store. -/
def ofStore {α : Type} (p : Program (Except StoreError α)) : Call α :=
  ExceptT.mk do return (← p).mapError .store

/-- Waits for the lock of a registry document, which is held until the operation ends. -/
def acquire (space document : String) : Call Unit :=
  ExceptT.mk do return .ok (← Program.acquire space document)

end Call

/-- What a request works on. -/
structure Plan where
  /-- The namespace of the routes and the registry document. -/
  space : String
  /-- The name of the registry document. -/
  document : String
  /-- The configuration. -/
  settings : Settings
  /-- The routes. -/
  targets : List Target
  deriving DecidableEq

/-- The routes that get header routes. -/
def Plan.headerTargets (p : Plan) : List Target := p.targets.filter Target.takesHeaderRoutes

namespace Router

/-- Adds the routes of one kind that the configured selector picks. -/
def discover (settings : Settings) (space : String) (targets : List Target) (kind : RouteKind) :
    Call (List Target) :=
  match (settings.choice kind).selector with
  | none => return targets
  | some selector => do
    let names ← Call.ofStore (Store.listRoutes space kind selector)
    return Target.addDiscovered targets kind names

/-- Resolves a request. -/
def resolve (rollout : Rollout) : Call Plan := do
  let settings ← Call.ofExcept
    ((Settings.ofJson rollout.trafficRouting).mapError .invalidConfig)
  let space := settings.namespaceOr rollout.space
  let targets ← RouteKind.all.foldlM (discover settings space) settings.targets
  return { space, document := settings.documentName, settings, targets }

end Router

end CanaryRouting
