import CanaryRouting.Router.Plan
import CanaryRouting.Shaping.Label
import CanaryRouting.Shaping.RegistryText
import CanaryRouting.Shaping.Weight

/-!
# Setting and verifying weights

Both operations read the registry document once and then work through the targets. Setting
changes each route and stores it; verifying stops at the first route that does not carry the
weights.
-/

namespace CanaryRouting.Router

/-- Accepts weights that are percentages. -/
def checkWeight (desired : Int) : Except RoutingError Unit :=
  if 0 ≤ desired ∧ desired ≤ 100 then .ok () else .error (.weightOutOfRange desired)

/-- The positions of the rules that were injected into a target; there are none without a
registry document. -/
def injectedRules (document : Option Document) (target : Target) :
    Except RoutingError (List Nat) :=
  match document with
  | none => .ok []
  | some d => (ManagedRoutes.load d target.kind.registryKey).map fun m => m.indices target.name

/-- A route with the weights and the label of a request. -/
def reweigh (rollout : Rollout) (settings : Settings) (desired : Int)
    (destinations : List WeightDestination) (skip : List Nat) (route : Route) :
    Except RoutingError Route := do
  let rules ← distribute route.kind route.rules rollout.canaryService rollout.stableService desired
    destinations skip
  return { route.withRules rules with
    metadata := (route.metadata.ensureLabel desired settings).1 }

/-- Sets the weights of one target. -/
def setWeightOf (rollout : Rollout) (plan : Plan) (document : Option Document) (desired : Int)
    (destinations : List WeightDestination) (target : Target) : Call Unit := do
  let route ← Call.ofStore (Store.getRoute plan.space target.kind target.name)
  let skip ← Call.ofExcept (injectedRules document target)
  let reweighed ← Call.ofExcept (reweigh rollout plan.settings desired destinations skip route)
  let _ ← Call.ofStore (Store.updateRoute plan.space reweighed)

/-- Sends the desired percentage of the traffic to the canary, on every route of the rollout. -/
def setWeight (rollout : Rollout) (desired : Int) (destinations : List WeightDestination) :
    Call Unit := do
  Call.ofExcept (checkWeight desired)
  let plan ← resolve rollout
  let document ← Call.ofStore (Store.getDocument plan.space plan.document)
  plan.targets.forM (setWeightOf rollout plan document desired destinations)

/-- Whether one target carries the weights. -/
def verifyWeightOf (rollout : Rollout) (plan : Plan) (document : Option Document) (desired : Int)
    (destinations : List WeightDestination) (target : Target) : Call Bool := do
  let route ← Call.ofStore (Store.getRoute plan.space target.kind target.name)
  let skip ← Call.ofExcept (injectedRules document target)
  Call.ofExcept (weightsApplied target.kind route.rules rollout.canaryService
    rollout.stableService desired destinations skip)

/-- Whether every route of the rollout carries the weights that `setWeight` would write. -/
def verifyWeight (rollout : Rollout) (desired : Int) (destinations : List WeightDestination) :
    Call Bool := do
  Call.ofExcept (checkWeight desired)
  let plan ← resolve rollout
  let document ← Call.ofStore (Store.getDocument plan.space plan.document)
  plan.targets.allM (verifyWeightOf rollout plan document desired destinations)

end CanaryRouting.Router
