import CanaryRouting.Router.HeaderRoutes
import CanaryRouting.Router.Weights

/-!
# Operations of the router

Everything the orchestrator can ask of the router. Only verifying has a result to report.
-/

namespace CanaryRouting

/-- What the orchestrator asks for. -/
inductive Operation where
  /-- Sends a percentage of the traffic to the canary. -/
  | setWeight (desired : Int) (destinations : List WeightDestination)
  /-- Asks whether that has been done. -/
  | verifyWeight (desired : Int) (destinations : List WeightDestination)
  /-- Sets or removes a header route. -/
  | setHeaderRoute (header : HeaderRoute)
  /-- Removes the header routes that the rollout declares. -/
  | removeManagedRoutes
  /-- Tells the hashes of the pod templates, which play no part in routing. -/
  | updateHash

namespace Router

/-- The name by which the orchestrator knows the router. -/
def typeName : String := "GatewayAPI"

/-- Carries out an operation for a rollout. -/
def perform (rollout : Rollout) : Operation → Call (Option Bool)
  | .setWeight desired destinations => do
    setWeight rollout desired destinations
    return none
  | .verifyWeight desired destinations => do
    return some (← verifyWeight rollout desired destinations)
  | .setHeaderRoute header => do
    setHeaderRoute rollout header
    return none
  | .removeManagedRoutes => do
    removeManagedRoutes rollout
    return none
  | .updateHash => return none

end Router

end CanaryRouting
