import CanaryRouting.Router.Operation

/-!
# The API of the service

The bodies of requests to the service and of its responses. Each request carries the rollout; the
rest says what is to be done with it.
-/

namespace CanaryRouting

open Record

/-- A request to set or to verify weights. -/
structure SetWeightRequest where
  /-- The rollout. -/
  rollout : Rollout
  /-- The percentage for the canary. -/
  desiredWeight : Int
  /-- The further services. -/
  destinations : List WeightDestination
  deriving DecidableEq, Repr

namespace SetWeightRequest

/-- Reads a request to set or to verify weights. -/
def decode : Decoder SetWeightRequest :=
  (mk <$> required "rollout" Rollout.decode
    <*> required "desiredWeight" .int32
    <*> defaulted "additionalDestinations" (.list WeightDestination.decode) []).decoder
    "SetWeightRequest"

/-- Writes a request to set or to verify weights. -/
def toJson (r : SetWeightRequest) : Json :=
  .object [
    ("additionalDestinations", .array (r.destinations.map WeightDestination.toJson)),
    ("desiredWeight", .ofInt r.desiredWeight),
    ("rollout", r.rollout.toJson)]

end SetWeightRequest

/-- A request to set a header route. -/
structure SetHeaderRouteRequest where
  /-- The rollout. -/
  rollout : Rollout
  /-- The header route. -/
  header : HeaderRoute
  deriving DecidableEq, Repr

namespace SetHeaderRouteRequest

/-- Reads a request to set a header route. -/
def decode : Decoder SetHeaderRouteRequest :=
  (mk <$> required "rollout" Rollout.decode
    <*> required "headerRouting" HeaderRoute.decode).decoder "SetHeaderRouteRequest"

/-- Writes a request to set a header route. -/
def toJson (r : SetHeaderRouteRequest) : Json :=
  .object [("headerRouting", r.header.toJson), ("rollout", r.rollout.toJson)]

end SetHeaderRouteRequest

/-- A request that tells the hashes of the pod templates. -/
structure UpdateHashRequest where
  /-- The rollout. -/
  rollout : Rollout
  /-- The hash of the canary. -/
  canaryHash : String
  /-- The hash of the stable version. -/
  stableHash : String
  /-- The further services. -/
  destinations : List WeightDestination
  deriving DecidableEq, Repr

namespace UpdateHashRequest

/-- Reads a request that tells the hashes of the pod templates. -/
def decode : Decoder UpdateHashRequest :=
  (mk <$> required "rollout" Rollout.decode
    <*> defaulted "canaryHash" .text ""
    <*> defaulted "stableHash" .text ""
    <*> defaulted "additionalDestinations" (.list WeightDestination.decode) []).decoder
    "UpdateHashRequest"

/-- Writes a request that tells the hashes of the pod templates. -/
def toJson (r : UpdateHashRequest) : Json :=
  .object [
    ("additionalDestinations", .array (r.destinations.map WeightDestination.toJson)),
    ("canaryHash", .string r.canaryHash),
    ("rollout", r.rollout.toJson),
    ("stableHash", .string r.stableHash)]

end UpdateHashRequest

/-- A request that says nothing but the rollout. -/
structure RolloutRequest where
  /-- The rollout. -/
  rollout : Rollout
  deriving DecidableEq, Repr

namespace RolloutRequest

/-- Reads a request that says nothing but the rollout. -/
def decode : Decoder RolloutRequest :=
  (mk <$> required "rollout" Rollout.decode).decoder "RolloutRequest"

/-- Writes a request that says nothing but the rollout. -/
def toJson (r : RolloutRequest) : Json := .object [("rollout", r.rollout.toJson)]

end RolloutRequest

/-- The outcome of an operation. -/
structure OperationResponse where
  /-- The message of the error, if the operation failed. -/
  error : Option String := none
  /-- What a verification found. -/
  verified : Option Bool := none
  deriving DecidableEq, Repr

namespace OperationResponse

/-- Reads an outcome. -/
def decode : Decoder OperationResponse :=
  (mk <$> optional "error" .text <*> optional "verified" .boolean).decoder "OperationResponse"

/-- Writes an outcome; both members are always there. -/
def toJson (r : OperationResponse) : Json :=
  .object [
    ("error", r.error.elim .null .string),
    ("verified", r.verified.elim .null .bool)]

/-- The outcome of an operation that has ended. -/
def ofResult : Except RoutingError (Option Bool) → OperationResponse
  | .ok verified => { verified }
  | .error error => { error := some error.message }

end OperationResponse

/-- The name by which the orchestrator knows the router. -/
structure TypeResponse where
  /-- The name. -/
  name : String
  deriving DecidableEq, Repr

namespace TypeResponse

/-- Reads a name. -/
def decode : Decoder TypeResponse := (mk <$> required "type" .text).decoder "TypeResponse"

/-- Writes a name. -/
def toJson (r : TypeResponse) : Json := .object [("type", .string r.name)]

end TypeResponse

/-! ### Endpoints -/

/-- An operation that can be called through the service. -/
inductive Endpoint where
  /-- Setting weights. -/
  | setWeight
  /-- Setting a header route. -/
  | setHeaderRoute
  /-- Removing the declared header routes. -/
  | removeManagedRoutes
  /-- Verifying weights. -/
  | verifyWeight
  /-- Telling hashes. -/
  | updateHash
  deriving DecidableEq, Repr

namespace Endpoint

/-- All of them. -/
def all : List Endpoint := [setWeight, setHeaderRoute, removeManagedRoutes, verifyWeight, updateHash]

/-- The name in paths and metrics. -/
def name : Endpoint → String
  | setWeight => "set-weight"
  | setHeaderRoute => "set-header-route"
  | removeManagedRoutes => "remove-managed-routes"
  | verifyWeight => "verify-weight"
  | updateHash => "update-hash"

/-- Reads the body of a call: the rollout, and what is to be done. -/
def decode : Endpoint → Decoder (Rollout × Operation)
  | setWeight => SetWeightRequest.decode.map fun r =>
      (r.rollout, .setWeight r.desiredWeight r.destinations)
  | verifyWeight => SetWeightRequest.decode.map fun r =>
      (r.rollout, .verifyWeight r.desiredWeight r.destinations)
  | setHeaderRoute => SetHeaderRouteRequest.decode.map fun r => (r.rollout, .setHeaderRoute r.header)
  | removeManagedRoutes => RolloutRequest.decode.map fun r => (r.rollout, .removeManagedRoutes)
  | updateHash => UpdateHashRequest.decode.map fun r => (r.rollout, .updateHash)

end Endpoint

end CanaryRouting
