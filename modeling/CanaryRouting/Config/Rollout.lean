import CanaryRouting.Json.Decoder

/-!
# Requests of a rollout

What the orchestrator of a rollout sends: the state of the rollout, which comes with every
request, the further services that get a share of the traffic, and the header route to set.
-/

namespace CanaryRouting

open Record

/-- A header route that a rollout declares. -/
structure ManagedRoute where
  /-- Its name. -/
  name : String
  deriving DecidableEq, Repr

/-- Reads a declared header route. -/
def ManagedRoute.decode : Decoder ManagedRoute :=
  (mk <$> required "name" .text).decoder "ManagedRoute"

/-- Writes a declared header route. -/
def ManagedRoute.toJson (m : ManagedRoute) : Json := .object [("name", .string m.name)]

/-- The state of a rollout. -/
structure Rollout where
  /-- The name of the rollout. -/
  name : String
  /-- The namespace of the rollout. -/
  space : String
  /-- The service of the new version. -/
  canaryService : String
  /-- The service of the version in use. -/
  stableService : String
  /-- The header routes the rollout declares; a removal is about these. -/
  managedRoutes : List ManagedRoute
  /-- The routing configuration as it was sent. -/
  trafficRouting : Json
  deriving DecidableEq, Repr

/-- Reads a rollout. -/
def Rollout.decode : Decoder Rollout :=
  (mk <$> required "name" .text
    <*> required "namespace" .text
    <*> required "canaryService" .text
    <*> required "stableService" .text
    <*> defaulted "managedRoutes" (.list ManagedRoute.decode) []
    <*> defaulted "trafficRouting" .json .null).decoder "RolloutContext"

/-- Writes a rollout. -/
def Rollout.toJson (r : Rollout) : Json :=
  .object [
    ("canaryService", .string r.canaryService),
    ("managedRoutes", .array (r.managedRoutes.map ManagedRoute.toJson)),
    ("name", .string r.name),
    ("namespace", .string r.space),
    ("stableService", .string r.stableService),
    ("trafficRouting", r.trafficRouting)]

/-- A further service that gets a fixed share of the traffic. -/
structure WeightDestination where
  /-- The service. -/
  service : String
  /-- Its share. -/
  weight : Int
  /-- The hash of its pod template, which plays no part in routing. -/
  podTemplateHash : Option String := none
  deriving DecidableEq, Repr

/-- Reads a further service. -/
def WeightDestination.decode : Decoder WeightDestination :=
  (mk <$> required "serviceName" .text
    <*> required "weight" .int32
    <*> optional "podTemplateHash" .text).decoder "WeightDestination"

/-- Writes a further service. -/
def WeightDestination.toJson (d : WeightDestination) : Json :=
  .record [
    Json.whenSome "podTemplateHash" .string d.podTemplateHash,
    Json.always "serviceName" (.string d.service),
    Json.always "weight" (.ofInt d.weight)]

/-- A condition on a text, of which one part is meant to be given. -/
structure TextCondition where
  /-- The whole text. -/
  exact : Option String := none
  /-- The beginning of the text. -/
  start : Option String := none
  /-- A regular expression. -/
  regex : Option String := none
  deriving DecidableEq, Repr

/-- Reads a condition on a text. -/
def TextCondition.decode : Decoder TextCondition :=
  (mk <$> optional "exact" .text
    <*> optional "prefix" .text
    <*> optional "regex" .text).decoder "StringMatch"

/-- Writes a condition on a text. -/
def TextCondition.toJson (c : TextCondition) : Json :=
  .record [
    Json.whenSome "exact" .string c.exact,
    Json.whenSome "prefix" .string c.start,
    Json.whenSome "regex" .string c.regex]

/-- A condition on a header. -/
structure HeaderCondition where
  /-- The header. -/
  header : String
  /-- The condition on its value. -/
  value : TextCondition
  deriving DecidableEq, Repr

/-- Reads a condition on a header. -/
def HeaderCondition.decode : Decoder HeaderCondition :=
  (mk <$> required "headerName" .text
    <*> required "headerValue" TextCondition.decode).decoder "HeaderRoutingMatch"

/-- Writes a condition on a header. -/
def HeaderCondition.toJson (c : HeaderCondition) : Json :=
  .object [("headerName", .string c.header), ("headerValue", c.value.toJson)]

/-- A header route to set; without conditions it is to be removed. -/
structure HeaderRoute where
  /-- Its name. -/
  name : String
  /-- The conditions on headers. -/
  conditions : List HeaderCondition
  deriving DecidableEq, Repr

/-- Reads a header route. -/
def HeaderRoute.decode : Decoder HeaderRoute :=
  (mk <$> required "name" .text
    <*> defaulted "match" (.list HeaderCondition.decode) []).decoder "SetHeaderRoute"

/-- Writes a header route. -/
def HeaderRoute.toJson (h : HeaderRoute) : Json :=
  .object [
    ("match", .array (h.conditions.map HeaderCondition.toJson)),
    ("name", .string h.name)]

end CanaryRouting
