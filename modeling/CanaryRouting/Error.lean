import CanaryRouting.Gateway.Kind
import CanaryRouting.Json.Decoder
import CanaryRouting.Text.Quoted

/-!
# Errors

What can go wrong with a request, by cause, and the one place where each cause gets its wording.
-/

namespace CanaryRouting

/-- A request to the API server that did not do what it was meant to do; `what` names the object
or list concerned. -/
inductive StoreError where
  /-- The object does not exist. -/
  | notFound (what : String)
  /-- The object has been changed in the meantime, or exists already. -/
  | conflict (what : String)
  /-- The server refused for another reason, or its answer could not be read. -/
  | failed (what : String)
  deriving DecidableEq, Repr

/-- The message of a store error. -/
def StoreError.message : StoreError → String
  | .notFound what => what ++ " not found"
  | .conflict what => "Conflict writing " ++ what
  | .failed what => "Kubernetes API error on " ++ what

/-- Why a routing configuration is not accepted. -/
inductive ConfigError where
  /-- It cannot be decoded. -/
  | undecodable (fault : Fault)
  /-- It names neither a route nor a selector. -/
  | nothingToRoute
  /-- It lists a route without a name. -/
  | unnamedEntry (kind : RouteKind)
  /-- It asks for header routes where there cannot be any. -/
  | noHeaderRoutes (kind : RouteKind)
  deriving DecidableEq, Repr

/-- The reason as a message gives it. -/
def ConfigError.message : ConfigError → String
  | .undecodable fault => fault.message
  | .nothingToRoute => "no route or route selector configured"
  | .unnamedEntry kind => kind.name ++ " entry without a name"
  | .noHeaderRoutes kind => kind.name ++ " does not support header routes"

/-- A compensation that failed, so that the write of its step stays in place. -/
structure CompensationFailure where
  /-- What the step does. -/
  step : String
  /-- Why it could not be undone. -/
  error : StoreError
  deriving DecidableEq, Repr

/-- A transaction in which a step failed. -/
structure TransactionFailure where
  /-- What the failed step was to do. -/
  step : String
  /-- Why it failed. -/
  source : StoreError
  /-- The steps before it that could not be undone, in the order in which that was tried. -/
  compensationFailures : List CompensationFailure
  deriving DecidableEq, Repr

/-- Whether everything the transaction had written was undone. -/
def TransactionFailure.isConsistent (f : TransactionFailure) : Bool :=
  f.compensationFailures.isEmpty

/-- Why a routing operation failed. -/
inductive RoutingError where
  /-- No rule of the route has a backend reference. -/
  | noBackendRefs (kind : RouteKind)
  /-- No rule references the service. -/
  | backendRefNotFound (kind : RouteKind) (service : String)
  /-- No rule references both services. -/
  | ruleNotFound (kind : RouteKind) (canary stable : String)
  /-- A requested header condition says nothing about the value. -/
  | invalidHeaderMatch (header : String)
  /-- The registry has no entry to delete. -/
  | registryEntryAbsent (key : String)
  /-- A registry entry points past the last rule. -/
  | managedRuleOutOfRange (managed route : String) (index rules : Nat)
  /-- A registry text cannot be decoded. -/
  | documentDecode (key : String)
  /-- The routing configuration is not accepted. -/
  | invalidConfig (why : ConfigError)
  /-- The weight is not a percentage. -/
  | weightOutOfRange (weight : Int)
  /-- A request to the API server failed. -/
  | store (error : StoreError)
  /-- A transaction failed. -/
  | transaction (failure : TransactionFailure)
  deriving DecidableEq, Repr

/-- Whether the error reports that what was written could not be undone. -/
def RoutingError.isInconsistent : RoutingError → Bool
  | .transaction failure => !failure.isConsistent
  | _ => false

/-- The message of a routing error. -/
def RoutingError.message : RoutingError → String
  | .noBackendRefs kind => kind.name ++ " backendRefs list was not found"
  | .backendRefNotFound kind service =>
    kind.name ++ " backendRef " ++ Text.quoted service ++ " was not found"
  | .ruleNotFound kind canary stable =>
    kind.name ++ " rule referencing " ++ Text.quoted canary ++ " and " ++ Text.quoted stable
      ++ " was not found"
  | .invalidHeaderMatch header => "Invalid header match type for header " ++ Text.quoted header
  | .registryEntryAbsent key =>
    "Failed to delete " ++ Text.quoted key ++ " from managed route map: entry is absent"
  | .managedRuleOutOfRange managed route index rules =>
    "Managed route " ++ Text.quoted managed ++ " points at rule " ++ toString index ++ " but "
      ++ Text.quoted route ++ " has " ++ toString rules ++ " rules"
  | .documentDecode key => "Failed to decode " ++ key ++ " from registry document"
  | .invalidConfig why => "Invalid traffic routing config: " ++ why.message
  | .weightOutOfRange weight => "Desired weight " ++ toString weight ++ " is outside 0..=100"
  | .store error => error.message
  | .transaction failure => failure.source.message

end CanaryRouting
