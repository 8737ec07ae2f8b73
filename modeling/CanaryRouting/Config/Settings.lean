import CanaryRouting.Config.Selector
import CanaryRouting.Error

/-!
# Routing configurations

A rollout says which routes are to be shaped: for each kind of route a single one by name, a list
of named ones, and a selector for those to be discovered. `Settings.ofJson` decodes a
configuration and refuses one that names nothing.
-/

namespace CanaryRouting

open Record

/-- A named route of a list. -/
structure RouteEntry where
  /-- The name of the route. -/
  name : String
  /-- Whether header routes are added to it. -/
  useHeaderRoutes : Bool := false
  deriving DecidableEq, Repr

/-- Reads a named route. -/
def RouteEntry.decode : Decoder RouteEntry :=
  (mk <$> required "name" .text
    <*> defaulted "useHeaderRoutes" .boolean false).decoder "RouteEntry"

/-- Writes a named route. -/
def RouteEntry.toJson (e : RouteEntry) : Json :=
  .object [("name", .string e.name), ("useHeaderRoutes", .bool e.useHeaderRoutes)]

/-- What a configuration says about one kind of route. -/
structure RouteChoice where
  /-- A single route, with header routes. -/
  single : Option String := none
  /-- Listed routes. -/
  listed : List RouteEntry := []
  /-- A selector for routes to discover, with header routes. -/
  selector : Option LabelSelector := none
  deriving DecidableEq

/-- A routing configuration. -/
structure Settings where
  /-- The HTTP routes. -/
  http : RouteChoice := {}
  /-- The GRPC routes. -/
  grpc : RouteChoice := {}
  /-- The TCP routes. -/
  tcp : RouteChoice := {}
  /-- The TLS routes. -/
  tls : RouteChoice := {}
  /-- The namespace of the routes and the registry document. -/
  space : Option String := none
  /-- The name of the registry document. -/
  document : Option String := none
  /-- Whether routes are never labelled. -/
  disableLabel : Bool := false
  /-- The key of the label. -/
  labelKey : Option String := none
  /-- The value of the label. -/
  labelValue : Option String := none
  deriving DecidableEq

namespace Settings

/-- Reads a configuration. -/
def decode : Decoder Settings :=
  ((fun http grpc tcp tls https grpcs tcps tlss httpSel grpcSel tcpSel tlsSel space document
      disableLabel labelKey labelValue =>
      { http := ⟨http, https, httpSel⟩, grpc := ⟨grpc, grpcs, grpcSel⟩, tcp := ⟨tcp, tcps, tcpSel⟩,
        tls := ⟨tls, tlss, tlsSel⟩, space, document, disableLabel, labelKey, labelValue })
    <$> optional "httpRoute" .text
    <*> optional "grpcRoute" .text
    <*> optional "tcpRoute" .text
    <*> optional "tlsRoute" .text
    <*> defaulted "httpRoutes" (.list RouteEntry.decode) []
    <*> defaulted "grpcRoutes" (.list RouteEntry.decode) []
    <*> defaulted "tcpRoutes" (.list RouteEntry.decode) []
    <*> defaulted "tlsRoutes" (.list RouteEntry.decode) []
    <*> optional "httpRouteSelector" LabelSelector.decode
    <*> optional "grpcRouteSelector" LabelSelector.decode
    <*> optional "tcpRouteSelector" LabelSelector.decode
    <*> optional "tlsRouteSelector" LabelSelector.decode
    <*> optional "namespace" .text
    <*> optional "configMap" .text
    <*> defaulted "disableInProgressLabel" .boolean false
    <*> optional "inProgressLabelKey" .text
    <*> optional "inProgressLabelValue" .text).decoder "GatewayAPITrafficRouting"

/-- A list of routes, unless it is empty. -/
def entriesMember (key : String) (entries : List RouteEntry) : Option (String × Json) :=
  if entries.isEmpty then none else some (key, .array (entries.map RouteEntry.toJson))

/-- Writes a configuration. -/
def toJson (s : Settings) : Json :=
  .record [
    Json.whenSome "configMap" .string s.document,
    Json.always "disableInProgressLabel" (.bool s.disableLabel),
    Json.whenSome "grpcRoute" .string s.grpc.single,
    Json.whenSome "grpcRouteSelector" LabelSelector.toJson s.grpc.selector,
    entriesMember "grpcRoutes" s.grpc.listed,
    Json.whenSome "httpRoute" .string s.http.single,
    Json.whenSome "httpRouteSelector" LabelSelector.toJson s.http.selector,
    entriesMember "httpRoutes" s.http.listed,
    Json.whenSome "inProgressLabelKey" .string s.labelKey,
    Json.whenSome "inProgressLabelValue" .string s.labelValue,
    Json.whenSome "namespace" .string s.space,
    Json.whenSome "tcpRoute" .string s.tcp.single,
    Json.whenSome "tcpRouteSelector" LabelSelector.toJson s.tcp.selector,
    entriesMember "tcpRoutes" s.tcp.listed,
    Json.whenSome "tlsRoute" .string s.tls.single,
    Json.whenSome "tlsRouteSelector" LabelSelector.toJson s.tls.selector,
    entriesMember "tlsRoutes" s.tls.listed]

/-! ### What a configuration says -/

/-- What it says about a kind of route. -/
def choice (s : Settings) : RouteKind → RouteChoice
  | .http => s.http
  | .grpc => s.grpc
  | .tcp => s.tcp
  | .tls => s.tls

/-- A text, or the default if it is absent or empty. -/
def orDefault (s : Option String) (default : String) : String :=
  (s.filter fun v => v ≠ "").getD default

/-- The single route of a kind; an empty name is none. -/
def single? (s : Settings) (kind : RouteKind) : Option String :=
  (s.choice kind).single.filter fun v => v ≠ ""

/-- The namespace of the routes, by default that of the rollout. -/
def namespaceOr (s : Settings) (rolloutSpace : String) : String := orDefault s.space rolloutSpace

/-- The name of the registry document. -/
def documentName (s : Settings) : String := orDefault s.document "argo-gatewayapi-configmap"

/-- The key of the label of a route with canary traffic. -/
def inProgressKey (s : Settings) : String :=
  orDefault s.labelKey "rollouts.argoproj.io/gatewayapi-canary"

/-- The value of that label. -/
def inProgressValue (s : Settings) : String := orDefault s.labelValue "in-progress"

/-- Accepts a configuration that names at least one route or has a selector, and whose listed
routes all have names. -/
def validate (s : Settings) : Except ConfigError Unit :=
  let named := RouteKind.all.any fun k => (s.single? k).isSome || !(s.choice k).listed.isEmpty
  let selecting := RouteKind.all.any fun k => (s.choice k).selector.isSome
  if !(named || selecting) then .error .nothingToRoute
  else
    match RouteKind.all.find? fun k => (s.choice k).listed.any fun e => e.name = "" with
    | some kind => .error (.unnamedEntry kind)
    | none => .ok ()

/-- The configuration that a value is. -/
def ofJson (j : Json) : Except ConfigError Settings := do
  let s ← (decode.ofJson j).mapError .undecodable
  s.validate
  return s

end Settings

end CanaryRouting
