import CanaryRouting.Router.Plan
import CanaryRouting.Shaping.HeaderRule
import CanaryRouting.Store.Write

/-!
# Setting and removing header routes

A header route changes two objects for each target: the route, which gains or loses a rule, and
the registry document, which records the position of that rule. The two writes make one
transaction. The document as it was stored by the transaction of one target is what the next
target starts from. Operations on one registry document wait for each other.
-/

namespace CanaryRouting.Router

/-- The registry document of a plan, created if it does not exist. -/
def getOrCreateDocument (plan : Plan) : Call Document := do
  match ← Call.ofStore (Store.getDocument plan.space plan.document) with
  | some document => return document
  | none => Call.ofStore (Store.createDocument plan.space plan.document)

/-- A change that concerns one target: the rules of its route and the managed routes of its kind,
before and after. -/
structure RouteChange where
  /-- The route as it was read. -/
  before : Route
  /-- The route as it is to be. -/
  after : Route
  /-- The managed routes as they were read. -/
  registryBefore : ManagedRoutes
  /-- The managed routes as they are to be. -/
  registryAfter : ManagedRoutes

/-- The writes that a change consists of, the route first. -/
def RouteChange.writes (change : RouteChange) (plan : Plan) (document : Document) (key : String) :
    List Write := [
  .route { space := plan.space, before := change.before, after := change.after },
  .document (.make plan.space document key change.registryBefore change.registryAfter)]

/-- Writes a route and the registry document together; the document is returned as it is stored. -/
def commit (plan : Plan) (document : Document) (key : String) (change : RouteChange) :
    Call Document := do
  let steps ← ExceptT.mk do
    return (← Transaction.run (m := Program) (change.writes plan document key)).mapError
      RoutingError.transaction
  match steps.findSome? Write.writtenDocument? with
  | some written => return written
  | none => throw (.store (.notFound ("ConfigMap " ++ plan.space ++ "/" ++ plan.document)))

/-! ### Setting -/

/-- A route with the rule of a header route added; with the route comes the position of the rule. -/
def inject (rollout : Rollout) (headers : List HeaderPredicate) (route : Route) :
    Except RoutingError (Route × Nat) :=
  if route.kind.supportsHeaderRoutes then
    (injectHeaderRule route.kind route.rules rollout.canaryService rollout.stableService
      headers).map fun (rules, index) => (route.withRules rules, index)
  else .error (.invalidConfig (.noHeaderRoutes route.kind))

/-- Adds a header route to one target. -/
def setHeaderRouteOf (rollout : Rollout) (plan : Plan) (name : String)
    (headers : List HeaderPredicate) (document : Document) (target : Target) : Call Document := do
  let key := target.kind.registryKey
  let registry ← Call.ofExcept (ManagedRoutes.load document key)
  let route ← Call.ofStore (Store.getRoute plan.space target.kind target.name)
  let (injected, index) ← Call.ofExcept (inject rollout headers route)
  commit plan document key ⟨route, injected, registry, registry.record name target.name index⟩

/-! ### Removing -/

/-- The rules and managed routes that a removal leaves, and whether it removed anything. -/
structure Removal where
  /-- The managed routes. -/
  registry : ManagedRoutes
  /-- The rules. -/
  rules : List Rule
  /-- Whether a rule was removed. -/
  changed : Bool := false

/-- Removes the rule of one managed route from a route; a name that is not in the registry is
passed over. -/
def Removal.remove (route : String) (r : Removal) (name : String) : Except RoutingError Removal :=
  if r.registry.contains name then
    (removeManagedRule r.registry r.rules name route).map fun (registry, rules) =>
      ⟨registry, rules, true⟩
  else .ok r

/-- Removes managed routes from one target. -/
def removeRoutesOf (plan : Plan) (names : List String) (document : Document) (target : Target) :
    Call Document := do
  let key := target.kind.registryKey
  let registry ← Call.ofExcept (ManagedRoutes.load document key)
  let route ← Call.ofStore (Store.getRoute plan.space target.kind target.name)
  let removal ← Call.ofExcept
    (names.foldlM (Removal.remove target.name) { registry, rules := route.rules })
  if removal.changed then
    commit plan document key
      ⟨route, route.withRules removal.rules, registry, removal.registry⟩
  else return document

/-- Removes managed routes from every target that takes header routes. -/
def removeRoutes (plan : Plan) (names : List String) : Call Unit := do
  Call.acquire plan.space plan.document
  let document ← getOrCreateDocument plan
  let _ ← plan.headerTargets.foldlM (removeRoutesOf plan names) document

/-! ### Operations -/

/-- Adds a header route to every target that takes one, or, without conditions, removes it. -/
def setHeaderRoute (rollout : Rollout) (header : HeaderRoute) : Call Unit := do
  let plan ← resolve rollout
  if header.conditions.isEmpty then
    removeRoutes plan [header.name]
  else
    let headers ← Call.ofExcept (headerPredicates header.conditions)
    Call.acquire plan.space plan.document
    let document ← getOrCreateDocument plan
    let _ ← plan.headerTargets.foldlM (setHeaderRouteOf rollout plan header.name headers) document

/-- Removes the header routes that the rollout declares. -/
def removeManagedRoutes (rollout : Rollout) : Call Unit := do
  let plan ← resolve rollout
  removeRoutes plan (rollout.managedRoutes.map ManagedRoute.name)

end CanaryRouting.Router
