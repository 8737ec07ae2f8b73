import CanaryRouting.Cluster.Interleaving
import CanaryRouting.Router.Operation

/-!
# Requests to several routers at once

Any number of instances of the router use one cluster, and each may carry out several operations
at once. The instances are the hosts: only operations of one instance wait for each other's locks.
-/

namespace CanaryRouting

/-- An operation that an instance of the router is asked for. -/
structure Order where
  /-- The instance. -/
  host : Nat := 0
  /-- The rollout. -/
  rollout : Rollout
  /-- The operation. -/
  operation : Operation

namespace Order

/-- The result of an operation. -/
abbrev Result := Except RoutingError (Option Bool)

/-- What the instance does. -/
def program (o : Order) : Program Result := (Router.perform o.rollout o.operation).run

/-- Whether the configuration of the rollout, if it is accepted, names the registry document. -/
def WorksOn (o : Order) (key : DocumentKey) : Prop :=
  ∀ s, Settings.ofJson o.rollout.trafficRouting = .ok s →
    s.namespaceOr o.rollout.space = key.space ∧ s.documentName = key.name

end Order

/-- Operations that are all about to begin. -/
def Traffic.start (cluster : Cluster) (orders : List Order) : Traffic Order.Result where
  cluster := cluster
  callers := orders.map fun o => { host := o.host, rest := o.program }

/-- Whether a result reports that what was written could not be undone. -/
def Order.Result.isInconsistent : Order.Result → Bool
  | .error e => e.isInconsistent
  | .ok _ => false

/-- Whether an operation has ended without such a report. -/
def Caller.isSettled (p : Caller Order.Result) : Bool :=
  p.result?.any fun r => !r.isInconsistent

end CanaryRouting
