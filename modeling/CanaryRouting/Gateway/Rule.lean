import CanaryRouting.Json.Basic

/-!
# Route rules

A route is a list of rules, and a rule sends the traffic that meets one of its conditions to its
backend references, in proportion to their weights. Shaping reads and writes names, weights and
header predicates; everything else of a rule is copied. The rules of all kinds of route have one
shape here: a kind without conditions and filters leaves those fields absent.
-/

namespace CanaryRouting

/-- How a header predicate compares values. -/
inductive MatchKind where
  /-- The value is the one given. -/
  | exact
  /-- The value matches the regular expression given. -/
  | regularExpression
  deriving DecidableEq, Repr

/-- The word for a way to compare values. -/
def MatchKind.word : MatchKind → String
  | .exact => "Exact"
  | .regularExpression => "RegularExpression"

/-- A condition on one header of a request. -/
structure HeaderPredicate where
  /-- The header. -/
  name : String
  /-- How its value is compared. -/
  kind : Option MatchKind
  /-- What its value is compared with. -/
  value : String
  deriving DecidableEq, Repr

/-- A condition of a rule: predicates on headers, and whatever else it asks for. -/
structure Condition where
  /-- The predicates on headers, all of which must hold. -/
  headers : Option (List HeaderPredicate)
  /-- The other parts of the condition. -/
  others : List (String × Json)
  deriving DecidableEq, Repr

/-- A reference of a rule to a backend service. -/
structure BackendRef where
  /-- The service. -/
  name : String
  /-- The share of the rule's traffic it gets. -/
  weight : Option Int := none
  /-- The port of the service. -/
  port : Option Int := none
  /-- The API group of the backend. -/
  group : Option String := none
  /-- The kind of the backend. -/
  kind : Option String := none
  /-- The namespace of the backend. -/
  space : Option String := none
  /-- What is done to requests that go to this backend. -/
  filters : Option (List Json) := none
  deriving DecidableEq, Repr

/-- A rule of a route. -/
structure Rule where
  /-- The name of the rule. -/
  name : Option String := none
  /-- The conditions, one of which must hold. -/
  conditions : Option (List Condition) := none
  /-- What is done to requests that meet a condition. -/
  filters : Option (List Json) := none
  /-- The time limits of such requests. -/
  timeouts : Option Json := none
  /-- Where such requests go. -/
  backendRefs : Option (List BackendRef) := none
  deriving DecidableEq, Repr

namespace BackendRef

/-- The same reference with another weight. -/
def withWeight (r : BackendRef) (weight : Option Int) : BackendRef := { r with weight }

/-- The same reference to another service; port, group and kind are kept. -/
def retarget (r : BackendRef) (name : String) : BackendRef := { r with name }

/-- The reference to the service as such: a service of the core group, without filters. -/
def asPlainService (r : BackendRef) : BackendRef :=
  { r with group := some "", kind := some "Service", filters := none }

end BackendRef

namespace Rule

/-- The backend references; a rule without a list has none. -/
def refs (r : Rule) : List BackendRef := r.backendRefs.getD []

/-- The rule with an empty list of backend references in place of a missing one. -/
def withRefList (r : Rule) : Rule := { r with backendRefs := some r.refs }

/-- Changes the list of backend references; a missing list becomes the changed empty one. -/
def modifyRefs (r : Rule) (f : List BackendRef → List BackendRef) : Rule :=
  { r with backendRefs := some (f r.refs) }

/-- Whether the rule sends traffic to the service. -/
def references (r : Rule) (service : String) : Bool := r.refs.any fun b => b.name = service

/-- Gives every reference to the service the weight. -/
def weigh (r : Rule) (service : String) (weight : Int) : Rule :=
  { r with
    backendRefs := r.backendRefs.map fun refs =>
      refs.map fun b => if b.name = service then b.withWeight (some weight) else b }

end Rule

/-- The references of a list of rules, each with the position of its rule in the list and its own
position in the rule. -/
def indexedRefs (rules : List Rule) : List (Nat × Nat × BackendRef) :=
  rules.zipIdx.flatMap fun (rule, i) => rule.refs.zipIdx.map fun (ref, j) => (i, j, ref)

end CanaryRouting
