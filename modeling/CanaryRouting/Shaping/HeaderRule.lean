import CanaryRouting.Config.Rollout
import CanaryRouting.Shaping.Locate

/-!
# Rules for header routes

A header route sends requests with certain headers to the canary only. Its rule is a copy of the
first rule that references both services, with the header predicates of every condition replaced
and the canary as the only backend. It is added behind the other rules, which keep their
positions.
-/

namespace CanaryRouting

/-- A text, unless it is empty. -/
def nonEmpty (s : Option String) : Option String := s.filter fun v => v ≠ ""

/-- The predicate that a requested condition asks for: of the exact text, the beginning and the
regular expression the first one that is not empty counts. -/
def HeaderCondition.predicate? (c : HeaderCondition) : Option HeaderPredicate :=
  match nonEmpty c.value.exact, nonEmpty c.value.start, nonEmpty c.value.regex with
  | some v, _, _ => some ⟨c.header, some .exact, v⟩
  | none, some v, _ => some ⟨c.header, some .regularExpression, v ++ ".*"⟩
  | none, none, some v => some ⟨c.header, some .regularExpression, v⟩
  | none, none, none => none

/-- The predicates that requested conditions ask for; an error names the first header whose
condition says nothing. -/
def headerPredicates : List HeaderCondition → Except RoutingError (List HeaderPredicate)
  | [] => .ok []
  | c :: cs =>
    match c.predicate? with
    | some p => (headerPredicates cs).map (p :: ·)
    | none => .error (.invalidHeaderMatch c.header)

/-- The conditions with their header predicates replaced; without conditions, one that has
nothing but the predicates. -/
def replaceHeaders (headers : List HeaderPredicate) : Option (List Condition) → List Condition
  | none | some [] => [⟨some headers, []⟩]
  | some cs => cs.map fun c => { c with headers := some headers }

/-- The rule that a header route adds: a copy of `base`, without its name, that takes requests
with the headers to the backend alone. -/
def Rule.forHeaders (base : Rule) (headers : List HeaderPredicate) (backend : BackendRef) : Rule :=
  { base with
    name := none
    conditions := some (replaceHeaders headers base.conditions)
    backendRefs := some [(backend.withWeight none).asPlainService] }

/-- Adds the rule of a header route behind the others; with the rules comes its position. -/
def injectHeaderRule (kind : RouteKind) (rules : List Rule) (canary stable : String)
    (headers : List HeaderPredicate) : Except RoutingError (List Rule × Nat) := do
  let base ← findRuleWithServices kind rules canary stable
  let template := rules.getD base {}
  match template.refs.find? fun b => b.name = canary with
  | some backend => return (rules ++ [template.forHeaders headers backend], rules.length)
  | none => throw (.backendRefNotFound kind canary)

end CanaryRouting
