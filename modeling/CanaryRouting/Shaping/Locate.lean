import CanaryRouting.Error
import CanaryRouting.Gateway.Rule

/-!
# Finding services in rules

Where in a list of rules a service is referenced. Some rules are passed over: those that were
injected for header routes keep their references as they are. The error that a service is not
referenced at all does not pass over any rule, so a service that only injected rules reference
counts as found.
-/

namespace CanaryRouting

/-- The place of a backend reference in a list of rules. -/
structure RefPosition where
  /-- The position of the rule. -/
  rule : Nat
  /-- The position of the reference in the rule. -/
  ref : Nat
  deriving DecidableEq, Repr

/-- The places where the service is referenced, outside the rules to skip. -/
def positionsOf (rules : List Rule) (service : String) (skip : List Nat) : List RefPosition :=
  (indexedRefs rules).filterMap fun (i, j, b) =>
    if b.name = service ∧ i ∉ skip then some ⟨i, j⟩ else none

/-- Whether some rule has a backend reference. -/
def anyRef (rules : List Rule) : Bool := rules.any fun r => !r.refs.isEmpty

/-- Whether some rule references the service. -/
def anyReferences (rules : List Rule) (service : String) : Bool :=
  rules.any fun r => r.references service

/-- The places where the service is referenced, outside the rules to skip; an error if no rule
has references, or none to the service. -/
def findBackendRefs (kind : RouteKind) (rules : List Rule) (service : String) (skip : List Nat) :
    Except RoutingError (List RefPosition) :=
  if anyRef rules then
    if anyReferences rules service then .ok (positionsOf rules service skip)
    else .error (.backendRefNotFound kind service)
  else .error (.noBackendRefs kind)

/-- The first rule that references both services. -/
def findRuleWithServices (kind : RouteKind) (rules : List Rule) (canary stable : String) :
    Except RoutingError Nat :=
  match rules.findIdx? fun r => r.references canary && r.references stable with
  | some i => .ok i
  | none => .error (.ruleNotFound kind canary stable)

/-- The primary rule: the first one outside the rules to skip that references the canary or the
stable service. -/
def findPrimaryRule (kind : RouteKind) (rules : List Rule) (canary stable : String)
    (skip : List Nat) : Except RoutingError Nat :=
  match rules.zipIdx.find? fun (r, i) =>
      !skip.contains i && (r.references canary || r.references stable) with
  | some (_, i) => .ok i
  | none => .error (.backendRefNotFound kind stable)

theorem references_of_findPrimaryRule {kind : RouteKind} {rules : List Rule}
    {canary stable : String} {skip : List Nat} {p : Nat}
    (h : findPrimaryRule kind rules canary stable skip = .ok p) :
    ∃ r, rules[p]? = some r ∧ (r.references canary ∨ r.references stable) := by
  unfold findPrimaryRule at h
  split at h
  · next r i hfind =>
    cases h
    have hrefers := List.find?_some hfind
    simp only [Bool.and_eq_true, Bool.or_eq_true] at hrefers
    exact ⟨r, List.mk_mem_zipIdx_iff_getElem?.1 (List.mem_of_find?_eq_some hfind), hrefers.2⟩
  · cases h

end CanaryRouting
