import CanaryRouting.Config.Rollout
import CanaryRouting.Shaping.Locate

/-!
# Distributing weight

Weights are percentages. The canary gets the desired weight and the stable service the rest of
the hundred. Further services take their share from the canary, in the primary rule only; once
they are no longer asked for they are dropped from it.
-/

namespace CanaryRouting

/-- The shares of one request. -/
structure WeightSplit where
  /-- The share of the canary. -/
  canary : Int
  /-- The share of the stable service. -/
  stable : Int
  /-- The shares of the further services together, at most a hundred. -/
  extra : Int
  deriving DecidableEq, Repr

/-- Splits the traffic: what the further services get is taken from the canary, which cannot fall
below zero, and never from the stable service. Sums of any size are taken here; where they fit 32
bits the split is the one of `splitWeights32?`. -/
def splitWeights (desired : Int) (destinations : List WeightDestination) : WeightSplit :=
  let extra := min ((destinations.map fun d => max d.weight 0).foldr (· + ·) 0) 100
  { canary := max (desired - extra) 0, stable := 100 - desired, extra }

/-- A sum in 32 bits with a sign; there is none if it does not fit. -/
def add32? (a b : Int) : Option Int :=
  if -2147483648 ≤ a + b ∧ a + b ≤ 2147483647 then some (a + b) else none

/-- Splits the traffic in 32 bits, one sum after the other. A sum that overflows leaves no split:
whether it wraps around or ends the request depends on how the service is built. -/
def splitWeights32? (desired : Int) (destinations : List WeightDestination) :
    Option WeightSplit := do
  let sum ← destinations.foldlM (fun sum d => add32? sum (max d.weight 0)) 0
  let extra := min sum 100
  return { canary := max (← add32? desired (-extra)) 0, stable := ← add32? 100 (-desired), extra }

/-- Whether one of the further services has this name. -/
def isRequested (destinations : List WeightDestination) (service : String) : Bool :=
  destinations.any fun d => d.service = service

/-- Gives every reference to the service outside the rules to skip the weight. -/
def setWeights (rules : List Rule) (service : String) (weight : Int) (skip : List Nat) :
    List Rule :=
  rules.mapIdx fun i r => if i ∈ skip then r else r.weigh service weight

/-- Whether every reference to the service outside the rules to skip has the weight. -/
def haveWeight (rules : List Rule) (service : String) (weight : Int) (skip : List Nat) : Bool :=
  rules.zipIdx.all fun (r, i) =>
    skip.contains i || r.refs.all fun b => b.name ≠ service || b.weight = some weight

/-- Gives every canary reference outside the rules to skip the desired weight, and every stable
reference the rest. -/
def applyWeight (kind : RouteKind) (rules : List Rule) (canary stable : String) (desired : Int)
    (skip : List Nat) : Except RoutingError (List Rule) := do
  let _ ← findBackendRefs kind rules canary skip
  let _ ← findBackendRefs kind rules stable []
  return setWeights (setWeights rules canary desired skip) stable (100 - desired) []

/-! ### Further services -/

/-- Drops the references that name neither the canary nor the stable nor a further service. -/
def dropStale (canary stable : String) (destinations : List WeightDestination)
    (refs : List BackendRef) : List BackendRef :=
  refs.filter fun b => b.name = canary || b.name = stable || isRequested destinations b.name

/-- References to the canary and the stable service are never dropped. -/
theorem mem_dropStale {canary stable : String} {destinations : List WeightDestination}
    {refs : List BackendRef} {b : BackendRef} (hb : b ∈ refs)
    (hname : b.name = canary ∨ b.name = stable) :
    b ∈ dropStale canary stable destinations refs := by
  apply List.mem_filter.2
  rcases hname with hname | hname <;> simp [hb, hname]

/-- Gives the references to a further service its weight. If there is none, a copy of the first
reference is added for it, so that it has the same port, group and kind. A list without any, in
which there is nothing to copy, does not occur (`exists_reference_to_copy`). -/
def placeDestination (refs : List BackendRef) (d : WeightDestination) : List BackendRef :=
  if refs.any fun b => b.name = d.service then
    refs.map fun b => if b.name = d.service then b.withWeight (some d.weight) else b
  else
    match refs.head? with
    | some b => refs ++ [(b.retarget d.service).withWeight (some d.weight)]
    | none => []

theorem placeDestination_ne_nil {refs : List BackendRef} (h : refs ≠ []) (d : WeightDestination) :
    placeDestination refs d ≠ [] := by
  unfold placeDestination
  split
  · simpa using h
  · cases refs with
    | nil => exact absurd rfl h
    | cons b refs => simp

/-- Places the further services one after the other. -/
def placeDestinations (refs : List BackendRef) (destinations : List WeightDestination) :
    List BackendRef :=
  destinations.foldl placeDestination refs

theorem placeDestinations_ne_nil {refs : List BackendRef} (h : refs ≠ [])
    (destinations : List WeightDestination) : placeDestinations refs destinations ≠ [] := by
  unfold placeDestinations
  induction destinations generalizing refs with
  | nil => exact h
  | cons d destinations ih => exact ih (placeDestination_ne_nil h d)

/-- A change of rules that stopped on the way, and the rules as far as they were changed. -/
structure InterruptedChange where
  /-- Why it stopped. -/
  error : RoutingError
  /-- The rules as they are then. -/
  rules : List Rule

/-- Brings the primary rule in line with the further services. The canary references outside the
rules to skip give up what these get. -/
def applyDestinations (kind : RouteKind) (rules : List Rule) (canary stable : String)
    (desired : Int) (destinations : List WeightDestination) (skip : List Nat) :
    Except InterruptedChange (List Rule) := do
  let primary ← (findPrimaryRule kind rules canary stable skip).mapError (⟨·, rules⟩)
  let kept := rules.modify primary fun r => r.modifyRefs (dropStale canary stable destinations)
  if destinations.isEmpty then
    return kept
  let _ ← (findBackendRefs kind kept canary skip).mapError (⟨·, kept⟩)
  let weighed := setWeights kept canary (splitWeights desired destinations).canary skip
  return weighed.modify primary fun r => r.modifyRefs (placeDestinations · destinations)

/-- Whenever a further service is placed, behind those in `placed`, the primary rule has a reference
to copy: it keeps those to the canary and the stable service. -/
theorem exists_reference_to_copy {kind : RouteKind} {rules : List Rule} {canary stable : String}
    {skip : List Nat} {primary : Nat}
    (h : findPrimaryRule kind rules canary stable skip = .ok primary)
    (destinations placed : List WeightDestination) (weight : Int) :
    let kept := rules.modify primary fun r => r.modifyRefs (dropStale canary stable destinations)
    ∃ r b, (setWeights kept canary weight skip)[primary]? = some r ∧
      (placeDestinations r.refs placed).head? = some b := by
  intro kept
  obtain ⟨r, hr, hrefers⟩ := references_of_findPrimaryRule h
  obtain ⟨b, hb, hname⟩ : ∃ b ∈ r.refs, b.name = canary ∨ b.name = stable := by
    simpa [Rule.references, ← exists_or, ← and_or_left] using hrefers
  have hkept : dropStale canary stable destinations r.refs ≠ [] :=
    List.ne_nil_of_mem (mem_dropStale hb hname)
  have hweighed : (setWeights kept canary weight skip)[primary]? = some (
      let r' := r.modifyRefs (dropStale canary stable destinations)
      if primary ∈ skip then r' else r'.weigh canary weight) := by
    simp [setWeights, kept, hr]
  refine ⟨_, _, hweighed, List.head?_eq_some_head (placeDestinations_ne_nil ?_ placed)⟩
  split
  · exact hkept
  · simpa [Rule.refs, Rule.weigh, Rule.modifyRefs] using hkept

/-- Writes all weights of a request: first those of the canary and the stable service, then those
of the further services. -/
def distribute (kind : RouteKind) (rules : List Rule) (canary stable : String) (desired : Int)
    (destinations : List WeightDestination) (skip : List Nat) :
    Except RoutingError (List Rule) := do
  let weighed ← applyWeight kind rules canary stable desired skip
  (applyDestinations kind weighed canary stable desired destinations skip).mapError (·.error)

/-! ### Checking -/

/-- Whether the rules carry the weights that `distribute` would write. -/
def weightsApplied (kind : RouteKind) (rules : List Rule) (canary stable : String) (desired : Int)
    (destinations : List WeightDestination) (skip : List Nat) : Except RoutingError Bool := do
  let split := splitWeights desired destinations
  let _ ← findBackendRefs kind rules canary skip
  let _ ← findBackendRefs kind rules stable []
  if !(haveWeight rules canary split.canary skip && haveWeight rules stable split.stable []) then
    return false
  let primary ← findPrimaryRule kind rules canary stable skip
  let refs := (rules[primary]?.map Rule.refs).getD []
  let placed := destinations.all fun d =>
    refs.any fun b => b.name = d.service && b.weight = some d.weight
  let stale := refs.any fun b =>
    b.name ≠ canary && b.name ≠ stable && !isRequested destinations b.name
  return placed && !stale

end CanaryRouting
