import CanaryRouting.Shaping.HeaderRule
import CanaryRouting.Shaping.Registry

/-!
# Changes made in place

The functions that add and take out rules yield the changed rules and registry, or an error. Where
rules and registry are changed in place, step by step, an error could leave them changed in part.
Here the same changes are spelt out as such steps (`removeInPlace`, `injectInPlace`), and they do not:
either all of a change is made, or everything stays as it was (`InPlace.Realizes`).
-/

namespace CanaryRouting

/-- Steps that change a state in place and may stop with an error. What they have changed until then
stays changed. -/
abbrev InPlace (σ α : Type) := ExceptT RoutingError (StateM σ) α

namespace InPlace

variable {σ α β : Type}

/-- Carries the steps out. -/
def carryOut (steps : InPlace σ α) (s : σ) : Except RoutingError α × σ :=
  StateT.run (ExceptT.run steps) s

/-- The steps make the change, or they stop with its error and leave the state as it was. -/
def Realizes (steps : InPlace σ α) (change : σ → Except RoutingError (α × σ)) : Prop :=
  ∀ s, steps.carryOut s =
    match change s with
    | .ok (a, s') => (.ok a, s')
    | .error e => (.error e, s)

@[simp] theorem carryOut_pure (a : α) (s : σ) :
    carryOut (pure a : InPlace σ α) s = (.ok a, s) := rfl

@[simp] theorem carryOut_throw (e : RoutingError) (s : σ) :
    carryOut (throw e : InPlace σ α) s = (.error e, s) := rfl

@[simp] theorem carryOut_get (s : σ) : carryOut (get : InPlace σ σ) s = (.ok s, s) := rfl

@[simp] theorem carryOut_modify (f : σ → σ) (s : σ) :
    carryOut (modify f : InPlace σ PUnit) s = (.ok ⟨⟩, f s) := rfl

@[simp] theorem carryOut_bind (steps : InPlace σ α) (next : α → InPlace σ β) (s : σ) :
    carryOut (steps >>= next) s =
      match carryOut steps s with
      | (.ok a, s') => carryOut (next a) s'
      | (.error e, s') => (.error e, s') := by
  show StateT.run (ExceptT.run (steps >>= next)) s = _
  rw [ExceptT.run_bind, StateT.run_bind]
  unfold carryOut
  cases StateT.run (ExceptT.run steps) s with
  | mk result s' => cases result <;> rfl

@[simp] theorem carryOut_map (f : α → β) (steps : InPlace σ α) (s : σ) :
    carryOut (f <$> steps) s = ((carryOut steps s).1.map f, (carryOut steps s).2) := by
  rw [map_eq_pure_bind, carryOut_bind]
  cases carryOut steps s with
  | mk result s' => cases result <;> rfl

end InPlace

/-! ### Taking a rule out -/

/-- Takes an entry out of the registry, and with its last entry the managed route. -/
def takeEntry (managed route : String) : InPlace (ManagedRoutes × List Rule) Nat := do
  let (m, _) ← get
  match m.entries.get? managed with
  | none => throw (ManagedRoutes.missing managed route)
  | some routes =>
    match routes.get? route with
    | none => throw (ManagedRoutes.missing managed route)
    | some index =>
      modify fun (m, rules) => (⟨m.entries.insert managed (routes.erase route)⟩, rules)
      if (routes.erase route).isEmpty then
        modify fun (m, rules) => (⟨m.entries.erase managed⟩, rules)
      return index

/-- Takes the rule of a managed route out of a route: first its entry goes, then the others are
renumbered, and then the rule goes. -/
def removeInPlace (managed route : String) : InPlace (ManagedRoutes × List Rule) Unit := do
  let (m, rules) ← get
  match m.index? managed route with
  | none => throw (ManagedRoutes.missing managed route)
  | some index =>
    if rules.length ≤ index then
      throw (.managedRuleOutOfRange managed route index rules.length)
    let removed ← takeEntry managed route
    modify fun (m, rules) => (m.renumber route removed, rules)
    modify fun (m, rules) => (m, rules.eraseIdx index)

theorem carryOut_takeEntry {m : ManagedRoutes} {managed route : String} {index : Nat}
    (h : m.index? managed route = some index) (rules : List Rule) :
    (takeEntry managed route).carryOut (m, rules) = (.ok index, (m.drop managed route, rules)) := by
  obtain ⟨routes, hroutes, hindex⟩ := Option.bind_eq_some_iff.1 h
  have herase : (m.entries.insert managed (routes.erase route)).erase managed =
      m.entries.erase managed := by
    ext1 key
    grind
  unfold takeEntry ManagedRoutes.drop
  by_cases hempty : (routes.erase route).isEmpty
  · simp [hroutes, hindex, hempty, herase, Except.map]
  · simp [hroutes, hindex, hempty, Except.map]

theorem realizes_removeInPlace (managed route : String) :
    (removeInPlace managed route).Realizes fun s =>
      (removeManagedRule s.1 s.2 managed route).map fun s' => ((), s') := by
  rintro ⟨m, rules⟩
  unfold removeInPlace removeManagedRule ManagedRoutes.removeEntry
  cases hindex : m.index? managed route with
  | none => simp [hindex, Except.map]
  | some index =>
    by_cases hlen : rules.length ≤ index
    · simp [hindex, hlen, Except.map]
    · simp [hindex, hlen, Except.map, carryOut_takeEntry hindex]

/-! ### Adding a rule -/

/-- Adds the rule of a header route behind the others, and yields its position. -/
def injectInPlace (kind : RouteKind) (canary stable : String) (headers : List HeaderPredicate) :
    InPlace (List Rule) Nat := do
  let rules ← get
  match findRuleWithServices kind rules canary stable with
  | .error e => throw e
  | .ok base =>
    let template := rules.getD base {}
    match template.refs.find? fun b => b.name = canary with
    | none => throw (.backendRefNotFound kind canary)
    | some backend =>
      modify fun rules => rules ++ [template.forHeaders headers backend]
      return (← get).length - 1

theorem realizes_injectInPlace (kind : RouteKind) (canary stable : String)
    (headers : List HeaderPredicate) :
    (injectInPlace kind canary stable headers).Realizes fun rules =>
      (injectHeaderRule kind rules canary stable headers).map fun (rules', i) => (i, rules') := by
  intro rules
  cases hbase : findRuleWithServices kind rules canary stable with
  | error e =>
    have hchange : injectHeaderRule kind rules canary stable headers = .error e := by
      simp [injectHeaderRule, hbase, bind, Except.bind]
    simp [injectInPlace, hbase, hchange, Except.map]
  | ok base =>
    cases hbackend : (rules.getD base {}).refs.find? fun b => b.name = canary with
    | none =>
      have hchange : injectHeaderRule kind rules canary stable headers =
          .error (.backendRefNotFound kind canary) := by
        simp only [injectHeaderRule, hbase, bind, Except.bind, hbackend]
        rfl
      simp [injectInPlace, hbase, hbackend, hchange, Except.map, -List.getD_eq_getElem?_getD]
    | some backend =>
      have hchange : injectHeaderRule kind rules canary stable headers =
          .ok (rules ++ [(rules.getD base {}).forHeaders headers backend], rules.length) := by
        simp only [injectHeaderRule, hbase, bind, Except.bind, hbackend]
        rfl
      simp [injectInPlace, hbase, hbackend, hchange, Except.map, -List.getD_eq_getElem?_getD]

end CanaryRouting
