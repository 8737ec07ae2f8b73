import CanaryRouting.Proofs.Atomicity.Carried
import CanaryRouting.Proofs.Removal.Names
import CanaryRouting.Proofs.Shaping.Commuting

/-!
# Weights and changes of header routes commute

A route whose header routes are changed, and that is weighed then with the positions that are recorded
then, could as well have been weighed before, and its header routes changed then
(`weigh_of_change`).
-/

namespace CanaryRouting

open Router

section

variable (canary stable : String) (desired : Int) (destinations : List WeightDestination)

/-- The rules are weighed before they are edited, with some positions to skip, or after that, with
others. An edit adds no reference to the services. -/
structure Commutes (skip skip' : List Nat) (rules : List Rule) (edit : List Rule → List Rule) :
    Prop where
  /-- The rules can be weighed before or after the edit. -/
  weigh : weighRules canary stable desired destinations (marked skip' (edit rules)) =
    (weighRules canary stable desired destinations (marked skip rules)).map edit
  /-- The canary was referenced before. -/
  canary : anyReferences (edit rules) canary → anyReferences rules canary
  /-- The stable service was referenced before. -/
  stable : anyReferences (edit rules) stable → anyReferences rules stable

end

section

variable {canary stable : String} {desired : Int} {destinations : List WeightDestination}
  {skip skip₁ skip' : List Nat} {rules : List Rule} {edit edit' : List Rule → List Rule}

namespace Commutes

theorem refl : Commutes canary stable desired destinations skip skip rules id :=
  ⟨(Option.map_id' ..).symm, id, id⟩

theorem trans (h : Commutes canary stable desired destinations skip skip₁ rules edit)
    (h' : Commutes canary stable desired destinations skip₁ skip' (edit rules) edit') :
    Commutes canary stable desired destinations skip skip' rules (edit' ∘ edit) where
  weigh := by
    rw [Function.comp, h'.weigh, h.weigh, Option.map_map]
  canary := h.canary ∘ h'.canary
  stable := h.stable ∘ h'.stable

/-- Adding the rule of a header route. -/
theorem append {headers : List HeaderPredicate} {rule : Rule} (hne : canary ≠ stable)
    (hrule : headerRule? headers (rules.map (Rule.blueprint canary stable)) = some rule)
    (hskip : ∀ i < rules.length, i ∈ skip' ↔ i ∈ skip) (hlast : rules.length ∈ skip') :
    Commutes canary stable desired destinations skip skip' rules (· ++ [rule]) where
  weigh := by
    rw [marked_append hskip hlast, weighRules_append, weighRule_headerRule hne hrule]
  canary _ := (references_of_headerRule hrule).1
  stable _ := (references_of_headerRule hrule).2

/-- Taking out a rule that is passed over. -/
theorem eraseIdx {i : Nat} (hi : i < rules.length) (hmem : i ∈ skip)
    (hbelow : ∀ j < i, j ∈ skip' ↔ j ∈ skip) (habove : ∀ j, i ≤ j → (j ∈ skip' ↔ j + 1 ∈ skip)) :
    Commutes canary stable desired destinations skip skip' rules (·.eraseIdx i) where
  weigh := by
    rw [marked_eraseIdx rules hbelow habove]
    refine weighRules_eraseIdx (r := rules[i]) ?_
    rw [getElem?_marked, List.getElem?_eq_getElem hi, Option.map_some, decide_eq_true hmem]
  canary h :=
    let ⟨r, hr, href⟩ := List.any_eq_true.1 h
    List.any_eq_true.2 ⟨r, List.mem_of_mem_eraseIdx hr, href⟩
  stable h :=
    let ⟨r, hr, href⟩ := List.any_eq_true.1 h
    List.any_eq_true.2 ⟨r, List.mem_of_mem_eraseIdx hr, href⟩

end Commutes

/-! ### Removals -/

/-- The positions after an entry was deleted: the others, renumbered. -/
theorem mem_indices_removeEntry {m m' : ManagedRoutes} {name route : String} {i : Nat}
    (h : m.removeEntry name route = .ok (m', i)) (hi : m.index? name route = some i)
    (hapart : ∀ n, m.index? n route = some i → n = name) (j : Nat) :
    j ∈ m'.indices route ↔
      ∃ k ∈ m.indices route, k ≠ i ∧ (if i < k then k - 1 else k) = j := by
  simp only [ManagedRoutes.mem_indices, ManagedRoutes.positions_apply]
  constructor
  · rintro ⟨n, hn⟩
    by_cases hname : n = name
    · subst hname
      have hrecords : m'.Records n route := ⟨j, hn⟩
      exact (((ManagedRoutes.records_removeEntry h).1 hrecords).2 ⟨rfl, rfl⟩).elim
    · rw [index?_removeEntry h hi hname, Option.map_eq_some_iff] at hn
      obtain ⟨k, hk, e⟩ := hn
      exact ⟨k, ⟨n, hk⟩, fun eki => hname (hapart n (eki ▸ hk)), e⟩
  · rintro ⟨k, ⟨n, hk⟩, hne, e⟩
    have hname : n ≠ name := fun en => hne (Option.some.inj ((en ▸ hk).symm.trans hi))
    exact ⟨n, by rw [index?_removeEntry h hi hname, hk, Option.map_some, e]⟩

/-- Deleting an entry, and its rule with it, commutes with weights. -/
theorem commutes_of_removeEntry {m m' : ManagedRoutes} {name route : String} {i : Nat}
    (hsound : Layout.Sound ⟨m.positions route, rules⟩ fun _ _ => True)
    (h : m.removeEntry name route = .ok (m', i)) (hi : m.index? name route = some i)
    (hlen : i < rules.length) :
    Commutes canary stable desired destinations (m.indices route) (m'.indices route) rules
      (·.eraseIdx i) := by
  have hmem := mem_indices_removeEntry h hi fun n hn => hsound.apart hn hi
  refine .eraseIdx hlen (ManagedRoutes.mem_indices.2 ⟨name, hi⟩) (fun j hj => ?_) fun j hj => ?_
  · rw [hmem]
    constructor
    · rintro ⟨k, hk, hne, e⟩
      split at e
      · omega
      · exact e ▸ hk
    · exact fun hj' => ⟨j, hj', by omega, if_neg (by omega)⟩
  · rw [hmem]
    constructor
    · rintro ⟨k, hk, hne, e⟩
      split at e
      · rwa [show j + 1 = k by omega]
      · omega
    · exact fun hj' => ⟨j + 1, hj', by omega, by rw [if_pos (by omega)]; omega⟩

/-- Removing header routes does to other rules what it does to these, and commutes with weights. -/
theorem commutes_of_removal {route : String} {names : List String} {r r' : Removal}
    (hsound : Layout.Sound ⟨r.registry.positions route, r.rules⟩ fun _ _ => True)
    (h : names.foldlM (Removal.remove route) r = .ok r') :
    ∃ edit : List Rule → List Rule, r'.rules = edit r.rules ∧
      (∀ rules, rules.length = r.rules.length →
        names.foldlM (Removal.remove route) ⟨r.registry, rules, r.changed⟩ =
          .ok ⟨r'.registry, edit rules, r'.changed⟩) ∧
      Commutes canary stable desired destinations (r.registry.indices route)
        (r'.registry.indices route) r.rules edit := by
  induction names generalizing r with
  | nil =>
    cases h
    exact ⟨id, rfl, fun _ _ => rfl, .refl⟩
  | cons name names ih =>
    obtain ⟨r₁, hr, hrest⟩ := Except.foldlM_cons_eq_ok.1 h
    obtain ⟨edit, hrules, hsame, hcommutes⟩ := ih (Removal.sound_remove hsound hr) hrest
    rcases Removal.remove_cases hr with ⟨hnot, rfl⟩ | ⟨i, m, hi, hlen, he, rfl⟩
    · refine ⟨edit, hrules, fun rules hlength => ?_, hcommutes⟩
      rw [List.foldlM_cons, Removal.remove, if_neg hnot]
      exact hsame rules hlength
    · refine ⟨edit ∘ (·.eraseIdx i), hrules, fun rules hlength => ?_,
        (commutes_of_removeEntry hsound he hi hlen).trans hcommutes⟩
      have hfirst : Removal.remove route ⟨r.registry, rules, r.changed⟩ name =
          .ok ⟨m, rules.eraseIdx i, true⟩ := by
        have hrecords : r.registry.Records name route := ⟨i, hi⟩
        rw [Removal.remove, if_pos hrecords.contains,
          removeManagedRule_ok_iff.2 ⟨i, hi, hlength ▸ hlen, rfl, he⟩]
        rfl
      rw [List.foldlM_cons, hfirst]
      refine hsame (rules.eraseIdx i) ?_
      rw [List.length_eraseIdx_of_lt hlen, List.length_eraseIdx_of_lt (hlength ▸ hlen), hlength]

end

/-! ### Routes -/

/-- The route with the label of a request. -/
def Route.relabel (desired : Int) (settings : Settings) (r : Route) : Route :=
  { r with metadata := (r.metadata.ensureLabel desired settings).1 }

theorem Route.relabel_withVersion (desired : Int) (settings : Settings) (r : Route)
    (v : Option String) :
    (r.withVersion v).relabel desired settings = (r.relabel desired settings).withVersion v := by
  have hlabel : (r.metadata.withVersion v).ensureLabel desired settings =
      ((r.metadata.ensureLabel desired settings).1.withVersion v,
        (r.metadata.ensureLabel desired settings).2) := by
    simp only [Metadata.ensureLabel, Metadata.withVersion]
    by_cases hdisabled : settings.disableLabel
    · simp [hdisabled]
    · by_cases hzero : desired = 0
      · simp [hdisabled, hzero]
      · by_cases hlabelled : (r.metadata.labels.getD KeyMap.empty).get? settings.inProgressKey =
            some settings.inProgressValue <;> simp [hdisabled, hzero, hlabelled]
  simp only [relabel, withVersion, hlabel]

@[simp] theorem Route.rules_relabel (desired : Int) (settings : Settings) (r : Route) :
    (r.relabel desired settings).rules = r.rules := rfl

section

variable {rollout : Rollout} {settings : Settings} {desired : Int}
  {destinations : List WeightDestination}

theorem Router.reweigh_eq_ok_iff {skip : List Nat} {r z : Route} :
    reweigh rollout settings desired destinations skip r = .ok z ↔
      anyReferences r.rules rollout.canaryService ∧ anyReferences r.rules rollout.stableService ∧
        ∃ rules, weighRules rollout.canaryService rollout.stableService desired destinations
          (marked skip r.rules) = some rules ∧ z = (r.withRules rules).relabel desired settings := by
  simp only [reweigh_eq_ok, distribute_eq_ok_iff]
  constructor
  · rintro ⟨rules, ⟨hc, hs, hw⟩, hz⟩
    exact ⟨hc, hs, rules, hw, hz.symm⟩
  · rintro ⟨hc, hs, rules, hw, hz⟩
    exact ⟨rules, ⟨hc, hs, hw⟩, hz.symm⟩

/-- The routes are the same for all that header routes are made from. -/
structure Route.Matches (rollout : Rollout) (r z : Route) : Prop where
  /-- The kind. -/
  kind : z.kind = r.kind
  /-- What the rules of header routes are made from. -/
  blueprint : z.rules.map (Rule.blueprint rollout.canaryService rollout.stableService) =
    r.rules.map (Rule.blueprint rollout.canaryService rollout.stableService)

theorem Route.Matches.refl (rollout : Rollout) (r : Route) : r.Matches rollout r := ⟨rfl, rfl⟩

theorem Route.Matches.symm {r z : Route} (h : r.Matches rollout z) : z.Matches rollout r :=
  ⟨h.kind.symm, h.blueprint.symm⟩

theorem Route.Matches.withVersion {r z : Route} (h : r.Matches rollout z) (v : Option String) :
    r.Matches rollout (z.withVersion v) := ⟨h.kind, h.blueprint⟩

theorem Route.Matches.length_eq {r z : Route} (h : r.Matches rollout z) :
    z.rules.length = r.rules.length := by
  have := congrArg List.length h.blueprint
  rwa [List.length_map, List.length_map] at this

/-- The further services are neither the canary nor the stable service. -/
def Rollout.KeepsApart (rollout : Rollout) (destinations : List WeightDestination) : Prop :=
  rollout.canaryService ≠ rollout.stableService ∧
    ∀ d ∈ destinations, d.service ≠ rollout.canaryService ∧ d.service ≠ rollout.stableService

theorem Router.matches_of_reweigh (hapart : rollout.KeepsApart destinations) {skip : List Nat}
    {r z : Route} (h : reweigh rollout settings desired destinations skip r = .ok z) :
    r.Matches rollout z := by
  obtain ⟨-, -, rules, hrules, rfl⟩ := reweigh_eq_ok_iff.1 h
  refine ⟨rfl, ?_⟩
  change rules.map _ = _
  rw [map_of_weighRules (blueprint_weighRule hapart.2) hrules, map_marked]

theorem Router.inject_eq_ok_iff {headers : List HeaderPredicate} {route route' : Route} {i : Nat} :
    inject rollout headers route = .ok (route', i) ↔ route.kind.supportsHeaderRoutes ∧
      ∃ rule, headerRule? headers (route.rules.map
          (Rule.blueprint rollout.canaryService rollout.stableService)) = some rule ∧
        route' = route.withRules (route.rules ++ [rule]) ∧ i = route.rules.length := by
  rw [inject_eq_ok]
  refine and_congr_right fun _ => ?_
  constructor
  · rintro ⟨rules, hinject, rfl⟩
    obtain ⟨rule, hrule, rfl, hindex⟩ := injectHeaderRule_eq_ok_iff.1 hinject
    exact ⟨rule, hrule, rfl, hindex⟩
  · rintro ⟨rule, hrule, rfl, rfl⟩
    exact ⟨_, injectHeaderRule_eq_ok_iff.2 ⟨rule, hrule, rfl, rfl⟩, rfl⟩

/-- A header route that is to be added is not recorded for the route yet. -/
def HeaderChange.IsNew (change : HeaderChange) (registry : ManagedRoutes) (route : String) : Prop :=
  match change with
  | .set name _ => registry.index? name route = none
  | .remove _ => True

/-- What the change does to a route is an edit of the rules, and it is the same edit for every route
from which header routes are made in the same way. -/
def HeaderChange.Edits (change : HeaderChange) (rollout : Rollout) (t : Target)
    (registry : ManagedRoutes) (route : Route) (x : Option RouteChange)
    (edit : List Rule → List Rule) : Prop :=
  ∀ z, route.Matches rollout z → ∃ x', change.on rollout t registry z = .ok x' ∧
    x'.map RouteChange.registryAfter = x.map RouteChange.registryAfter ∧
    (routeAfter z x').rules = edit z.rules ∧
    routeAfter z x' = if x.isSome then z.withRules (edit z.rules) else z

/-- The positions that are recorded for a route when another one is recorded for a new name. -/
theorem mem_indices_record {registry : ManagedRoutes} {name route : String} {i j : Nat}
    (hnew : registry.index? name route = none) (hne : i ≠ j) :
    i ∈ (registry.record name route j).indices route ↔ i ∈ registry.indices route := by
  simp only [ManagedRoutes.mem_indices, ManagedRoutes.positions_record_self]
  refine exists_congr fun n => ?_
  by_cases hn : n = name
  · subst hn
    rw [Positions.put_self, ManagedRoutes.positions_apply, hnew]
    simp only [Option.some.injEq, reduceCtorEq, iff_false]
    omega
  · rw [Positions.put_of_ne _ _ hn]

/-- Setting a header route adds its rule. -/
theorem commutes_of_set {name : String} {headers : List HeaderPredicate} {t : Target}
    {registry : ManagedRoutes} {route : Route} {x : Option RouteChange}
    (hon : (HeaderChange.set name headers).on rollout t registry route = .ok x)
    (hnew : registry.index? name t.name = none) (hne : rollout.canaryService ≠ rollout.stableService) :
    ∃ edit : List Rule → List Rule,
      Commutes rollout.canaryService rollout.stableService desired destinations
        (registry.indices t.name) ((registryAfter registry x).indices t.name) route.rules edit ∧
      (HeaderChange.set name headers).Edits rollout t registry route x edit := by
  obtain ⟨route', i, hinject, rfl⟩ := HeaderChange.on_set_eq_ok.1 hon
  obtain ⟨hkind, rule, hrule, rfl, rfl⟩ := inject_eq_ok_iff.1 hinject
  refine ⟨(· ++ [rule]), .append hne hrule
    (fun i hi => mem_indices_record hnew (Nat.ne_of_lt hi)) ?_, fun z hz => ?_⟩
  · rw [registryAfter, Option.map_some, Option.getD_some, ManagedRoutes.mem_indices]
    exact ⟨name, by rw [ManagedRoutes.positions_record_self, Positions.put_self]⟩
  · refine ⟨_, HeaderChange.on_set_eq_ok.2 ⟨_, _, inject_eq_ok_iff.2
      ⟨hz.kind ▸ hkind, rule, hz.blueprint ▸ hrule, rfl, rfl⟩, rfl⟩, ?_, rfl, rfl⟩
    simp only [Option.map_some, hz.length_eq]

/-- Removing header routes takes out their rules. -/
theorem commutes_of_remove {names : List String} {t : Target} {registry : ManagedRoutes}
    {route : Route} {x : Option RouteChange}
    (hon : (HeaderChange.remove names).on rollout t registry route = .ok x)
    (hsound : Layout.Sound ⟨registry.positions t.name, route.rules⟩ fun _ _ => True) :
    ∃ edit : List Rule → List Rule,
      Commutes rollout.canaryService rollout.stableService desired destinations
        (registry.indices t.name) ((registryAfter registry x).indices t.name) route.rules edit ∧
      (HeaderChange.remove names).Edits rollout t registry route x edit := by
  have hchange : ∀ {z : Route} {removal : Removal},
      names.foldlM (Removal.remove t.name) { registry, rules := z.rules } = .ok removal →
      (HeaderChange.remove names).on rollout t registry z = .ok (if removal.changed then
        some ⟨z, z.withRules removal.rules, registry, removal.registry⟩ else none) := by
    intro z removal h
    rw [HeaderChange.on_remove, h]
    rfl
  obtain ⟨⟨registry', rules', changed⟩, hfold, hregistry, -⟩ := removal_of_on hon
  obtain ⟨edit, -, hsame, hcommutes⟩ := commutes_of_removal hsound hfold
  refine ⟨edit, hregistry ▸ hcommutes, fun z hz => ?_⟩
  have hz' := hsame z.rules hz.length_eq
  cases (hchange hfold).symm.trans hon
  refine ⟨_, hchange hz', ?_⟩
  cases changed with
  | true => exact ⟨rfl, rfl, rfl⟩
  | false =>
    have hkept := (changed_of_removal hz').resolve_left Bool.false_ne_true
    exact ⟨rfl, (congrArg Removal.rules hkept).symm, rfl⟩

/-- A change of header routes is an edit of the rules, and commutes with weights. -/
theorem commutes_of_on {change : HeaderChange} {t : Target} {registry : ManagedRoutes}
    {route : Route} {x : Option RouteChange}
    (hon : change.on rollout t registry route = .ok x)
    (hsound : Layout.Sound ⟨registry.positions t.name, route.rules⟩ fun _ _ => True)
    (hnew : change.IsNew registry t.name) (hne : rollout.canaryService ≠ rollout.stableService) :
    ∃ edit : List Rule → List Rule,
      Commutes rollout.canaryService rollout.stableService desired destinations
        (registry.indices t.name) ((registryAfter registry x).indices t.name) route.rules edit ∧
      change.Edits rollout t registry route x edit := by
  cases change with
  | set name headers => exact commutes_of_set hon hnew hne
  | remove names => exact commutes_of_remove hon hsound

/-- Whether the rules of a route are edited before or after it gets its weights and its label. -/
theorem routeAfter_relabel {route : Route} {rules : List Rule} {edit : List Rule → List Rule}
    {x x' : Option RouteChange}
    (hafter : routeAfter route x = if x.isSome then route.withRules (edit route.rules) else route)
    (hrules' : (routeAfter ((route.withRules rules).relabel desired settings) x').rules = edit rules)
    (hafter' : routeAfter ((route.withRules rules).relabel desired settings) x' =
      if x.isSome then ((route.withRules rules).relabel desired settings).withRules (edit rules)
      else (route.withRules rules).relabel desired settings) :
    routeAfter ((route.withRules rules).relabel desired settings) x' =
      ((routeAfter route x).withRules (edit rules)).relabel desired settings := by
  cases x with
  | some routeChange =>
    rw [hafter', hafter]
    rfl
  | none =>
    rw [hafter'] at hrules' ⊢
    change rules = edit rules at hrules'
    rw [← hrules']
    rfl

/-- A route with another version, before and after a change. -/
def Router.RouteChange.withVersion (change : RouteChange) (v : Option String) : RouteChange :=
  { change with before := change.before.withVersion v, after := change.after.withVersion v }

/-- Versions do not matter. -/
theorem HeaderChange.on_withVersion (change : HeaderChange) (t : Target) (registry : ManagedRoutes)
    (route : Route) (v : Option String) : change.on rollout t registry (route.withVersion v) =
      (change.on rollout t registry route).map (Option.map fun x => x.withVersion v) := by
  cases change with
  | set name headers =>
    rw [HeaderChange.on_set, HeaderChange.on_set]
    by_cases hkind : route.kind.supportsHeaderRoutes
    · rw [inject, inject, if_pos hkind, if_pos (show (route.withVersion v).kind.supportsHeaderRoutes from hkind)]
      change (Except.map _ (injectHeaderRule route.kind route.rules _ _ headers)).map _ = _
      cases injectHeaderRule route.kind route.rules rollout.canaryService rollout.stableService
        headers <;> rfl
    · rw [inject, inject, if_neg hkind, if_neg (show ¬ (route.withVersion v).kind.supportsHeaderRoutes from hkind)]
      rfl
  | remove names =>
    rw [HeaderChange.on_remove, HeaderChange.on_remove, Route.rules_withVersion]
    cases names.foldlM (Removal.remove t.name) { registry, rules := route.rules } with
    | error e => rfl
    | ok removal =>
      obtain ⟨registry', rules', changed⟩ := removal
      cases changed <;> rfl

theorem Router.reweigh_congr {skip skip' : List Nat} (h : ∀ i, i ∈ skip' ↔ i ∈ skip) {r z : Route} :
    reweigh rollout settings desired destinations skip' r = .ok z ↔
      reweigh rollout settings desired destinations skip r = .ok z := by
  rw [reweigh_eq_ok_iff, reweigh_eq_ok_iff, marked_congr fun i _ => h i]

/-- Versions do not matter. -/
theorem Router.reweigh_withVersion {skip : List Nat} {r z : Route} (v : Option String)
    (h : reweigh rollout settings desired destinations skip r = .ok z) :
    reweigh rollout settings desired destinations skip (r.withVersion v) = .ok (z.withVersion v) := by
  obtain ⟨hc, hs, rules, hrules, rfl⟩ := reweigh_eq_ok_iff.1 h
  exact reweigh_eq_ok_iff.2 ⟨hc, hs, rules, hrules, (Route.relabel_withVersion ..).symm⟩

/-- A route that is weighed after its header routes were changed could have been weighed before. -/
theorem weigh_of_change {change : HeaderChange} {t : Target} {registry : ManagedRoutes}
    {route y : Route} {x : Option RouteChange}
    (hon : change.on rollout t registry route = .ok x)
    (hsound : Layout.Sound ⟨registry.positions t.name, route.rules⟩ fun _ _ => True)
    (hnew : change.IsNew registry t.name) (hapart : rollout.KeepsApart destinations)
    (h : reweigh rollout settings desired destinations ((registryAfter registry x).indices t.name)
      (routeAfter route x) = .ok y) :
    ∃ z x', reweigh rollout settings desired destinations (registry.indices t.name) route = .ok z ∧
      change.on rollout t registry z = .ok x' ∧
      x'.map RouteChange.registryAfter = x.map RouteChange.registryAfter ∧ routeAfter z x' = y := by
  obtain ⟨edit, hcommutes, hmatches⟩ := commutes_of_on hon hsound hnew hapart.1
  obtain ⟨x₀, hx₀, -, hrules, hafter⟩ := hmatches route (.refl rollout route)
  cases hon.symm.trans hx₀
  obtain ⟨hc, hs, rules', hweigh, rfl⟩ := reweigh_eq_ok_iff.1 h
  rw [hrules] at hc hs hweigh
  rw [hcommutes.weigh, Option.map_eq_some_iff] at hweigh
  obtain ⟨rules, hweigh, rfl⟩ := hweigh
  have hz : reweigh rollout settings desired destinations (registry.indices t.name) route =
      .ok ((route.withRules rules).relabel desired settings) :=
    reweigh_eq_ok_iff.2 ⟨hcommutes.canary hc, hcommutes.stable hs, rules, hweigh, rfl⟩
  obtain ⟨x', hx', hregistry, hrules', hafter'⟩ := hmatches _ (matches_of_reweigh hapart hz)
  exact ⟨_, x', hz, hx', hregistry, routeAfter_relabel hafter hrules' hafter'⟩

end

end CanaryRouting
