import CanaryRouting.Data.Except
import CanaryRouting.Proofs.Cluster.Versions
import CanaryRouting.Proofs.Registry.Positions
import CanaryRouting.Router.HeaderRoutes
import CanaryRouting.Router.Weights

/-!
# What operations do to one route

Setting weights changes backend references and the label, and leaves the rest of a route's rules
as it is (`bare_of_reweigh`). Setting and removing header routes changes the rules of a route and
its recorded positions together, by the edits of a `Layout`, and nothing else: such a change is
`RouteChange.Proper` (`proper_of_inject`, `proper_of_remove`).
-/

namespace CanaryRouting

/-! ### Weights -/

theorem map_bare_modify (rules : List Rule) (i : Nat) (f : List BackendRef → List BackendRef) :
    (rules.modify i fun r => r.modifyRefs f).map Rule.bare = rules.map Rule.bare := by
  ext1 j
  rw [List.getElem?_map, List.getElem?_map, List.getElem?_modify]
  cases rules[j]? with
  | none => rfl
  | some r =>
    simp only [Option.map_eq_map, Option.map_some, Option.some.injEq]
    split <;> rfl

theorem map_bare_setWeights (rules : List Rule) (service : String) (weight : Int)
    (skip : List Nat) : (setWeights rules service weight skip).map Rule.bare = rules.map Rule.bare := by
  ext1 j
  rw [setWeights, List.getElem?_map, List.getElem?_map, List.getElem?_mapIdx]
  cases rules[j]? with
  | none => rfl
  | some r =>
    simp only [Option.map_some, Option.some.injEq]
    split <;> rfl

theorem applyWeight_ok {kind : RouteKind} {rules rules' : List Rule} {canary stable : String}
    {desired : Int} {skip : List Nat} (h : applyWeight kind rules canary stable desired skip = .ok rules') :
    rules' = setWeights (setWeights rules canary desired skip) stable (100 - desired) [] := by
  unfold applyWeight at h
  obtain ⟨_, -, h⟩ := Except.bind_eq_ok.1 h
  obtain ⟨_, -, h⟩ := Except.bind_eq_ok.1 h
  exact (Except.ok.inj h).symm

theorem bare_of_applyDestinations {kind : RouteKind} {rules rules' : List Rule}
    {canary stable : String} {desired : Int} {destinations : List WeightDestination}
    {skip : List Nat}
    (h : applyDestinations kind rules canary stable desired destinations skip = .ok rules') :
    rules'.map Rule.bare = rules.map Rule.bare := by
  unfold applyDestinations at h
  obtain ⟨primary, -, h⟩ := Except.bind_eq_ok.1 h
  split at h
  · cases h
    exact map_bare_modify _ _ _
  · obtain ⟨_, -, h⟩ := Except.bind_eq_ok.1 h
    cases h
    rw [map_bare_modify, map_bare_setWeights, map_bare_modify]

/-- Distributing weight changes backend references only. -/
theorem bare_of_distribute {kind : RouteKind} {rules rules' : List Rule} {canary stable : String}
    {desired : Int} {destinations : List WeightDestination} {skip : List Nat}
    (h : distribute kind rules canary stable desired destinations skip = .ok rules') :
    rules'.map Rule.bare = rules.map Rule.bare := by
  unfold distribute at h
  obtain ⟨weighed, hw, happly⟩ := Except.bind_eq_ok.1 h
  rw [bare_of_applyDestinations (Except.mapError_eq_ok.1 happly), applyWeight_ok hw,
    map_bare_setWeights, map_bare_setWeights]

/-- The same route for all that the registry says about it: the kind, the name, the namespace and
the version are the same, and so are the rules apart from the backend references. -/
structure Route.SameShape (r r' : Route) : Prop where
  /-- The kind. -/
  kind : r'.kind = r.kind
  /-- The name. -/
  name : r'.name = r.name
  /-- The namespace. -/
  space : r'.metadata.space = r.metadata.space
  /-- The version. -/
  version : r'.version = r.version
  /-- The rules apart from their backend references. -/
  bare : r'.rules.map Rule.bare = r.rules.map Rule.bare

theorem Route.IsAt.of_sameShape {r r' : Route} {key : RouteKey} (h : r.IsAt key)
    (hs : r.SameShape r') : r'.IsAt key :=
  ⟨hs.kind.trans h.kind, hs.space.trans h.space, hs.name.trans h.name⟩

theorem Metadata.ensureLabel_eq (m : Metadata) (weight : Int) (s : Settings) :
    ∃ labels, (m.ensureLabel weight s).1 = { m with labels } := by
  unfold ensureLabel
  split
  · exact ⟨m.labels, rfl⟩
  · split
    · exact ⟨_, rfl⟩
    · simp only
      split <;> exact ⟨_, rfl⟩

/-- Setting the weights of a route distributes them over its rules, and sees to the label. -/
theorem Router.reweigh_eq_ok {rollout : Rollout} {settings : Settings} {desired : Int}
    {destinations : List WeightDestination} {skip : List Nat} {route route' : Route} :
    reweigh rollout settings desired destinations skip route = .ok route' ↔
      ∃ rules, distribute route.kind route.rules rollout.canaryService rollout.stableService desired
          destinations skip = .ok rules ∧
        { route.withRules rules with
          metadata := (route.metadata.ensureLabel desired settings).1 } = route' := by
  unfold reweigh
  rw [Except.bind_eq_ok]
  exact exists_congr fun rules => and_congr_right fun _ => iff_of_eq (Except.ok.injEq ..)

/-- Setting the weights of a route keeps its shape. -/
theorem Router.sameShape_of_reweigh {rollout : Rollout} {settings : Settings} {desired : Int}
    {destinations : List WeightDestination} {skip : List Nat} {route route' : Route}
    (h : Router.reweigh rollout settings desired destinations skip route = .ok route') :
    route.SameShape route' := by
  obtain ⟨rules, hd, rfl⟩ := Router.reweigh_eq_ok.1 h
  obtain ⟨labels, hl⟩ := route.metadata.ensureLabel_eq desired settings
  refine ⟨rfl, ?_, ?_, ?_, bare_of_distribute hd⟩
  · simp only [Route.name, hl]; rfl
  · simp only [hl]
  · simp only [Route.version, hl]

/-! ### Header routes -/

namespace Router

/-- A change of one route and its recorded positions, and of nothing else. -/
structure RouteChange.Proper (change : RouteChange) (key : RouteKey)
    (mayAdd : String → Rule → Prop) : Prop where
  /-- Only the rules of the route change. -/
  after_eq : ∃ rules, change.after = change.before.withRules rules
  /-- The rules change together with the positions recorded for them. -/
  edits : Layout.Edits mayAdd ⟨change.registryBefore.positions key.name, change.before.rules⟩
    ⟨change.registryAfter.positions key.name, change.after.rules⟩
  /-- The positions in other routes stay as they are. -/
  others : ∀ route, route ≠ key.name →
    change.registryAfter.positions route = change.registryBefore.positions route

theorem RouteChange.Proper.mono {change : RouteChange} {key : RouteKey}
    {mayAdd mayAdd' : String → Rule → Prop} (h : change.Proper key mayAdd)
    (hsub : ∀ name rule, mayAdd name rule → mayAdd' name rule) : change.Proper key mayAdd' where
  after_eq := h.after_eq
  edits := Layout.Edits.mono h.edits hsub
  others := h.others

theorem RouteChange.Proper.after_isAt {change : RouteChange} {key : RouteKey}
    {mayAdd : String → Rule → Prop} (h : change.Proper key mayAdd) (hb : change.before.IsAt key) :
    change.after.IsAt key := by
  obtain ⟨rules, hr⟩ := h.after_eq
  rw [hr]
  exact ⟨hb.kind, hb.space, hb.name⟩

theorem RouteChange.Proper.version_after {change : RouteChange} {key : RouteKey}
    {mayAdd : String → Rule → Prop} (h : change.Proper key mayAdd) :
    change.after.version = change.before.version := by
  obtain ⟨rules, hr⟩ := h.after_eq
  rw [hr]
  rfl

end Router

/-- The rule that is added is made of one of the rules, and of a reference in it. -/
theorem injectHeaderRule_ok {kind : RouteKind} {rules rules' : List Rule} {canary stable : String}
    {headers : List HeaderPredicate} {i : Nat}
    (h : injectHeaderRule kind rules canary stable headers = .ok (rules', i)) :
    i = rules.length ∧ ∃ template ∈ rules, ∃ backend ∈ template.refs,
      rules' = rules ++ [template.forHeaders headers backend] := by
  unfold injectHeaderRule at h
  obtain ⟨base, -, h⟩ := Except.bind_eq_ok.1 h
  dsimp only at h
  split at h
  · next backend hfind =>
    cases h
    have hbackend := List.mem_of_find?_eq_some hfind
    refine ⟨rfl, rules.getD base {}, ?_, backend, hbackend, rfl⟩
    rw [List.getD_eq_getElem?_getD] at hbackend ⊢
    cases hbase : rules[base]? with
    | none =>
      rw [hbase] at hbackend
      cases hbackend
    | some template => exact List.mem_of_getElem? hbase
  · cases h

namespace Router

/-- A header route is set by adding a rule, if the kind of route can carry one. -/
theorem inject_eq_ok {rollout : Rollout} {headers : List HeaderPredicate} {route route' : Route}
    {i : Nat} : inject rollout headers route = .ok (route', i) ↔
      route.kind.supportsHeaderRoutes ∧ ∃ rules,
        injectHeaderRule route.kind route.rules rollout.canaryService rollout.stableService
          headers = .ok (rules, i) ∧ route.withRules rules = route' := by
  unfold inject
  by_cases hkind : route.kind.supportsHeaderRoutes
  · rw [if_pos hkind, Except.map_eq_ok]
    simp only [hkind, true_and, Prod.exists, Prod.mk.injEq]
    constructor
    · rintro ⟨rules, _, hrules, hroute, rfl⟩
      exact ⟨rules, hrules, hroute⟩
    · rintro ⟨rules, hrules, hroute⟩
      exact ⟨rules, i, hrules, hroute, rfl⟩
  · simp [hkind]

theorem inject_ok {rollout : Rollout} {headers : List HeaderPredicate} {route route' : Route}
    {i : Nat} (h : inject rollout headers route = .ok (route', i)) :
    i = route.rules.length ∧ ∃ rule, route' = route.withRules (route.rules ++ [rule]) := by
  obtain ⟨-, rules, hrules, rfl⟩ := inject_eq_ok.1 h
  obtain ⟨hi, _, -, _, -, rfl⟩ := injectHeaderRule_ok hrules
  exact ⟨hi, _, rfl⟩

/-- Setting the header route changes the route in this way, and the rule that it adds under the
name is this one. -/
def Injects (rollout : Rollout) (header : HeaderRoute) (before after : Route) (name : String)
    (rule : Rule) : Prop :=
  name = header.name ∧ ∃ headers i, headerPredicates header.conditions = .ok headers ∧
    inject rollout headers before = .ok (after, i) ∧ after.rules[i]? = some rule

/-- Adding the rule of a header route and recording its position is a proper change. -/
theorem proper_of_inject {rollout : Rollout} {headers : List HeaderPredicate}
    {route route' : Route} {i : Nat} (h : inject rollout headers route = .ok (route', i))
    (k : RouteKey) (registry : ManagedRoutes) (name : String) :
    RouteChange.Proper ⟨route, route', registry, registry.record name k.name i⟩ k
      (fun n rule => n = name ∧ route'.rules[i]? = some rule) := by
  obtain ⟨hi, rule, hr⟩ := inject_ok h
  refine ⟨⟨_, hr⟩, ?_, fun r hne => ManagedRoutes.positions_record_of_ne _ _ _ hne⟩
  have hrules : route'.rules = route.rules ++ [rule] := by rw [hr]; rfl
  simp only [hrules, ManagedRoutes.positions_record_self, hi]
  exact .single (.add ⟨rfl, by simp⟩)

/-- A name is passed over, or its rule and its entry are taken out. -/
theorem Removal.remove_cases {route name : String} {r r' : Removal}
    (h : Removal.remove route r name = .ok r') :
    ¬ r.registry.contains name ∧ r' = r ∨
      ∃ i m, r.registry.index? name route = some i ∧ i < r.rules.length ∧
        r.registry.removeEntry name route = .ok (m, i) ∧ r' = ⟨m, r.rules.eraseIdx i, true⟩ := by
  unfold Removal.remove at h
  split at h
  · obtain ⟨⟨m, rules⟩, hm, rfl⟩ := Except.map_eq_ok.1 h
    obtain ⟨i, hpos, hi, rfl, he⟩ := removeManagedRule_ok_iff.1 hm
    exact .inr ⟨i, m, hpos, hi, he, rfl⟩
  · next hnot =>
    cases h
    exact .inl ⟨hnot, rfl⟩

/-- Removing the rule of a managed route is an edit, or changes nothing. -/
theorem Removal.remove_ok (mayAdd : String → Rule → Prop) {route name : String} {r r' : Removal}
    (h : Removal.remove route r name = .ok r') :
    Layout.Edits mayAdd ⟨r.registry.positions route, r.rules⟩
        ⟨r'.registry.positions route, r'.rules⟩ ∧
      ∀ route', route' ≠ route → r'.registry.positions route' = r.registry.positions route' := by
  rcases Removal.remove_cases h with ⟨-, rfl⟩ | ⟨i, m, hpos, hi, he, rfl⟩
  · exact ⟨.refl, fun _ _ => rfl⟩
  · refine ⟨?_, fun route' hne => ManagedRoutes.positions_removeEntry_of_ne he hne⟩
    rw [ManagedRoutes.positions_removeEntry_self he]
    exact .single (.remove hpos hi)

theorem Removal.foldlM_ok (mayAdd : String → Rule → Prop) {route : String}
    {names : List String} {r r' : Removal}
    (h : names.foldlM (Removal.remove route) r = .ok r') :
    Layout.Edits mayAdd ⟨r.registry.positions route, r.rules⟩
        ⟨r'.registry.positions route, r'.rules⟩ ∧
      ∀ route', route' ≠ route → r'.registry.positions route' = r.registry.positions route' := by
  induction names generalizing r with
  | nil => cases h; exact ⟨.refl, fun _ _ => rfl⟩
  | cons name names ih =>
    obtain ⟨r₁, hr, hrest⟩ := Except.foldlM_cons_eq_ok.1 h
    obtain ⟨hedits, hothers⟩ := Removal.remove_ok mayAdd hr
    obtain ⟨hedits', hothers'⟩ := ih hrest
    exact ⟨hedits.trans hedits', fun route' hne => (hothers' route' hne).trans (hothers route' hne)⟩

/-- Removing the rules of managed routes and their positions is a proper change. -/
theorem proper_of_remove {route : Route} {k : RouteKey} {registry : ManagedRoutes}
    {names : List String} {removal : Removal}
    (h : names.foldlM (Removal.remove k.name) { registry, rules := route.rules } = .ok removal) :
    RouteChange.Proper ⟨route, route.withRules removal.rules, registry, removal.registry⟩ k
      (fun _ _ => False) := by
  obtain ⟨hedits, hothers⟩ := Removal.foldlM_ok (fun _ _ => False) h
  exact ⟨⟨_, rfl⟩, hedits, hothers⟩

end Router

end CanaryRouting
