import CanaryRouting.Proofs.Agreement.Runs
import CanaryRouting.Proofs.Layers.Rules
import CanaryRouting.Proofs.Serial.Alone

/-!
# Header routes leave no trace

Calls for one rollout follow one another, and set weights, add header routes and remove some
(`Course`). If the rollout has one target, its route consists at every point of what the requests for
weights alone make of the rules that it had, and of the rules of the header routes that have not been
removed, in the order in which they were added. Each is the rule that would be added to the first
rules; and the registry has just these header routes, with the positions of their rules
(`layers_of_course`).

The invariant of a course is that the route has these two layers (`Layered`).
-/

namespace CanaryRouting

open Router

/-! ### Courses -/

/-- The request is resolved to one target, and works with this document. -/
def Cluster.HasOnlyTarget (c : Cluster) (rollout : Rollout) (key : DocumentKey) (t : Target) : Prop :=
  ∃ plan, (resolve rollout).runOn c.undisturbed = (.ok plan, c.undisturbed) ∧ plan.key = key ∧
    plan.targets = [t]

/-- Calls for a rollout that all succeed, one after the other, from one cluster to another; with the
requests for weights and with the header routes that have been added and not been removed since. The
rollout declares other managed routes in each call. -/
inductive Course (rollout : Rollout) (key : DocumentKey) (t : Target) (c : Cluster) :
    List (Int × List WeightDestination) → List Injection → Cluster → Prop where
  /-- No call has been made. -/
  | start : Course rollout key t c [] [] c
  /-- Weights are set. -/
  | weigh {requests : List (Int × List WeightDestination)} {live : List Injection}
    {c₁ c₂ : Cluster} {desired : Int} {destinations : List WeightDestination} {x : Option Bool}
    (managedRoutes : List ManagedRoute) :
    Course rollout key t c requests live c₁ → c₁.HasOnlyTarget rollout key t →
    (∀ d ∈ destinations, d.service ≠ rollout.canaryService ∧ d.service ≠ rollout.stableService) →
    (perform { rollout with managedRoutes } (.setWeight desired destinations)).runOn
      c₁.undisturbed = (.ok x, c₂.undisturbed) →
    Course rollout key t c (requests ++ [(desired, destinations)]) live c₂
  /-- A header route is added, of a name that is not recorded at the time. -/
  | set {requests : List (Int × List WeightDestination)} {live : List Injection}
    {c₁ c₂ : Cluster} {operation : Operation} {name : String} {headers : List HeaderPredicate}
    {x : Option Bool} (managedRoutes : List ManagedRoute) :
    Course rollout key t c requests live c₁ → c₁.HasOnlyTarget rollout key t →
    (∀ m, c₁.registry key t.kind = .ok m → m.index? name t.name = none) →
    operation.headerChange? { rollout with managedRoutes } = some (.ok (.set name headers)) →
    (perform { rollout with managedRoutes } operation).runOn c₁.undisturbed =
      (.ok x, c₂.undisturbed) →
    Course rollout key t c requests (live ++ [⟨name, headers⟩]) c₂
  /-- Header routes are removed. -/
  | remove {requests : List (Int × List WeightDestination)} {live : List Injection}
    {c₁ c₂ : Cluster} {operation : Operation} {names : List String} {x : Option Bool}
    (managedRoutes : List ManagedRoute) :
    Course rollout key t c requests live c₁ → c₁.HasOnlyTarget rollout key t →
    operation.headerChange? { rollout with managedRoutes } = some (.ok (.remove names)) →
    (perform { rollout with managedRoutes } operation).runOn c₁.undisturbed =
      (.ok x, c₂.undisturbed) →
    Course rollout key t c requests (live.filter fun l => l.name ∉ names) c₂

/-- What requests for weights alone make of rules. -/
def weighAll (kind : RouteKind) (canary stable : String) (base : List Rule)
    (requests : List (Int × List WeightDestination)) : Except RoutingError (List Rule) :=
  requests.foldlM (fun rules request =>
    distribute kind rules canary stable request.1 request.2 []) base

theorem weighAll_concat {kind : RouteKind} {canary stable : String} {base base' base'' : List Rule}
    {requests : List (Int × List WeightDestination)} {desired : Int}
    {destinations : List WeightDestination}
    (h : weighAll kind canary stable base requests = .ok base')
    (h' : distribute kind base' canary stable desired destinations [] = .ok base'') :
    weighAll kind canary stable base (requests ++ [(desired, destinations)]) = .ok base'' := by
  rw [weighAll] at h ⊢
  rw [List.foldlM_append, h]
  change distribute kind base' canary stable desired destinations [] >>= pure = _
  rw [h']
  rfl

/-! ### Two layers -/

/-- The rules of the route and what the registry has of it: the first rules with the weights of the
requests, and behind them the rules of header routes. -/
structure Layers (rollout : Rollout) (kind : RouteKind) (name : String) (base : List Rule)
    (requests : List (Int × List WeightDestination)) (live : List Injection) (rules : List Rule)
    (m : ManagedRoutes) : Prop where
  /-- The rules are in two layers. -/
  split : ∃ base' : List Rule, ∃ xs : List (Injection × Rule),
    weighAll kind rollout.canaryService rollout.stableService base requests = .ok base' ∧
    base'.map (Rule.blueprint rollout.canaryService rollout.stableService) =
      base.map (Rule.blueprint rollout.canaryService rollout.stableService) ∧
    xs.map Prod.fst = live ∧
    (∀ x ∈ xs, Injection.Makes rollout.canaryService rollout.stableService base x) ∧
    rules = base' ++ xs.map Prod.snd
  /-- The registry has the header routes. -/
  catalogues : m.Catalogues name base.length (live.map Injection.name)

/-- The route of a target is in two layers, and the registry has those header routes. -/
structure Layered (rollout : Rollout) (key : DocumentKey) (t : Target) (base : List Rule)
    (requests : List (Int × List WeightDestination)) (live : List Injection) (c : Cluster) :
    Prop where
  /-- The cluster is well formed. -/
  wellFormed : c.WellFormed
  /-- The route is stored, and the document has the managed routes. -/
  layers : ∃ r m, c.routes.get? (t.keyIn key.space) = some r ∧
    m.KeptIn (c.document key) t.kind.registryKey ∧
    Layers rollout t.kind t.name base requests live r.rules m

namespace Layers

variable {rollout : Rollout} {kind : RouteKind} {name : String} {base rules rules' : List Rule}
  {requests : List (Int × List WeightDestination)} {live : List Injection} {m : ManagedRoutes}

theorem start (rollout : Rollout) (kind : RouteKind) (name : String) (base : List Rule) :
    Layers rollout kind name base [] [] base .empty where
  split := ⟨base, [], rfl, rfl, rfl, fun _ h => (nomatch h), (List.append_nil _).symm⟩
  catalogues := ManagedRoutes.catalogues_empty name base.length

theorem length_base {base' : List Rule}
    (h : base'.map (Rule.blueprint rollout.canaryService rollout.stableService) =
      base.map (Rule.blueprint rollout.canaryService rollout.stableService)) :
    base'.length = base.length := by
  simpa using congrArg List.length h

/-- Header routes are made from the first rules, whatever their weights. -/
theorem makes {base' : List Rule} {xs : List (Injection × Rule)}
    (hbase : base'.map (Rule.blueprint rollout.canaryService rollout.stableService) =
      base.map (Rule.blueprint rollout.canaryService rollout.stableService))
    (hxs : ∀ x ∈ xs, Injection.Makes rollout.canaryService rollout.stableService base x) :
    ∀ x ∈ xs, Injection.Makes rollout.canaryService rollout.stableService base' x := by
  intro x hx
  rw [Injection.Makes, hbase]
  exact hxs x hx

/-- Weights change the first layer only. -/
theorem weigh (h : Layers rollout kind name base requests live rules m)
    (hne : rollout.canaryService ≠ rollout.stableService) {desired : Int}
    {destinations : List WeightDestination}
    (hapart : ∀ d ∈ destinations, d.service ≠ rollout.canaryService ∧
      d.service ≠ rollout.stableService)
    (hweigh : distribute kind rules rollout.canaryService rollout.stableService desired destinations
      (m.indices name) = .ok rules') :
    Layers rollout kind name base (requests ++ [(desired, destinations)]) live rules' m := by
  obtain ⟨base', xs, hall, hbase, rfl, hxs, rfl⟩ := h.split
  have hskip : ∀ i, i ∈ m.indices name ↔ base'.length ≤ i ∧ i < base'.length + xs.length := by
    intro i
    rw [h.catalogues.mem_indices, length_base hbase, List.length_map, List.length_map]
  obtain ⟨base'', hdistribute, rfl⟩ := distribute_append hne (makes hbase hxs) hskip hweigh
  exact ⟨⟨base'', xs, weighAll_concat hall hdistribute,
    (map_blueprint_distribute hapart hdistribute).trans hbase, rfl, hxs, rfl⟩, h.catalogues⟩

/-- A header route that is added comes behind the others. -/
theorem set (h : Layers rollout kind name base requests live rules m)
    (hne : rollout.canaryService ≠ rollout.stableService) {l : Injection} {rule : Rule}
    (hnew : m.index? l.name name = none)
    (hrule : headerRule? l.headers
      (rules.map (Rule.blueprint rollout.canaryService rollout.stableService)) = some rule) :
    Layers rollout kind name base requests (live ++ [l]) (rules ++ [rule])
      (m.record l.name name rules.length) := by
  obtain ⟨base', xs, hall, hbase, rfl, hxs, rfl⟩ := h.split
  rw [headerRule?_append hne (makes hbase hxs), hbase] at hrule
  constructor
  · refine ⟨base', xs ++ [(l, rule)], hall, hbase, by simp, fun x hx => ?_, by simp⟩
    rcases List.mem_append.1 hx with hx | hx
    · exact hxs x hx
    · rw [List.mem_singleton.1 hx]
      exact hrule
  · have hlength : (base' ++ xs.map Prod.snd).length =
        base.length + ((xs.map Prod.fst).map Injection.name).length := by
      simp [length_base hbase]
    rw [hlength, List.map_append]
    refine h.catalogues.record fun hmem => ?_
    obtain ⟨i, hi⟩ := List.getElem?_of_mem hmem
    cases hnew.symm.trans (h.catalogues.index?_eq_some_iff.2 ⟨rfl, i, hi, rfl⟩)

/-- The first layer stays when header routes are removed. -/
theorem remove (h : Layers rollout kind name base requests live rules m) {names : List String}
    {removal : Removal}
    (hfold : names.foldlM (Removal.remove name) { registry := m, rules } = .ok removal) :
    Layers rollout kind name base requests (live.filter fun l => l.name ∉ names) removal.rules
      removal.registry := by
  obtain ⟨base', xs, hall, hbase, rfl, hxs, rfl⟩ := h.split
  have hcatalogues := h.catalogues
  rw [List.map_map, ← length_base hbase] at hcatalogues
  obtain ⟨hrules, hregistry⟩ := removal_append rfl hcatalogues hfold
  have hfilter : (xs.filter fun x => x.1.name ∉ names).map Prod.fst =
      (xs.map Prod.fst).filter fun l => l.name ∉ names := by
    rw [List.filter_map]
    rfl
  constructor
  · exact ⟨base', xs.filter fun x => x.1.name ∉ names, hall, hbase, hfilter,
      fun x hx => hxs x (List.mem_filter.1 hx).1, hrules⟩
  · rw [← hfilter, List.map_map, ← length_base hbase]
    exact hregistry

end Layers

/-! ### Steps -/

namespace Layered

variable {rollout : Rollout} {key : DocumentKey} {t : Target} {base : List Rule}
  {requests : List (Int × List WeightDestination)} {live : List Injection} {c c' : Cluster}
  {managedRoutes : List ManagedRoute}

theorem weigh (h : Layered rollout key t base requests live c)
    (hne : rollout.canaryService ≠ rollout.stableService) {desired : Int}
    {destinations : List WeightDestination}
    (hapart : ∀ d ∈ destinations, d.service ≠ rollout.canaryService ∧
      d.service ≠ rollout.stableService)
    (honly : c.HasOnlyTarget rollout key t) {x : Option Bool}
    (hrun : (perform { rollout with managedRoutes } (.setWeight desired destinations)).runOn
      c.undisturbed = (.ok x, c'.undisturbed)) :
    Layered rollout key t base (requests ++ [(desired, destinations)]) live c' := by
  obtain ⟨r, m, hr, hkept, hlayers⟩ := h.layers
  obtain ⟨plan, hplan, rfl, htargets⟩ := honly
  obtain ⟨c₁, hc₁, hweighed⟩ := weighed_of_setWeight h.wellFormed hplan hrun
  obtain rfl : c' = c₁ := congrArg FaultyCluster.cluster hc₁
  obtain ⟨r₁, z, v, hr₁, hz, hstored⟩ := hweighed.weighed t (by simp [htargets])
  cases hr.symm.trans hr₁
  obtain ⟨m₁, hm₁, hreweigh⟩ := Cluster.weighed_eq_ok_iff.1 hz
  rw [Cluster.registry_eq_load] at hm₁
  obtain rfl := hkept.eq_of_load hm₁
  obtain ⟨hcanary, hstable, rules, hrules, rfl⟩ := reweigh_eq_ok_iff.1 hreweigh
  have hdocument : c'.document plan.key = c.document plan.key := by
    rw [Cluster.document, Cluster.document, hweighed.documents]
  exact ⟨hweighed.wellFormed, _, m₁, hstored, hdocument ▸ hkept,
    hlayers.weigh hne hapart (distribute_eq_ok_iff.2 ⟨hcanary, hstable, hrules⟩)⟩

/-- A change of header routes that succeeds has changed the route and the managed routes. -/
theorem changed (h : Layered rollout key t base requests live c) (ht : t.takesHeaderRoutes)
    (honly : c.HasOnlyTarget rollout key t) {operation : Operation} {change : HeaderChange}
    (hop : operation.headerChange? { rollout with managedRoutes } = some (.ok change))
    {x : Option Bool}
    (hrun : (perform { rollout with managedRoutes } operation).runOn c.undisturbed =
      (.ok x, c'.undisturbed)) :
    ∃ r m y r', c.routes.get? (t.keyIn key.space) = some r ∧ c.registry key t.kind = .ok m ∧
      Layers rollout t.kind t.name base requests live r.rules m ∧
      change.on { rollout with managedRoutes } t m r = .ok y ∧
      c'.WellFormed ∧ c'.routes.get? (t.keyIn key.space) = some r' ∧
      r'.rules = (routeAfter r y).rules ∧
      (registryAfter m y).KeptIn (c'.document key) t.kind.registryKey := by
  obtain ⟨r, m, hr, hkept, hlayers⟩ := h.layers
  obtain ⟨plan, hplan, rfl, htargets⟩ := honly
  obtain ⟨c₁, hc₁, hprogress⟩ := progress_of_perform hop h.wellFormed hplan hrun
  obtain rfl : c' = c₁ := congrArg FaultyCluster.cluster hc₁
  have hheader : plan.headerTargets = [t] := by
    rw [Plan.headerTargets, htargets, List.filter_cons_of_pos ht, List.filter_nil]
  have hcarried := hprogress.carried
  rw [hheader] at hcarried
  generalize c'.document plan.key = d' at hcarried
  cases hcarried with
  | @cons _ _ _ _ r₁ m₁ y hr₁ hload hon hholds hrest =>
    cases hrest
    cases hr.symm.trans hr₁
    obtain rfl := hkept.eq_of_load hload
    obtain ⟨r', hr', hsame⟩ := hholds
    refine ⟨r, m₁, y, r', hr, (Cluster.registry_eq_load ..).trans hload, hlayers, hon,
      hprogress.wellFormed, hr', Route.rules_eq_of_unversioned hsame, ?_⟩
    cases y with
    | none => exact hkept
    | some routeChange => exact ManagedRoutes.keptIn_store _ _ _

theorem set (h : Layered rollout key t base requests live c)
    (hne : rollout.canaryService ≠ rollout.stableService) (ht : t.takesHeaderRoutes)
    (honly : c.HasOnlyTarget rollout key t) {operation : Operation} {name : String}
    {headers : List HeaderPredicate}
    (hnew : ∀ m, c.registry key t.kind = .ok m → m.index? name t.name = none)
    (hop : operation.headerChange? { rollout with managedRoutes } =
      some (.ok (.set name headers))) {x : Option Bool}
    (hrun : (perform { rollout with managedRoutes } operation).runOn c.undisturbed =
      (.ok x, c'.undisturbed)) :
    Layered rollout key t base requests (live ++ [⟨name, headers⟩]) c' := by
  obtain ⟨r, m, y, r', hr, hm, hlayers, hon, hc', hr', hrules, hkept⟩ :=
    h.changed ht honly hop hrun
  obtain ⟨route, i, hinject, rfl⟩ := HeaderChange.on_set_eq_ok.1 hon
  obtain ⟨-, rule, hrule, rfl, rfl⟩ := inject_eq_ok_iff.1 hinject
  refine ⟨hc', r', _, hr', hkept, ?_⟩
  rw [hrules]
  exact hlayers.set (l := ⟨name, headers⟩) hne (hnew m hm) hrule

theorem remove (h : Layered rollout key t base requests live c) (ht : t.takesHeaderRoutes)
    (honly : c.HasOnlyTarget rollout key t) {operation : Operation} {names : List String}
    (hop : operation.headerChange? { rollout with managedRoutes } = some (.ok (.remove names)))
    {x : Option Bool}
    (hrun : (perform { rollout with managedRoutes } operation).runOn c.undisturbed =
      (.ok x, c'.undisturbed)) :
    Layered rollout key t base requests (live.filter fun l => l.name ∉ names) c' := by
  obtain ⟨r, m, y, r', hr, hm, hlayers, hon, hc', hr', hrules, hkept⟩ :=
    h.changed ht honly hop hrun
  obtain ⟨removal, hfold, hregistry, hafter⟩ := removal_of_on hon
  refine ⟨hc', r', _, hr', hkept, ?_⟩
  rw [hrules, hafter, hregistry]
  exact hlayers.remove hfold

end Layered

/-- A course keeps the two layers. -/
theorem layered_of_course {rollout : Rollout} {key : DocumentKey} {t : Target} {c c' : Cluster}
    {r : Route} {requests : List (Int × List WeightDestination)} {live : List Injection}
    (hc : c.WellFormed) (hr : c.routes.get? (t.keyIn key.space) = some r)
    (hempty : c.registry key t.kind = .ok .empty)
    (hne : rollout.canaryService ≠ rollout.stableService) (ht : t.takesHeaderRoutes)
    (h : Course rollout key t c requests live c') :
    Layered rollout key t r.rules requests live c' := by
  induction h with
  | start =>
    exact ⟨hc, r, .empty, hr, .inl ((Cluster.registry_eq_load ..).symm.trans hempty), .start ..⟩
  | weigh _ _ honly hapart hrun ih => exact ih.weigh hne hapart honly hrun
  | set _ _ honly hnew hop hrun ih => exact ih.set hne ht honly hnew hop hrun
  | remove _ _ honly hop hrun ih => exact ih.remove ht honly hop hrun

/-- At every point of a course the route of the target consists of what the requests for weights
alone make of its first rules, and of the rules of the header routes that have been added and not
been removed since, in the order in which they were added. Each of these is the rule that would be
added to the first rules, and has a single reference, to the canary and without a weight. The
registry has exactly these header routes, with the positions of their rules; it can be read as long as
the positions fit into 64 bits. -/
theorem layers_of_course {rollout : Rollout} {key : DocumentKey} {t : Target} {c c' : Cluster}
    {r : Route} {requests : List (Int × List WeightDestination)} {live : List Injection}
    (hc : c.WellFormed) (hr : c.routes.get? (t.keyIn key.space) = some r)
    (hempty : c.registry key t.kind = .ok .empty)
    (hne : rollout.canaryService ≠ rollout.stableService) (ht : t.takesHeaderRoutes)
    (h : Course rollout key t c requests live c') :
    ∃ r' base' injected, c'.routes.get? (t.keyIn key.space) = some r' ∧
      weighAll t.kind rollout.canaryService rollout.stableService r.rules requests = .ok base' ∧
      r'.rules = base' ++ injected ∧
      List.Forall₂ (fun (l : Injection) rule =>
        injectHeaderRule t.kind r.rules rollout.canaryService rollout.stableService l.headers =
            .ok (r.rules ++ [rule], r.rules.length) ∧
          ∃ b, rule.backendRefs = some [b] ∧ b.name = rollout.canaryService ∧ b.weight = none)
        live injected ∧
      (∀ m, c'.registry key t.kind = .ok m →
        m.Catalogues t.name r.rules.length (live.map Injection.name)) ∧
      (r'.rules.length ≤ 2 ^ 64 → ∃ m, c'.registry key t.kind = .ok m) := by
  obtain ⟨r', m, hr', hkept, hlayers⟩ := (layered_of_course hc hr hempty hne ht h).layers
  obtain ⟨base', xs, hall, hbase, rfl, hxs, hrules⟩ := hlayers.split
  refine ⟨r', base', xs.map Prod.snd, hr', hall, hrules, ?_, fun m' hm' => ?_, fun hfits => ?_⟩
  · rw [List.forall₂_map_left_iff, List.forall₂_map_right_iff, List.forall₂_same]
    exact fun x hx => ⟨injectHeaderRule_eq_ok_iff.2 ⟨x.2, hxs x hx, rfl, rfl⟩,
      backendRefs_of_headerRule (hxs x hx)⟩
  · rw [Cluster.registry_eq_load] at hm'
    obtain rfl := hkept.eq_of_load hm'
    exact hlayers.catalogues
  · refine ⟨m, (Cluster.registry_eq_load ..).trans (hkept.load (hlayers.catalogues.fits ?_))⟩
    rw [hrules, List.length_append, Layers.length_base hbase] at hfits
    simpa using hfits

/-! ### A course

Two header routes are added, weights are set in between, and the first one is removed at last.
-/

/-- The target. -/
def shopTarget : Target := ⟨.http, "web", true⟩

/-- A request for a header route. -/
def shopHeader (name : String) : Operation :=
  .setHeaderRoute ⟨name, [⟨"x-user", { exact := some name }⟩]⟩

/-- A further service. -/
def shopDestinations : List WeightDestination := [⟨"preview", 5, none⟩]

/-- The calls, with the managed routes that the rollout declares. -/
def shopCalls : List (List ManagedRoute × Operation) := [
  ([], shopHeader "beta"),
  ([], .setWeight 20 shopDestinations),
  ([], shopHeader "staff"),
  ([⟨"beta"⟩], .removeManagedRoutes)]

/-- The cluster after some of the calls. -/
def shopStage (n : Nat) : Cluster :=
  (shopCalls.take n).foldl (fun c call =>
    ((perform { shopRollout with managedRoutes := call.1 } call.2).runOn c.undisturbed).2.cluster)
    shopCluster

theorem layers_of_course_shop : ∃ r base injected,
    (shopStage 4).routes.get? (shopTarget.keyIn "shop") = some r ∧
      weighAll .http "canary" "stable" webRoute.rules [(20, shopDestinations)] = .ok base ∧
      r.rules = base ++ injected ∧ injected.length = 1 := by
  have honly : ∀ c : Cluster, c.HasOnlyTarget shopRollout shopDocument shopTarget := fun c =>
    ⟨⟨"shop", "argo-gatewayapi-configmap", { http := { single := some "web" } }, [shopTarget]⟩,
      rfl, rfl, rfl⟩
  -- The registry is read from its text, so the results are computed by the kernel.
  have hrun : ∀ {managedRoutes : List ManagedRoute} {operation : Operation} {c c' : Cluster},
      ((perform { shopRollout with managedRoutes } operation).runOn c.undisturbed).1 = .ok none →
      c' = ((perform { shopRollout with managedRoutes } operation).runOn c.undisturbed).2.cluster →
      (perform { shopRollout with managedRoutes } operation).runOn c.undisturbed =
        (.ok none, c'.undisturbed) := by
    rintro managedRoutes operation c _ hok rfl
    exact Prod.ext hok (Call.snd_runOn_undisturbed ..)
  have hbeta : Course shopRollout shopDocument shopTarget shopCluster []
      [⟨"beta", [⟨"x-user", some .exact, "beta"⟩]⟩] (shopStage 1) :=
    @Course.set _ _ _ _ _ _ _ _ (shopHeader "beta") _ _ none [] .start (honly _)
      (fun m hm => by cases hm; rfl) rfl (hrun (by decide +kernel) rfl)
  have hweights : Course shopRollout shopDocument shopTarget shopCluster [(20, shopDestinations)]
      [⟨"beta", [⟨"x-user", some .exact, "beta"⟩]⟩] (shopStage 2) :=
    @Course.weigh _ _ _ _ _ _ _ _ _ _ none [] hbeta (honly _) (by decide)
      (hrun (by decide +kernel) rfl)
  have hnew : ((shopStage 2).registry shopDocument .http).toOption.all
      fun m => (m.index? "staff" "web").isNone := by decide +kernel
  have hstaff : Course shopRollout shopDocument shopTarget shopCluster [(20, shopDestinations)]
      [⟨"beta", [⟨"x-user", some .exact, "beta"⟩]⟩, ⟨"staff", [⟨"x-user", some .exact, "staff"⟩]⟩]
      (shopStage 3) :=
    @Course.set _ _ _ _ _ _ _ _ (shopHeader "staff") _ _ none [] hweights (honly _)
      (fun m hm => by
        rw [show shopTarget.kind = .http from rfl] at hm
        rw [hm] at hnew
        exact Option.isNone_iff_eq_none.1 hnew) rfl (hrun (by decide +kernel) rfl)
  have hcourse : Course shopRollout shopDocument shopTarget shopCluster [(20, shopDestinations)]
      [⟨"staff", [⟨"x-user", some .exact, "staff"⟩]⟩] (shopStage 4) :=
    @Course.remove _ _ _ _ _ _ _ _ .removeManagedRoutes ["beta"] none [⟨"beta"⟩] hstaff (honly _) rfl
      (hrun (by decide +kernel) rfl)
  have hroute : shopCluster.routes.get? (shopTarget.keyIn "shop") =
      some (webRoute.withVersion (some "v1")) := rfl
  obtain ⟨r, base, injected, hr, hbase, hrules, hinjected, -⟩ :=
    layers_of_course wellFormed_shopCluster hroute rfl (by decide) rfl hcourse
  exact ⟨r, base, injected, hr, hbase, hrules, hinjected.length_eq.symm⟩

end CanaryRouting
