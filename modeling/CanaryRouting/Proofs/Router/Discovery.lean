import CanaryRouting.Proofs.Router.Undisturbed

/-!
# Which routes are discovered

The targets of a request are the configured routes and those that a configured selector picks
(`resolve_undisturbed`). Whether a request can be resolved depends on the configuration alone. So when
some targets have been changed, labels included, the request is resolved again, and to no other
routes: a route that a selector picks now is a target, or it is as it was and so was picked before
(`resolve_of_untouched`).
-/

namespace CanaryRouting

open Program Router

/-! ### Targets -/

namespace Target

theorem mem_identity_add {targets : List Target} {kind : RouteKind} {name : String}
    {useHeaderRoutes : Bool} {i : RouteKind × String} :
    i ∈ (add targets kind name useHeaderRoutes).map identity ↔
      i ∈ targets.map identity ∨ i = (kind, name) := by
  unfold add
  split
  · next hany =>
    obtain ⟨t, ht, hfor⟩ := List.any_eq_true.1 hany
    rw [map_identity_mark]
    exact ⟨.inl, fun h => h.elim id fun e => e ▸ List.mem_map.2 ⟨t, ht, isFor_iff.1 hfor⟩⟩
  · have hparts : targets.map identity =
        (targets.takeWhile fun t => t.kind.rank ≤ kind.rank).map identity ++
          (targets.dropWhile fun t => t.kind.rank ≤ kind.rank).map identity := by
      rw [← List.map_append, List.takeWhile_append_dropWhile]
    rw [hparts, List.map_append, List.map_cons, List.mem_append, List.mem_append, List.mem_cons]
    exact ⟨fun h => h.elim (.inl ∘ .inl) fun h => h.elim .inr (.inl ∘ .inr),
      fun h => h.elim (fun h => h.elim .inl (.inr ∘ .inr)) (.inr ∘ .inl)⟩

theorem mem_identity_addDiscovered {targets : List Target} {kind : RouteKind} {names : List String}
    {i : RouteKind × String} :
    i ∈ (addDiscovered targets kind names).map identity ↔
      i ∈ targets.map identity ∨ i.1 = kind ∧ i.2 ∈ names := by
  unfold addDiscovered
  induction names generalizing targets with
  | nil => simp
  | cons name names ih =>
    rw [List.foldl_cons, ih, mem_identity_add, List.mem_cons, Prod.ext_iff]
    exact ⟨fun h => h.elim (fun h => h.elim .inl fun h => .inr ⟨h.1, .inl h.2⟩)
        fun h => .inr ⟨h.1, .inr h.2⟩,
      fun h => h.elim (.inl ∘ .inl) fun h => h.2.elim (fun hi => .inl (.inr ⟨h.1, hi⟩))
        fun hi => .inr ⟨h.1, hi⟩⟩

end Target

/-! ### Selectors -/

/-- Every selector of the configuration can be read as a query. -/
def Settings.Selects (s : Settings) : Prop :=
  ∀ kind selector, (s.choice kind).selector = some selector →
    (Query.ofText? selector.expression).isSome

namespace Cluster

variable {c c' : Cluster}

/-- The selector for the kind picks the route. -/
def Picks (c : Cluster) (settings : Settings) (space : String) (i : RouteKind × String) : Prop :=
  ∃ selector query r, (settings.choice i.1).selector = some selector ∧
    Query.ofText? selector.expression = some query ∧ c.routes.get? ⟨i.1, space, i.2⟩ = some r ∧
      query.selects (Form.plain.routes.label? r)

/-- The routes that a query lists. -/
theorem listRoutes_plain (hc : c.WellFormed) (space : String) (kind : RouteKind) (query : Query) :
    ∃ names, c.listRoutes .plain space kind query = .ok names ∧ ∀ name, name ∈ names ↔
      ∃ r, c.routes.get? ⟨kind, space, name⟩ = some r ∧ query.selects (Form.plain.routes.label? r) := by
  simp only [listRoutes_eq, Except.ok.injEq, exists_eq_left', List.mem_map, List.mem_filter,
    Bool.and_eq_true, decide_eq_true_eq, Prod.exists]
  refine fun name => ⟨?_, fun ⟨r, hr, hselects⟩ => ?_⟩
  · rintro ⟨⟨kind', space', name'⟩, r', ⟨hmem, ⟨hkind, hspace⟩, hselects⟩, hname⟩
    have hr := KeyMap.mem_entries.1 hmem
    simp only at hkind hspace
    subst hkind hspace
    obtain rfl : name' = name := (hc.route_isAt hr).name.symm.trans hname
    exact ⟨r', hr, hselects⟩
  · exact ⟨⟨kind, space, name⟩, r, ⟨KeyMap.mem_entries.2 hr, ⟨rfl, rfl⟩, hselects⟩,
      (hc.route_isAt hr).name⟩

/-- What a selector picks that was not picked before has been changed. -/
theorem Picks.of_eq {settings : Settings} {space : String} {i : RouteKind × String}
    (h : c'.Picks settings space i)
    (hsame : c'.routes.get? ⟨i.1, space, i.2⟩ = c.routes.get? ⟨i.1, space, i.2⟩) :
    c.Picks settings space i := by
  obtain ⟨selector, query, r, hselector, hquery, hr, hselects⟩ := h
  exact ⟨selector, query, r, hselector, hquery, hsame ▸ hr, hselects⟩

end Cluster

namespace Router

variable {c c' : Cluster} {settings : Settings} {space : String}

/-! ### Discovering -/

variable (settings space) in
/-- Discovering the routes of one kind. -/
theorem discover_undisturbed (hc : c.WellFormed) (targets : List Target) (kind : RouteKind) :
    (∃ ts, (discover settings space targets kind).runOn c.undisturbed = (.ok ts, c.undisturbed) ∧
      (∀ selector, (settings.choice kind).selector = some selector →
        (Query.ofText? selector.expression).isSome) ∧
      ∀ i, i ∈ ts.map Target.identity ↔
        i ∈ targets.map Target.identity ∨ i.1 = kind ∧ c.Picks settings space i) ∨
    (∃ e, (discover settings space targets kind).runOn c.undisturbed = (.error e, c.undisturbed)) ∧
      ∃ selector, (settings.choice kind).selector = some selector ∧
        Query.ofText? selector.expression = none := by
  unfold discover
  cases hselector : (settings.choice kind).selector with
  | none =>
    refine .inl ⟨targets, rfl, by simp, fun i => ⟨.inl, fun h => h.elim id ?_⟩⟩
    rintro ⟨rfl, selector, _, _, hsome, -⟩
    cases hselector.symm.trans hsome
  | some selector =>
    have hrun : (Call.ofStore (Store.listRoutes space kind selector)).runOn c.undisturbed = _ :=
      Call.runOn_request (.listRoutes space kind selector) _
    rw [respond_undisturbed, Cluster.respond_listRoutes, Cluster.respond_eq_answer
      (by simp [Request.isNamed, Request.hasNameInPath])] at hrun
    simp only [Holdings.answer] at hrun
    cases hquery : Query.ofText? selector.expression with
    | none =>
      rw [hquery] at hrun
      exact .inr ⟨⟨_, Call.runOn_bind_error hrun _⟩, selector, rfl, hquery⟩
    | some query =>
      obtain ⟨names, hnames, hmem⟩ := Cluster.listRoutes_plain hc space kind query
      rw [hquery] at hrun
      simp only [hnames] at hrun
      refine .inl ⟨_, Call.runOn_bind_ok hrun _, fun selector' h => ?_, fun i => ?_⟩
      · cases h
        rw [hquery]
        rfl
      · rw [Target.mem_identity_addDiscovered]
        refine or_congr_right (and_congr_right ?_)
        rintro rfl
        rw [hmem]
        constructor
        · rintro ⟨r, hr, hselects⟩
          exact ⟨selector, query, r, hselector, hquery, hr, hselects⟩
        · rintro ⟨selector', query', r, hselector', hquery', hr, hselects⟩
          cases hselector.symm.trans hselector'
          cases hquery.symm.trans hquery'
          exact ⟨r, hr, hselects⟩

variable (settings space) in
/-- Discovering the routes of several kinds. -/
theorem foldlM_discover_undisturbed (hc : c.WellFormed) (kinds : List RouteKind)
    (targets : List Target) :
    (∃ ts, (kinds.foldlM (discover settings space) targets).runOn c.undisturbed =
        (.ok ts, c.undisturbed) ∧
      (∀ kind ∈ kinds, ∀ selector, (settings.choice kind).selector = some selector →
        (Query.ofText? selector.expression).isSome) ∧
      ∀ i, i ∈ ts.map Target.identity ↔
        i ∈ targets.map Target.identity ∨ i.1 ∈ kinds ∧ c.Picks settings space i) ∨
    (∃ e, (kinds.foldlM (discover settings space) targets).runOn c.undisturbed =
        (.error e, c.undisturbed)) ∧ ¬ settings.Selects := by
  induction kinds generalizing targets with
  | nil => exact .inl ⟨targets, rfl, fun _ h => (nomatch h), fun i => by simp⟩
  | cons kind kinds ih =>
    rw [List.foldlM_cons]
    rcases discover_undisturbed settings space hc targets kind with
      ⟨ts₁, hrun, hread, hmem⟩ | ⟨⟨e, he⟩, selector, hselector, hquery⟩
    · rw [Call.runOn_bind_ok hrun]
      rcases ih ts₁ with ⟨ts, hruns, hreads, hmems⟩ | herror
      · refine .inl ⟨ts, hruns, fun kind' hkind' => ?_, fun i => ?_⟩
        · rcases List.mem_cons.1 hkind' with rfl | h
          · exact hread
          · exact hreads kind' h
        · rw [hmems, hmem, List.mem_cons, or_assoc, or_and_right]
      · exact .inr herror
    · refine .inr ⟨⟨e, Call.runOn_bind_error he _⟩, fun hselects => ?_⟩
      have := hselects kind selector hselector
      rw [hquery] at this
      cases this

/-- A request whose configuration is accepted is resolved if every selector can be read, to the
routes that are configured or picked. -/
theorem resolve_undisturbed (hc : c.WellFormed) {rollout : Rollout}
    (hsettings : Settings.ofJson rollout.trafficRouting = .ok settings) :
    (∃ plan, (resolve rollout).runOn c.undisturbed = (.ok plan, c.undisturbed) ∧ settings.Selects ∧
      ∀ i, i ∈ plan.targets.map Target.identity ↔
        i ∈ settings.targets.map Target.identity ∨ c.Picks settings plan.space i) ∨
    (∃ e, (resolve rollout).runOn c.undisturbed = (.error e, c.undisturbed)) ∧
      ¬ settings.Selects := by
  unfold resolve
  rw [hsettings, Except.mapError, Call.runOn_bind_ok (Call.runOn_ofExcept _ _)]
  rcases foldlM_discover_undisturbed settings (settings.namespaceOr rollout.space) hc
      RouteKind.all settings.targets with
    ⟨ts, hrun, hread, hmem⟩ | ⟨⟨e, he⟩, hnot⟩
  · exact .inl ⟨_, Call.runOn_bind_ok hrun _, fun kind => hread kind kind.mem_all, fun i => by
      rw [hmem, and_iff_right i.1.mem_all]⟩
  · exact .inr ⟨⟨e, Call.runOn_bind_error he _⟩, hnot⟩

/-- When nothing but targets has been changed, the request is resolved again, and has no new
targets. -/
theorem resolve_of_untouched (hc : c.WellFormed) (hc' : c'.WellFormed) {rollout : Rollout}
    {plan : Plan} (hplan : (resolve rollout).runOn c.undisturbed = (.ok plan, c.undisturbed))
    (huntouched : ∀ k, (∀ t ∈ plan.targets, t.keyIn plan.space ≠ k) →
      c'.routes.get? k = c.routes.get? k) :
    ∃ plan', (resolve rollout).runOn c'.undisturbed = (.ok plan', c'.undisturbed) ∧
      plan'.key = plan.key ∧ ∀ t' ∈ plan'.targets, ∃ t ∈ plan.targets, t.identity = t'.identity := by
  have hresolved := resolved_of_runOn hplan
  rcases resolve_undisturbed hc hresolved.settings with ⟨plan₁, hplan₁, hselects, hmem⟩ | ⟨⟨e, he⟩, -⟩
  · cases hplan.symm.trans hplan₁
    rcases resolve_undisturbed hc' hresolved.settings with ⟨plan', hplan', -, hmem'⟩ | ⟨-, hnot⟩
    · obtain ⟨-, hkey⟩ := hresolved.unique (resolved_of_runOn hplan')
      refine ⟨plan', hplan', hkey, fun t' ht' => ?_⟩
      by_contra hnone
      have hnot : t'.identity ∉ plan.targets.map Target.identity := fun hmem => by
        obtain ⟨t, ht, he⟩ := List.mem_map.1 hmem
        exact hnone ⟨t, ht, he⟩
      refine hnot ((hmem _).2 (((hmem' _).1 (List.mem_map_of_mem ht')).imp_right fun hpicks => ?_))
      -- The route is no target, so it is as it was.
      rw [show plan'.space = plan.space from congrArg DocumentKey.space hkey] at hpicks
      exact hpicks.of_eq (huntouched _ fun t ht hkey => hnone ⟨t, ht, Target.keyIn_injective hkey⟩)
    · exact absurd hselects hnot
  · cases hplan.symm.trans he

end Router

end CanaryRouting
