import CanaryRouting.Proofs.Exclusion.Turns
import CanaryRouting.Proofs.Serial.Joint
import CanaryRouting.Proofs.Updates.Replacing

/-!
# Runs of two operations

A run in which one operation has set weights and another one has changed header routes is a `Joint`
history of the two (`joint_of_run`). Each of them has listed the routes while the other one may
already have been writing. But header routes do not matter to lists, and if no selector looks at
the mark that weights set, nor do weights (`Joint.listedAs`). So both requests have been resolved to
what they would have been resolved to in the beginning.
-/

namespace CanaryRouting

open Program Router

/-- Weights change the rules of a route, and the mark. -/
theorem listed_of_reweigh {rollout : Rollout} {settings : Settings} {desired : Int}
    {destinations : List WeightDestination} {skip : List Nat} {r z : Route}
    (h : reweigh rollout settings desired destinations skip r = .ok z) :
    z.listed settings = r.listed settings := by
  obtain ⟨-, -, rules, -, rfl⟩ := reweigh_eq_ok_iff.1 h
  exact Route.listed_relabel settings desired (r.withRules rules)

/-- A change of header routes changes the rules of a route. -/
theorem listed_of_on {rollout : Rollout} {change : HeaderChange} {t : Target}
    {registry : ManagedRoutes} {r : Route} {routeChange : RouteChange}
    (h : change.on rollout t registry r = .ok (some routeChange)) (settings : Settings) :
    routeChange.after.listed settings = r.listed settings := by
  obtain ⟨hbefore, -, hproper⟩ := proper_of_on h ""
  obtain ⟨rules, hafter⟩ := hproper.after_eq
  rw [hafter, hbefore]
  rfl

/-- A request is resolved by reading. -/
theorem reads_of_resolve {rollout : Rollout} {plan : Plan} {lists : List Event}
    (h : (resolve rollout).run.Ends lists (.ok plan)) : ∀ e ∈ lists, e.Reads := by
  intro e he
  obtain ⟨-, hrequests⟩ := lists_of_resolve h
  obtain ⟨_, _, -, hrequest⟩ := hrequests e he
  exact ⟨by rw [hrequest]; rfl, by rw [hrequest]; rfl⟩

/-- A write that replaces a route by one that is listed as the other one was. -/
theorem Event.Replaces.listed {e : Event} {k : RouteKey} {r r' : Route} (h : e.Replaces k r r')
    {settings : Settings} (hlisted : r'.listed settings = r.listed settings) :
    ((Cluster.respond e.request e.before).2.routes.get? k).map (Route.listed settings) =
      (e.before.routes.get? k).map (Route.listed settings) := by
  rw [h.left, h.found]
  exact congrArg some hlisted

namespace Joint

variable {rollout : Rollout} {settings : Settings} {key : DocumentKey} {change : HeaderChange}
  {desired : Int} {destinations : List WeightDestination} {c c' snapshot : Cluster}
  {es : List Event} {ts hs : List Target}

/-- At any time the routes are listed as in the beginning. -/
theorem listedAs (h : Joint rollout settings key change desired destinations c c' snapshot es ts hs)
    (hts : (ts.map Target.identity).Nodup) (hhs : (hs.map Target.identity).Nodup)
    {es₁ es₂ : List Event} (hes : es = es₁ ++ es₂) {c₁ : Cluster} (h₁ : c.History es₁ c₁) :
    c.ListedAs settings c₁ := by
  refine h₁.listedAs fun e he k hk => ?_
  have hmem : e ∈ es := hes ▸ List.mem_append_left _ he
  have hwrites : e.writes k := decide_eq_true hk
  have hown : ∀ {i : Nat} {w : Event}, e.caller = i →
      eventsOf i (es.filter (Event.writes k)) = [w] → e = w := fun hi hw =>
    List.mem_singleton.1 (hw ▸ mem_eventsOf.2 ⟨List.mem_filter.2 ⟨hmem, hwrites⟩, hi⟩)
  rcases h.caller_cases hmem with hi | hi
  · obtain ⟨t, ht, rfl⟩ := (h.routes hwrites).1 (mem_eventsOf.2 ⟨hmem, hi⟩)
    obtain ⟨-, route, skip, weighed, -, hweigh, htreats⟩ := h.weighs hts ht
    obtain ⟨w, hw, hreplaces⟩ := htreats.replaces h.history h.genuine
    obtain rfl := hown hi hw
    exact hreplaces.listed (listed_of_reweigh hweigh)
  · obtain ⟨t, ht, rfl⟩ := (h.routes hwrites).2 (mem_eventsOf.2 ⟨hmem, hi⟩)
    obtain ⟨registry, route, x, hon, -, htreats⟩ := (h.chain hhs).of_mem ht
    cases x with
    | none =>
      have hnone := htreats.unwritten
      rw [eventsOf, List.filter_eq_nil_iff] at hnone
      exact absurd (decide_eq_true hi) (hnone e (List.mem_filter.2 ⟨hmem, hwrites⟩))
    | some routeChange =>
      obtain ⟨w, hw, hreplaces⟩ := htreats.replaces h.history h.genuine
      obtain rfl := hown hi hw
      exact hreplaces.listed (listed_of_on hon settings)

/-- A request that was resolved at some time was resolved as in the beginning. -/
theorem plan_eq (h : Joint rollout settings key change desired destinations c c' snapshot es ts hs)
    (hts : (ts.map Target.identity).Nodup) (hhs : (hs.map Target.identity).Nodup)
    (hapart : settings.SelectsApart) {plan₀ plan : Plan} (hsettings : plan.settings = settings)
    (hplan₀ : (resolve rollout).runOn c.undisturbed = (.ok plan₀, c.undisturbed))
    {lists : List Event} (hends : (resolve rollout).run.Ends lists (.ok plan))
    (hlists : ∀ e ∈ lists, e ∈ es) : plan = plan₀ := by
  subst hsettings
  obtain ⟨-, hrequests⟩ := lists_of_resolve hends
  have hrun : (resolve rollout).runOn c.undisturbed = (.ok plan, c.undisturbed) := by
    refine hends.run_undisturbed fun e he => ?_
    obtain ⟨kind, selector, hselector, hrequest⟩ := hrequests e he
    obtain ⟨es₁, es₂, hes⟩ := List.append_of_mem (hlists e he)
    have hbefore := h.history
    rw [hes] at hbefore
    rw [h.history.answer_eq (hlists e he), hrequest]
    have hlisted := h.listedAs hts hhs hes hbefore.of_middle.1
    exact ⟨Cluster.respond_listRoutes_congr hlisted _ _ fun query =>
      hapart kind selector query hselector, Cluster.respond_listRoutes ..⟩
  exact Except.ok.inj (congrArg Prod.fst (hrun.symm.trans hplan₀))

end Joint

/-! ### Runs -/

/-- The events of a run without failures are genuine. -/
theorem genuine_of_run {c : Cluster} (hc : c.WellFormed) {orders : List Order} {turns : List Turn}
    (hturns : ∀ turn ∈ turns, turn.failure = none) :
    ∀ e ∈ ((Traffic.start c orders).run turns).events, e.Genuine := by
  intro e he
  obtain ⟨new, hleads⟩ := (Traffic.start c orders).leads_run hturns
  have hevents : ((Traffic.start c orders).run turns).events = new := hleads.events
  refine ⟨hleads.history.answer_eq (hevents ▸ he), ?_⟩
  rcases Traffic.before_of_run _ he with hnone | ⟨turns₁, turns₂, rfl, hbefore⟩
  · cases hnone
  · obtain ⟨known, haccount⟩ := account_of_run hc orders turns₁
    exact hbefore ▸ haccount.wellFormed

/-- What an operation that has ended has asked and was answered. -/
theorem ends_of_run {c : Cluster} {orders : List Order} {turns : List Turn}
    (hturns : ∀ turn ∈ turns, turn.failure = none) {i : Nat} {o : Order} {a : Order.Result}
    (ho : orders[i]? = some o) (ha : ((Traffic.start c orders).run turns).result? i = some a) :
    o.program.Ends (eventsOf i ((Traffic.start c orders).run turns).events) a := by
  obtain ⟨new, hleads⟩ := (Traffic.start c orders).leads_run hturns
  have hevents : ((Traffic.start c orders).run turns).events = new := hleads.events
  obtain ⟨q, hq, hresult⟩ := Option.bind_eq_some_iff.1 ha
  rw [hevents]
  exact hleads.transcript (p := { host := o.host, rest := o.program })
    (by simp [Traffic.start, ho]) hq hresult

/-- Two operations that have gone through, one after or beside the other: what they have done, they
have done to the targets that both were resolved to in the beginning. -/
theorem joint_of_run {c : Cluster} (hc : c.WellFormed) {host : Nat} {rollout : Rollout}
    {plan : Plan} {desired : Int} {destinations : List WeightDestination} {operation : Operation}
    {change : HeaderChange} (hop : operation.headerChange? rollout = some (.ok change))
    (hplan : (resolve rollout).runOn c.undisturbed = (.ok plan, c.undisturbed))
    (hapart : plan.settings.SelectsApart) {turns : List Turn}
    (hturns : ∀ turn ∈ turns, turn.failure = none) {t : Traffic Order.Result}
    (ht : t = (Traffic.start c [⟨host, rollout, .setWeight desired destinations⟩,
      ⟨host, rollout, operation⟩]).run turns) {x y : Option Bool}
    (hx : t.result? 0 = some (.ok x)) (hy : t.result? 1 = some (.ok y)) :
    checkWeight desired = .ok () ∧ ∃ snapshot,
      Joint rollout plan.settings plan.key change desired destinations c t.cluster snapshot t.events
        plan.targets plan.headerTargets := by
  have hresolved := resolved_of_runOn hplan
  have hgenuine : ∀ e ∈ t.events, e.Genuine := ht ▸ genuine_of_run hc hturns
  have hown : ∀ {i : Nat}, ∀ e ∈ eventsOf i t.events, e.Genuine := fun e he =>
    hgenuine e (mem_eventsOf.1 he).1
  obtain ⟨hhistory, hcallers⟩ : c.History t.events t.cluster ∧ ∀ e ∈ t.events, e.caller < 2 := by
    obtain ⟨new, hleads⟩ := Traffic.leads_run (Traffic.start c _) hturns
    have hevents : t.events = new := ht ▸ hleads.events
    exact ⟨hevents ▸ ht ▸ hleads.history, hevents ▸ hleads.caller⟩
  obtain ⟨hcheck, plan₀, lists₀, i, answer, snapshot, rest₀, hes₀, hlists₀, hweighs⟩ :=
    ends_setWeight (ht ▸ ends_of_run hturns rfl (ht ▸ hx)) hown
  obtain ⟨plan₁, lists₁, opening, rest₁, d, d', hes₁, hlists₁, hopen, hd, halters⟩ :=
    ends_perform hop (ht ▸ ends_of_run hturns rfl (ht ▸ hy)) hown
  obtain ⟨hresolved₀, -⟩ := lists_of_resolve hlists₀
  obtain ⟨hresolved₁, -⟩ := lists_of_resolve hlists₁
  obtain ⟨hsettings₀, hkey₀⟩ := hresolved.unique hresolved₀
  obtain ⟨hsettings₁, hkey₁⟩ := hresolved.unique hresolved₁
  have hjoint : Joint rollout plan.settings plan.key change desired destinations c t.cluster
      snapshot t.events plan₀.targets plan₁.headerTargets := {
    history := hhistory
    genuine := hgenuine
    callers := hcallers
    named := hresolved.document_ne
    weighing := by
      rw [← hsettings₀, ← hkey₀]
      exact ⟨lists₀, i, answer, rest₀, hes₀, reads_of_resolve hlists₀, hweighs⟩
    altering := by
      rw [← hkey₁]
      exact ⟨lists₁, opening, rest₁, d, d', by rw [hes₁, List.append_assoc],
        reads_of_resolve hlists₁, hopen, hd, halters⟩ }
  have hhs := nodup_headerTargets hresolved₁
  -- Both have read their lists in this history, in which no list has changed.
  have hplan₀ : plan₀ = plan :=
    hjoint.plan_eq hresolved₀.nodup hhs hapart hsettings₀ hplan hlists₀ fun e he =>
      (mem_eventsOf.1 (hes₀ ▸ List.mem_append_left _ he)).1
  have hplan₁ : plan₁ = plan :=
    hjoint.plan_eq hresolved₀.nodup hhs hapart hsettings₁ hplan hlists₁ fun e he =>
      (mem_eventsOf.1 (hes₁ ▸ List.mem_append_left _ he)).1
  exact ⟨hcheck, snapshot, by rwa [hplan₀, hplan₁] at hjoint⟩

end CanaryRouting
