import CanaryRouting.Proofs.Exclusion.Serial
import CanaryRouting.Proofs.Serial.Result

/-!
# Weights and header routes side by side

One operation sets weights while another one changes header routes, and both go through. The lock of
the registry document does not keep them apart, since setting weights does not take it. Nor do the
versions of the routes: the positions of header routes are read once, before any route is read, so
they may be those of an earlier document while the route is the one of now. If that does not happen,
what is stored in the end is what the two would have left one after the other (`serial_of_run`). If
it does, it may be what neither order leaves (`weights_outdated`).
-/

namespace CanaryRouting

open Program Router

/-! ### One after the other -/

/-- Two operations that go through one after the other. -/
theorem carryOut_pair {o o' : Order} {c c₁ c₂ : Cluster} {a b : Order.Result}
    (h : (perform o.rollout o.operation).runOn c.undisturbed = (a, c₁.undisturbed))
    (h' : (perform o'.rollout o'.operation).runOn c₁.undisturbed = (b, c₂.undisturbed)) :
    c.carryOut [o, o'] = ([a, b], c₂) := by
  have hrun : ∀ {o : Order} {c c₁ : Cluster} {a : Order.Result},
      (perform o.rollout o.operation).runOn c.undisturbed = (a, c₁.undisturbed) →
      o.program.run Cluster.respond c = (a, c₁) := by
    intro o c c₁ a h
    rw [Call.runOn, run_undisturbed] at h
    obtain ⟨ha, hc⟩ := Prod.mk.inj h
    exact Prod.ext ha (congrArg FaultyCluster.cluster hc)
  simp only [Cluster.carryOut, hrun h, hrun h']

section

variable {c c' snapshot : Cluster} {host : Nat} {rollout : Rollout} {plan : Plan} {desired : Int}
  {destinations : List WeightDestination} {operation : Operation} {change : HeaderChange}
  {es : List Event}

/-- Weights first, and then header routes: both go through, and leave what is left. -/
theorem Joint.weights_then_headers (h : Joint rollout plan.settings plan.key change desired
      destinations c c' snapshot es plan.targets plan.headerTargets) (hc : c.WellFormed)
    (hop : operation.headerChange? rollout = some (.ok change))
    (hplan : (resolve rollout).runOn c.undisturbed = (.ok plan, c.undisturbed))
    (hapart : plan.settings.SelectsApart) (hcheck : checkWeight desired = .ok ())
    (hbehind : ∀ t ∈ plan.headerTargets, writersOf (t.keyIn plan.space) es = [1, 0] →
      t.PlacedAs (c'.document plan.key) (snapshot.document plan.key) ∧
        Exchangeable c plan.key rollout change destinations t) :
    ∃ c₂, c.carryOut [⟨host, rollout, .setWeight desired destinations⟩, ⟨host, rollout, operation⟩] =
      ([.ok none, .ok none], c₂) ∧ c'.SameAs c₂ := by
  have hts := (resolved_of_runOn hplan).nodup
  have hsub : plan.headerTargets.Sublist plan.targets := List.filter_sublist
  obtain ⟨s, hweights⟩ := ok_setWeight hc hplan hcheck fun t ht => h.weighable hts hsub hbehind ht
  obtain ⟨c₁, rfl, hweighed⟩ := weighed_of_setWeight hc hplan hweights
  have hplan₁ := runOn_resolve_congr (by rw [hplan]) hweighed.listedAs hapart
  obtain ⟨c₂, hheaders, hstored⟩ := ok_perform hop hweighed.wellFormed hplan₁
    ((h.chain_weighed hts hsub hbehind hweighed).imp fun _ _ _ _ _ hP => hP.1)
  obtain ⟨c₃, hsame, hprogress⟩ := progress_of_perform hop hweighed.wellFormed hplan₁ hheaders
  obtain rfl : c₂ = c₃ := congrArg FaultyCluster.cluster hsame
  exact ⟨c₂, carryOut_pair hweights hheaders,
    h.sameAs_weights_first hts hsub hbehind hweighed hprogress hstored⟩

/-- Header routes first, and then weights: both go through, and leave what is left. -/
theorem Joint.headers_then_weights (h : Joint rollout plan.settings plan.key change desired
      destinations c c' snapshot es plan.targets plan.headerTargets) (hc : c.WellFormed)
    (hop : operation.headerChange? rollout = some (.ok change))
    (hplan : (resolve rollout).runOn c.undisturbed = (.ok plan, c.undisturbed))
    (hapart : plan.settings.SelectsApart) (hcheck : checkWeight desired = .ok ())
    (hnot : ∀ t ∈ plan.headerTargets, writersOf (t.keyIn plan.space) es ≠ [0, 1])
    (hfresh : ∀ t ∈ plan.headerTargets, writersOf (t.keyIn plan.space) es = [1, 0] →
      t.PlacedAs (c'.document plan.key) (snapshot.document plan.key)) :
    ∃ c₂, c.carryOut [⟨host, rollout, operation⟩, ⟨host, rollout, .setWeight desired destinations⟩] =
      ([.ok none, .ok none], c₂) ∧ c'.SameAs c₂ := by
  have hts := (resolved_of_runOn hplan).nodup
  have hsub : plan.headerTargets.Sublist plan.targets := List.filter_sublist
  obtain ⟨c₁, hheaders, hstored⟩ := ok_perform hop hc hplan
    ((h.headers_first hts hsub hnot).imp fun _ _ _ _ _ hP => ⟨hP.1, hP.2.1⟩)
  obtain ⟨c₃, hsame, hprogress⟩ := progress_of_perform hop hc hplan hheaders
  obtain rfl : c₁ = c₃ := congrArg FaultyCluster.cluster hsame
  have hplan₁ := runOn_resolve_congr (by rw [hplan]) hprogress.listedAs hapart
  obtain ⟨-, hweighable⟩ := h.weighable_changed hts hsub hnot hfresh hprogress
  obtain ⟨s, hweights⟩ := ok_setWeight hprogress.wellFormed hplan₁ hcheck fun t ht =>
    let ⟨hname, r, z, hr, hz, _⟩ := hweighable t ht
    ⟨hname, r, z, hr, hz⟩
  obtain ⟨c₂, rfl, hweighed⟩ := weighed_of_setWeight hprogress.wellFormed hplan₁ hweights
  exact ⟨c₂, carryOut_pair hheaders hweights,
    h.sameAs_headers_first hts hsub hnot hfresh hprogress hstored hweighed⟩

/-- One router sets weights and changes header routes at the same time, and both go through. Where the
header routes of a target are written before its weights, the positions that the weights are set
with have to be those of the end. If at one target the weights are written first and at another one
the header routes, the two must be exchangeable at the latter. Then what is stored in the end is what
they would have left one after the other. -/
theorem serial_of_run (hc : c.WellFormed)
    (hop : operation.headerChange? rollout = some (.ok change))
    (hplan : (resolve rollout).runOn c.undisturbed = (.ok plan, c.undisturbed))
    (hapart : plan.settings.SelectsApart) {turns : List Turn}
    (hturns : ∀ turn ∈ turns, turn.failure = none) :
    let weights : Order := ⟨host, rollout, .setWeight desired destinations⟩
    let headers : Order := ⟨host, rollout, operation⟩
    let t := (Traffic.start c [weights, headers]).run turns
    (∃ x, t.result? 0 = some (.ok x)) → (∃ x, t.result? 1 = some (.ok x)) →
      (∀ target ∈ plan.headerTargets, writersOf (target.keyIn plan.space) t.events = [1, 0] →
        ∀ e ∈ eventsOf 0 t.events, e.request = .getDocument plan.space plan.document →
          target.PlacedAs (t.cluster.document plan.key) (e.before.document plan.key)) →
      ((∃ target ∈ plan.headerTargets, writersOf (target.keyIn plan.space) t.events = [0, 1]) →
        ∀ target ∈ plan.headerTargets, writersOf (target.keyIn plan.space) t.events = [1, 0] →
          Exchangeable c plan.key rollout change destinations target) →
      ∃ order, (order = [weights, headers] ∨ order = [headers, weights]) ∧
        ∃ c₂, c.carryOut order = ([.ok none, .ok none], c₂) ∧ t.cluster.SameAs c₂ := by
  intro weights headers t
  have ht : t = (Traffic.start c [weights, headers]).run turns := rfl
  clear_value t
  rintro ⟨x, hx⟩ ⟨y, hy⟩ hfresh hcross
  obtain ⟨hcheck, snapshot, hjoint⟩ := joint_of_run hc hop hplan hapart hturns ht hx hy
  have hsnapshot : ∀ target ∈ plan.headerTargets,
      writersOf (target.keyIn plan.space) t.events = [1, 0] →
        target.PlacedAs (t.cluster.document plan.key) (snapshot.document plan.key) := by
    intro target htarget hwriters
    obtain ⟨lists, i, answer, rest, hes, -⟩ := hjoint.weighing
    have hread : ⟨i, .getDocument plan.key.space plan.key.name, answer, snapshot⟩ ∈
        eventsOf 0 t.events := by
      rw [hes]
      exact List.mem_append_right _ (List.mem_cons_self ..)
    have hplaced := hfresh target htarget hwriters _ hread rfl
    exact hplaced
  by_cases hcrossed : ∃ target ∈ plan.headerTargets,
      writersOf (target.keyIn plan.space) t.events = [0, 1]
  · exact ⟨_, .inl rfl, hjoint.weights_then_headers hc hop hplan hapart hcheck fun target ht hw =>
      ⟨hsnapshot target ht hw, hcross hcrossed target ht hw⟩⟩
  · exact ⟨_, .inr rfl, hjoint.headers_then_weights hc hop hplan hapart hcheck
      (fun target ht hw => hcrossed ⟨target, ht, hw⟩) hsnapshot⟩

end

/-! ### Two routes in opposite orders

The header route is added to the first of two routes, then both routes are given their weights, and
then the header route is added to the second one.
-/

/-- The operations. -/
def crossingOrders : List Order := [⟨0, pairRollout, .setWeight 20 []⟩, ⟨0, pairRollout, setBeta⟩]

/-- The run. -/
def crossing : Traffic Order.Result :=
  (Traffic.start pairCluster crossingOrders).run (turnsOf [1, 1, 1, 1, 1, 1, 0, 0, 0, 0, 0, 1, 1, 1])

/-- What the registry records when the weights are set. -/
def crossingRegistry : ManagedRoutes := ManagedRoutes.empty.record "beta" "web" 1

theorem serial_of_run_crossing :
    (pairTargets.map fun t => writersOf (t.keyIn "shop") crossing.events) = [[1, 0], [0, 1]] ∧
      ∃ order, (order = crossingOrders ∨ order = crossingOrders.reverse) ∧
        ∃ c₂, pairCluster.carryOut order = ([.ok none, .ok none], c₂) ∧
          crossing.cluster.SameAs c₂ := by
  have hwriters : (pairTargets.map fun t => writersOf (t.keyIn "shop") crossing.events) =
      [[1, 0], [0, 1]] := by decide +kernel
  have hread : ∀ e ∈ eventsOf 0 crossing.events,
      e.before.registry pairPlan.key .http = .ok crossingRegistry := by decide +kernel
  have hlast : crossing.cluster.registry pairPlan.key .http =
      .ok (crossingRegistry.record "beta" "api" 1) := by decide +kernel
  have hempty : ∀ kind m, pairCluster.registry pairPlan.key kind = .ok m → m = .empty :=
    fun _ _ hm => (Except.ok.inj hm).symm
  have hop : setBeta.headerChange? pairRollout =
      some (.ok (.set "beta" [⟨"x-user", some .exact, "beta"⟩])) := rfl
  have hplan : (resolve pairRollout).runOn pairCluster.undisturbed =
      (.ok pairPlan, pairCluster.undisturbed) := rfl
  refine ⟨hwriters, serial_of_run wellFormed_pairCluster hop hplan
    (fun kind => by cases kind <;> nofun) (by decide +kernel)
    ⟨none, by decide +kernel⟩ ⟨none, by decide +kernel⟩ (fun target htarget hw e he _ m hm => ?_)
    fun _ target _ _ => ?_⟩
  · have hmem : target ∈ pairTargets := htarget
    simp only [pairTargets, List.mem_cons, List.not_mem_nil, or_false] at hmem
    rcases hmem with rfl | rfl
    · have hsnapshot := hread e he
      rw [Cluster.registry_eq_load] at hsnapshot hlast
      cases hsnapshot.symm.trans hm
      exact ⟨_, hlast, (ManagedRoutes.positions_record_of_ne _ _ _ (by decide)).symm⟩
    · exact absurd hw (by decide +kernel)
  · exact ⟨⟨by decide, nofun⟩, fun m hm => by rw [hempty _ m hm]; exact ⟨nofun, nofun⟩,
      fun m hm => by rw [hempty _ m hm]; rfl⟩

/-! ### Positions out of date

The registry is read before the header route is added, and the route afterwards. Nothing is refused,
and the rule of the header route gets a weight.
-/

/-- The operations. -/
def outdatedOrders : List Order := [⟨0, shopRollout, .setWeight 20 []⟩,
  ⟨0, shopRollout, .setHeaderRoute ⟨"beta", [⟨"x-user", { exact := some "beta" }⟩]⟩⟩]

/-- The run. -/
def outdated : Traffic Order.Result :=
  (Traffic.start shopCluster outdatedOrders).run (turnsOf [0, 1, 1, 1, 1, 1, 1, 0, 0])

theorem weights_outdated :
    outdated.result? 0 = some (.ok none) ∧ outdated.result? 1 = some (.ok none) ∧
      (outdated.cluster.routes.get? ⟨.http, "shop", "web"⟩).map Route.backendWeights =
        some [[("canary", some 20), ("stable", some 80)], [("canary", some 20)]] ∧
      ¬ outdated.cluster.SameAs (shopCluster.carryOut outdatedOrders).2 ∧
      ¬ outdated.cluster.SameAs (shopCluster.carryOut outdatedOrders.reverse).2 :=
  ⟨by decide +kernel, by decide +kernel, by decide +kernel,
    fun h => absurd (h.routes ⟨.http, "shop", "web"⟩) (by decide +kernel),
    fun h => absurd (h.routes ⟨.http, "shop", "web"⟩) (by decide +kernel)⟩

end CanaryRouting
