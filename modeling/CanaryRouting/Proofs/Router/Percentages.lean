import CanaryRouting.Proofs.Router.Rewriting
import CanaryRouting.Proofs.Shaping.Percentages

/-!
# Whether all weights that are written are percentages

The desired weight of a request is checked, and the weights of the further services are not. They
are cut off where they are taken from the canary, but not where they are written. So all weights
that a request puts on references of stored routes are percentages just if each weight that it asks
for a further service is one, or no route is written (`percentages_iff_of_setWeight`).
-/

namespace CanaryRouting

open Program Router

/-- A request for weights that has written the routes of these targets, which led from `c` to `c'`,
has put a weight on this reference of one of them. -/
def GivenWeight (rollout : Rollout) (plan : Plan) (document : Option Document) (c c' : Cluster)
    (done : List Target) (b : BackendRef) : Prop :=
  ∃ t ∈ done, ∃ route skip route', c.routes.get? (t.keyIn plan.space) = some route ∧
    injectedRules document t = .ok skip ∧ c'.routes.get? (t.keyIn plan.space) = some route' ∧
    PutOn rollout.canaryService rollout.stableService skip route.rules route'.rules b

section

variable {rollout : Rollout} {plan : Plan} {document : Option Document} {desired : Int}
  {destinations : List WeightDestination} {c c' : Cluster} {done : List Target}

theorem not_givenWeight_nil (b : BackendRef) : ¬ GivenWeight rollout plan document c c' [] b :=
  fun ⟨_, ht, _⟩ => nomatch ht

theorem Router.distribute_of_reweigh {settings : Settings} {skip : List Nat} {route route' : Route}
    (h : reweigh rollout settings desired destinations skip route = .ok route') :
    distribute route.kind route.rules rollout.canaryService rollout.stableService desired
      destinations skip = .ok route'.rules := by
  obtain ⟨rules, hrules, rfl⟩ := reweigh_eq_ok.1 h
  exact hrules

/-- Of every target that was written the rules are what distributing the weights makes of them. -/
theorem Reweighs.distribute
    (h : Reweighs rollout plan.settings plan.space document desired destinations c c' done)
    {t : Target} (ht : t ∈ done) :
    ∃ route skip route', c.routes.get? (t.keyIn plan.space) = some route ∧
      injectedRules document t = .ok skip ∧ c'.routes.get? (t.keyIn plan.space) = some route' ∧
      distribute route.kind route.rules rollout.canaryService rollout.stableService desired
        destinations skip = .ok route'.rules := by
  obtain ⟨route, route', v, hroute, ⟨-, skip, hskip, hreweigh⟩, hwritten⟩ := h.written_of_mem ht
  have hrules := distribute_of_reweigh hreweigh
  exact ⟨route, skip, _, hroute, hskip, hwritten, hrules⟩

theorem Reweighs.weight_of_givenWeight (hdesired : IsPercentage desired)
    (h : Reweighs rollout plan.settings plan.space document desired destinations c c' done)
    {b : BackendRef} (hb : GivenWeight rollout plan document c c' done b) :
    ∃ weight, b.weight = some weight ∧
      (IsPercentage weight ∨ lastWeight? destinations b.name = some weight) := by
  obtain ⟨t, ht, route, skip, route', hroute, hskip, hroute', hput⟩ := hb
  obtain ⟨route₁, skip₁, route₁', hroute₁, hskip₁, hroute₁', hdistribute⟩ := h.distribute ht
  cases hroute.symm.trans hroute₁
  cases hskip.symm.trans hskip₁
  cases hroute'.symm.trans hroute₁'
  exact weight_of_putOn hdesired hdistribute hput

theorem Reweighs.exists_givenWeight
    (h : Reweighs rollout plan.settings plan.space document desired destinations c c' done)
    (hdone : done ≠ []) {service : String} {weight : Int}
    (hlast : lastWeight? destinations service = some weight) :
    ∃ b, GivenWeight rollout plan document c c' done b ∧ b.weight = some weight := by
  obtain ⟨t, ht⟩ := List.exists_mem_of_ne_nil done hdone
  obtain ⟨route, skip, route', hroute, hskip, hroute', hdistribute⟩ := h.distribute ht
  obtain ⟨b, hput, -, hweight⟩ := exists_putOn_of_lastWeight? hdistribute hlast
  exact ⟨b, ⟨t, ht, route, skip, route', hroute, hskip, hroute', hput⟩, hweight⟩

/-- All weights that were put on references are percentages just if those that are asked for the
further services are. -/
theorem Reweighs.percentages_iff (hdesired : IsPercentage desired)
    (h : Reweighs rollout plan.settings plan.space document desired destinations c c' done) :
    (∀ b, GivenWeight rollout plan document c c' done b →
        ∃ weight, b.weight = some weight ∧ IsPercentage weight) ↔
      done = [] ∨ ∀ service weight, lastWeight? destinations service = some weight →
        IsPercentage weight := by
  constructor
  · intro hall
    by_cases hdone : done = []
    · exact .inl hdone
    · refine .inr fun service weight hlast => ?_
      obtain ⟨b, hb, hweight⟩ := h.exists_givenWeight hdone hlast
      obtain ⟨weight', hweight', hpercentage⟩ := hall b hb
      cases hweight.symm.trans hweight'
      exact hpercentage
  · rintro (rfl | hasked) b hb
    · exact (not_givenWeight_nil b hb).elim
    · obtain ⟨weight, hweight, hpercentage | hlast⟩ := h.weight_of_givenWeight hdesired hb
      · exact ⟨weight, hweight, hpercentage⟩
      · exact ⟨weight, hweight, hasked _ _ hlast⟩

end

/-- A desired weight that is no percentage is refused. -/
theorem Router.runOn_setWeight_of_refused (rollout : Rollout) {desired : Int}
    (hdesired : ¬ IsPercentage desired) (destinations : List WeightDestination)
    (s : FaultyCluster) :
    (setWeight rollout desired destinations).runOn s = (.error (.weightOutOfRange desired), s) := by
  have hcheck : checkWeight desired = .error (.weightOutOfRange desired) := if_neg hdesired
  unfold setWeight
  rw [hcheck]
  exact Call.runOn_bind_error (Call.runOn_ofExcept _ s) _

/-- Once it is resolved, a request for weights weighs the first targets; none if the desired weight
is refused. -/
theorem reweighs_of_setWeight {rollout : Rollout} {desired : Int}
    {destinations : List WeightDestination} {s s' s₁ : FaultyCluster}
    {x : Except RoutingError Unit} {plan : Plan} (hs : s.cluster.WellFormed)
    (hrun : (setWeight rollout desired destinations).runOn s = (x, s'))
    (hplan : (resolve rollout).runOn s = (.ok plan, s₁)) :
    ∃ document done rest,
      (document = s.cluster.documents.get? plan.key ∨
        document = none ∧ s₁.failure? = some (.status 404)) ∧
      plan.targets = done ++ rest ∧ (x = .ok () → rest = []) ∧
      Reweighs rollout plan.settings plan.space document desired destinations s.cluster s'.cluster
        done ∧
      (done = [] ∨ IsPercentage desired) := by
  by_cases hdesired : IsPercentage desired
  swap
  · rw [runOn_setWeight_of_refused rollout hdesired] at hrun
    cases hrun
    exact ⟨_, [], plan.targets, .inl rfl, rfl, nofun, .nil _, .inl rfl⟩
  rcases runOn_setWeight_cases rollout desired destinations s with
    ⟨e, s₂, he, hsame, -⟩ | ⟨plan', s₂, document, hplan', hdocument, he⟩
  · rw [he] at hrun
    cases hrun
    refine ⟨_, [], plan.targets, .inl rfl, rfl, nofun, ?_, .inl rfl⟩
    rw [hsame]
    exact .nil _
  · cases hplan.symm.trans hplan'
    obtain ⟨done, rest, hsplit, hreweighs, hok⟩ := reweighs_forM rollout plan document desired
      destinations (s := ⟨s.cluster, s₁.failures.tail⟩) hs plan.targets
      (resolved_of_runOn hplan).nodup
    rw [← he, hrun] at hreweighs hok
    exact ⟨document, done, rest, hdocument, hsplit, hok.1, hreweighs, .inr hdesired⟩

/-- Whichever requests fail, a request for weights writes the first targets and nothing else. **Each
weight that it puts on a reference there is a percentage or the weight that it asks for a further
service**, and all of them are percentages exactly if these are, or if no target was written. -/
theorem percentages_iff_of_setWeight (rollout : Rollout) (desired : Int)
    (destinations : List WeightDestination) {s s' : FaultyCluster}
    {x : Except RoutingError Unit} (hs : s.cluster.WellFormed)
    (hrun : (setWeight rollout desired destinations).runOn s = (x, s')) :
    (∀ e s₁, (resolve rollout).runOn s = (.error e, s₁) → s'.cluster = s.cluster) ∧
    ∀ plan s₁, (resolve rollout).runOn s = (.ok plan, s₁) →
      ∃ document done rest,
        (document = s.cluster.documents.get? plan.key ∨
          document = none ∧ s₁.failure? = some (.status 404)) ∧
        plan.targets = done ++ rest ∧ (x = .ok () → rest = []) ∧
        Rewrites rollout plan document desired destinations s.cluster s'.cluster done ∧
        (∀ b, GivenWeight rollout plan document s.cluster s'.cluster done b →
          ∃ weight, b.weight = some weight ∧
            (IsPercentage weight ∨ lastWeight? destinations b.name = some weight)) ∧
        ((∀ b, GivenWeight rollout plan document s.cluster s'.cluster done b →
            ∃ weight, b.weight = some weight ∧ IsPercentage weight) ↔
          done = [] ∨ ∀ service weight, lastWeight? destinations service = some weight →
            IsPercentage weight) := by
  constructor
  · intro e s₁ hresolve
    rcases runOn_setWeight_cases rollout desired destinations s with
      ⟨_, _, he, hsame, -⟩ | ⟨_, _, _, hplan, -⟩
    · cases hrun.symm.trans he
      exact hsame
    · cases hresolve.symm.trans hplan
  · intro plan s₁ hplan
    obtain ⟨document, done, rest, hdocument, hsplit, hok, hreweighs, hdesired⟩ :=
      reweighs_of_setWeight hs hrun hplan
    refine ⟨document, done, rest, hdocument, hsplit, hok, hreweighs.rewrites, ?_⟩
    rcases hdesired with rfl | hdesired
    · exact ⟨fun b hb => (not_givenWeight_nil b hb).elim,
        iff_of_true (fun b hb => (not_givenWeight_nil b hb).elim) (.inl rfl)⟩
    · exact ⟨fun b hb => hreweighs.weight_of_givenWeight hdesired hb,
        hreweighs.percentages_iff hdesired⟩

/-- The further service of an experiment. -/
def experiment (weight : Int) : List WeightDestination := [⟨"preview", weight, none⟩]

theorem percentages_iff_of_setWeight_pair :
    ∃ document done rest, pairTargets = done ++ rest ∧ done.length = 1 ∧
      Rewrites pairRollout pairPlan document 30 (experiment 10) pairCluster
        ((setWeight pairRollout 30 (experiment 10)).runOn pairHalfway).2.cluster done ∧
      ∀ b, GivenWeight pairRollout pairPlan document pairCluster
          ((setWeight pairRollout 30 (experiment 10)).runOn pairHalfway).2.cluster done b →
        ∃ weight, b.weight = some weight ∧ IsPercentage weight := by
  obtain ⟨document, done, rest, -, hsplit, -, hrewrites, -, hiff⟩ :=
    (percentages_iff_of_setWeight pairRollout 30 (experiment 10) (s := pairHalfway)
      wellFormed_pairCluster (Prod.eta _).symm).2 pairPlan _ rfl
  refine ⟨document, done, rest, hsplit, ?_, hrewrites, hiff.2 (.inr fun service weight hlast => ?_)⟩
  · have hversions := hrewrites.versions
    have hthree : ((setWeight pairRollout 30 (experiment 10)).runOn
      pairHalfway).2.cluster.versions = 3 := rfl
    have htwo : pairHalfway.cluster.versions = 2 := rfl
    omega
  · obtain ⟨d, hd, -, rfl⟩ := exists_of_lastWeight? hlast
    rw [List.mem_singleton.1 hd]
    decide

/-- The desired weight is a percentage, and the request succeeds; a stored reference has a weight
that is none. -/
theorem experiment_beyond_hundred :
    IsPercentage 30 ∧
      ((setWeight pairRollout 30 (experiment 150)).runOn pairCluster.undisturbed).1 = .ok () ∧
      (pairCluster.routes.get? ⟨.http, "shop", "web"⟩).map Route.backendWeights =
        some [[("canary", none), ("stable", none)]] ∧
      (((setWeight pairRollout 30 (experiment 150)).runOn
          pairCluster.undisturbed).2.cluster.routes.get? ⟨.http, "shop", "web"⟩).map
        Route.backendWeights =
          some [[("canary", some 0), ("stable", some 70), ("preview", some 150)]] ∧
      ¬ IsPercentage 150 := by
  decide +kernel

end CanaryRouting
