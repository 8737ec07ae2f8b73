import CanaryRouting.Proofs.Router.Listing
import CanaryRouting.Proofs.Router.Weighing
import CanaryRouting.Proofs.Shaping.Shares

/-!
# What setting weights leaves as it was

An update replaces a whole route, so whatever a request for weights does not carry over is lost. It
carries over everything but some weights, references of the primary rule and one label
(`Route.Reweighed`). The targets are written one after the other, each once, until a request fails,
and nothing else in the cluster changes (`rewrites_of_setWeight`).

Which rules are passed over is decided by the registry document as it was read. If the server
answers that there is none, no rule is passed over, whatever is stored.
-/

namespace CanaryRouting

open Program Router

/-! ### Rules -/

/-- What a request for weights changes in rules, of which `r` at `p` is the primary one: weights,
and in the primary rule also what is referenced. -/
structure RulesReweighed (canary stable : String) (destinations : List WeightDestination)
    (skip : List Nat) (rules rules' : List Rule) (p : Nat) (r : Rule) : Prop where
  /-- The rule is the primary one. -/
  primary : IsPrimary canary stable skip rules p r
  /-- There are as many rules as before. -/
  length : rules'.length = rules.length
  /-- Another rule keeps everything but weights of the stable service and, unless it is passed over,
  of the canary. -/
  others : ∀ i : Nat, i ≠ p → ∃ f : BackendRef → BackendRef,
    (∀ b : BackendRef,
      b.MayReweigh (fun name => name = canary ∧ i ∉ skip ∨ name = stable) (f b)) ∧
    rules'[i]? = rules[i]?.map fun r => r.mapRefs f
  /-- The primary rule may also get other weights for the services that are asked for, lose
  references, and get references to services that are asked for. -/
  references : ∃ (f : BackendRef → BackendRef) (kept added : List BackendRef),
    (∀ b : BackendRef, b.MayReweigh
      (fun name => name = canary ∨ name = stable ∨ isRequested destinations name) (f b)) ∧
    kept.Sublist r.refs ∧ (∀ b ∈ added, isRequested destinations b.name) ∧
    rules'[p]? = some { r with backendRefs := some (kept.map f ++ added) }

section

variable {canary stable : String} {desired : Int} {destinations : List WeightDestination}
  {skip : List Nat} {rules rules' : List Rule} {kind : RouteKind}

theorem rulesReweighed_of_distribute
    (h : distribute kind rules canary stable desired destinations skip = .ok rules') :
    ∃ p r, RulesReweighed canary stable destinations skip rules rules' p r := by
  obtain ⟨p, r, hprimary, rfl⟩ := exists_isPrimary_of_distribute h
  refine ⟨p, r, hprimary, ?_, ?_, ?_⟩
  · exact List.length_mapIdx
  · intro i hi
    refine ⟨fun b => b.share canary stable desired destinations (i ∈ skip), ?_, ?_⟩
    · intro b
      apply (BackendRef.MayReweigh.share canary stable desired destinations (i ∈ skip) b).mono
      simp
    · rw [List.getElem?_mapIdx, decide_eq_false hi]
      simp only [weighRule_false]
  · obtain ⟨first, hfirst⟩ := hprimary.exists_head destinations
    refine ⟨fun b => (b.share canary stable desired destinations (p ∈ skip)).settle destinations,
      dropStale canary stable destinations r.refs,
      (newcomers ((dropStale canary stable destinations r.refs).map BackendRef.name)
        destinations).map fun name => (first.retarget name).settle destinations,
      ?_, List.filter_sublist, ?_, ?_⟩
    · intro b
      apply BackendRef.MayReweigh.trans
      · apply (BackendRef.MayReweigh.share canary stable desired destinations (p ∈ skip) b).mono
        rintro (⟨hname, -⟩ | hname)
        · exact .inl hname
        · exact .inr (.inl hname)
      · apply BackendRef.MayReweigh.settle
        intro hrequested
        exact .inr (.inr hrequested)
    · intro b hb
      obtain ⟨name, hname, rfl⟩ := List.mem_map.1 hb
      rw [BackendRef.name_settle]
      exact isRequested_iff.2 (mem_newcomers hname).2
    · rw [List.getElem?_mapIdx, hprimary.get, Option.map_some, decide_eq_true rfl,
        weighRule_true_of_head hfirst]

end

/-! ### Routes -/

/-- What a request for weights changes in a route: its rules, and the label that marks routes with
canary traffic. -/
structure Route.Reweighed (rollout : Rollout) (settings : Settings) (desired : Int)
    (destinations : List WeightDestination) (skip : List Nat) (r r' : Route) : Prop where
  /-- Everything but labels and rules is kept. -/
  kept : r' = { r with
    metadata := { r.metadata with labels := r'.metadata.labels }, ruleList := some r'.rules }
  /-- If the mark is switched off, all labels are kept. -/
  unmarked : settings.disableLabel = true → r'.metadata.labels = r.metadata.labels
  /-- Otherwise the mark is there unless the weight is zero. -/
  marked : settings.disableLabel = false → r'.metadata.label? settings.inProgressKey =
    if desired = 0 then none else some settings.inProgressValue
  /-- All other labels are kept. -/
  labels : ∀ key, key ≠ settings.inProgressKey → r'.metadata.label? key = r.metadata.label? key
  /-- The rules keep everything but weights and references. -/
  rules : ∃ p rule, RulesReweighed rollout.canaryService rollout.stableService destinations skip
    r.rules r'.rules p rule

/-- The mark is there unless the weight is zero. -/
theorem Metadata.label?_ensureLabel_self {s : Settings} (h : s.disableLabel = false) (m : Metadata)
    (weight : Int) : (m.ensureLabel weight s).1.label? s.inProgressKey =
      if weight = 0 then none else some s.inProgressValue := by
  unfold ensureLabel
  rw [if_neg (by simp [h])]
  split
  · simp only [label?]
    cases m.labels with
    | none => rfl
    | some labels => simp [KeyMap.get?_erase]
  · simp only
    split
    · next hsame => simpa [label?] using hsame
    · simp [label?]

theorem Router.reweighed_of_reweigh {rollout : Rollout} {settings : Settings} {desired : Int}
    {destinations : List WeightDestination} {skip : List Nat} {route route' : Route}
    (h : reweigh rollout settings desired destinations skip route = .ok route') :
    route.Reweighed rollout settings desired destinations skip route' := by
  obtain ⟨rules, hrules, rfl⟩ := reweigh_eq_ok.1 h
  constructor
  case kept =>
    obtain ⟨labels, hlabels⟩ := route.metadata.ensureLabel_eq desired settings
    simp only [hlabels]
    rfl
  case unmarked =>
    intro hdisabled
    simp [Metadata.ensureLabel, hdisabled]
  case marked =>
    intro henabled
    exact Metadata.label?_ensureLabel_self henabled _ _
  case labels =>
    intro key hkey
    apply Metadata.label?_ensureLabel
    simp [Settings.marks, hkey]
  case rules =>
    exact rulesReweighed_of_distribute hrules

/-! ### Runs -/

/-- Of the cluster the routes of the targets have been written, each once and in this order, and
nothing else. Of a route what a request for weights may change has been changed; the document says
which rules were passed over. -/
def Rewrites (rollout : Rollout) (plan : Plan) (document : Option Document) (desired : Int)
    (destinations : List WeightDestination) (c c' : Cluster) (done : List Target) : Prop :=
  Cluster.Rewritten plan.space (fun t route route' => ∃ skip, injectedRules document t = .ok skip ∧
    route.Reweighed rollout plan.settings desired destinations skip route') c c' done

theorem Reweighs.rewrites {rollout : Rollout} {plan : Plan} {document : Option Document}
    {desired : Int} {destinations : List WeightDestination} {c c' : Cluster} {done : List Target}
    (h : Reweighs rollout plan.settings plan.space document desired destinations c c' done) :
    Rewrites rollout plan document desired destinations c c' done :=
  Cluster.Rewritten.mono h fun _ _ _ ⟨_, skip, hskip, hreweigh⟩ =>
    ⟨skip, hskip, reweighed_of_reweigh hreweigh⟩

theorem eq_of_ofFailure_eq_notFound {what what' : String} {failure : ApiFailure}
    (h : StoreError.ofFailure what failure = .notFound what') : failure = .status 404 := by
  unfold StoreError.ofFailure at h
  split at h
  · rfl
  · cases h
  · cases h

/-- A document is read as it is stored, or there is said to be none, or the request fails. -/
theorem runOn_getDocument_cases (s : FaultyCluster) (key : DocumentKey) :
    (∃ e, (Call.ofStore (Store.getDocument key.space key.name)).runOn s =
        (.error (.store e), ⟨s.cluster, s.failures.tail⟩)) ∨
      ∃ d?, (d? = s.cluster.documents.get? key ∨ d? = none ∧ s.failure? = some (.status 404)) ∧
        (Call.ofStore (Store.getDocument key.space key.name)).runOn s =
          (.ok d?, ⟨s.cluster, s.failures.tail⟩) := by
  rw [runOn_getDocument_eq, FaultyCluster.respond]
  cases hfailure : s.failure? with
  | some failure =>
    simp only [Cluster.respondUnless, Except.mapError]
    cases he : StoreError.ofFailure (Request.getDocument key.space key.name).what failure with
    | notFound what =>
      rw [eq_of_ofFailure_eq_notFound he]
      exact .inr ⟨none, .inr ⟨rfl, rfl⟩, rfl⟩
    | conflict what => exact .inl ⟨_, rfl⟩
    | failed what => exact .inl ⟨_, rfl⟩
  | none =>
    simp only [Cluster.respondUnless]
    by_cases hname : key.name = ""
    · rw [Cluster.respond_unnamed
        (by simp [Request.isNamed, Request.hasNameInPath, Request.name, hname])]
      exact .inl ⟨_, rfl⟩
    · rw [Cluster.respond_getDocument hname]
      cases s.cluster.documents.get? key <;> exact .inr ⟨_, .inl rfl, rfl⟩

/-- Setting weights ends before any target is worked through, or works through the targets with the
registry document as it was read. -/
theorem runOn_setWeight_cases (rollout : Rollout) (desired : Int)
    (destinations : List WeightDestination) (s : FaultyCluster) :
    (∃ e s', (setWeight rollout desired destinations).runOn s = (.error e, s') ∧
        s'.cluster = s.cluster ∧
        ((∃ s₁, (resolve rollout).runOn s = (.error e, s₁)) ∨ ∀ key, e ≠ .documentDecode key)) ∨
      ∃ plan s₁ document, (resolve rollout).runOn s = (.ok plan, s₁) ∧
        (document = s.cluster.documents.get? plan.key ∨
          document = none ∧ s₁.failure? = some (.status 404)) ∧
        (setWeight rollout desired destinations).runOn s =
          (plan.targets.forM (setWeightOf rollout plan document desired destinations)).runOn
            ⟨s.cluster, s₁.failures.tail⟩ := by
  have hcluster := (runOn_resolve rollout s).1
  unfold setWeight
  cases hweight : checkWeight desired with
  | error e =>
    rw [Call.runOn_bind_error (Call.runOn_ofExcept _ s)]
    refine .inl ⟨e, s, rfl, rfl, .inr ?_⟩
    rintro key rfl
    unfold checkWeight at hweight
    split at hweight <;> cases hweight
  | ok u =>
    rw [Call.runOn_bind_ok (Call.runOn_ofExcept _ s)]
    rcases hplan : (resolve rollout).runOn s with ⟨y, s₁⟩
    rw [hplan] at hcluster
    cases y with
    | error e =>
      rw [Call.runOn_bind_error hplan]
      exact .inl ⟨e, s₁, rfl, hcluster, .inl ⟨s₁, rfl⟩⟩
    | ok plan =>
      rw [Call.runOn_bind_ok hplan, ← hcluster]
      rcases runOn_getDocument_cases s₁ plan.key with ⟨e, he⟩ | ⟨document, hdocument, he⟩ <;>
        simp only [Plan.key] at he
      · rw [Call.runOn_bind_error he]
        exact .inl ⟨_, _, rfl, rfl, .inr (by simp)⟩
      · rw [Call.runOn_bind_ok he]
        exact .inr ⟨plan, s₁, document, rfl, hdocument, rfl⟩

/-- Whichever requests fail: unless the request cannot be resolved, which changes nothing, the first
targets are written, each once, and nothing else is. These are all of them if there is no error,
and only then if there are any. -/
theorem rewrites_of_setWeight (rollout : Rollout) (desired : Int)
    (destinations : List WeightDestination) {s s' : FaultyCluster}
    {x : Except RoutingError Unit} (hs : s.cluster.WellFormed)
    (hrun : (setWeight rollout desired destinations).runOn s = (x, s')) :
    (∀ e s₁, (resolve rollout).runOn s = (.error e, s₁) → x ≠ .ok () ∧ s'.cluster = s.cluster) ∧
    ∀ plan s₁, (resolve rollout).runOn s = (.ok plan, s₁) →
      ∃ document done rest,
        (document = s.cluster.documents.get? plan.key ∨
          document = none ∧ s₁.failure? = some (.status 404)) ∧
        plan.targets = done ++ rest ∧
        Rewrites rollout plan document desired destinations s.cluster s'.cluster done ∧
        (x = .ok () → rest = []) ∧ (rest = [] → plan.targets ≠ [] → x = .ok ()) := by
  rcases runOn_setWeight_cases rollout desired destinations s with
    ⟨e, s₂, he, hsame, -⟩ | ⟨plan, s₁, document, hplan, hdocument, he⟩
  · rw [he] at hrun
    cases hrun
    constructor
    · intro e' s₁ _
      exact ⟨nofun, hsame⟩
    · intro plan s₁ _
      refine ⟨_, [], plan.targets, .inl rfl, rfl, ?_, nofun, ?_⟩
      · rw [hsame]
        exact .nil _
      · intro hnone hsome
        exact absurd hnone hsome
  · constructor
    · intro e' s₂ he'
      rw [hplan] at he'
      cases he'
    · intro plan' s₂ hplan'
      rw [hplan] at hplan'
      cases hplan'
      obtain ⟨done, rest, hsplit, hreweighs, hok⟩ := reweighs_forM rollout plan document desired
        destinations (s := ⟨s.cluster, s₁.failures.tail⟩) hs plan.targets
        (resolved_of_runOn hplan).nodup
      rw [← he, hrun] at hreweighs hok
      refine ⟨document, done, rest, hdocument, hsplit, hreweighs.rewrites, hok.1, ?_⟩
      intro hall _
      exact hok.2 hall

/-- The pair of routes, and a server that refuses to update the second one. -/
def pairHalfway : FaultyCluster where
  cluster := pairCluster
  failures := [none, none, none, none, some (.status 500)]

theorem rewrites_of_setWeight_pair :
    ∃ document done rest, pairTargets = done ++ rest ∧ done.length = 1 ∧
      Rewrites pairRollout pairPlan document 30 [] pairCluster
        ((setWeight pairRollout 30 []).runOn pairHalfway).2.cluster done := by
  obtain ⟨document, done, rest, -, hsplit, hrewrites, -⟩ :=
    (rewrites_of_setWeight pairRollout 30 [] (s := pairHalfway) wellFormed_pairCluster
      (Prod.eta _).symm).2 pairPlan _ rfl
  refine ⟨document, done, rest, hsplit, ?_, hrewrites⟩
  have hversions := hrewrites.versions
  have hthree : ((setWeight pairRollout 30 []).runOn pairHalfway).2.cluster.versions = 3 := rfl
  have htwo : pairHalfway.cluster.versions = 2 := rfl
  omega

/-! ### Failures at the registry document

The request for the registry document is the only one that does not concern a single target. It may
fail without any target to stop at, and if it is answered that there is no document, nothing fails.
-/

/-- The pair of routes with an injected rule each, and a server that hides the registry document
that records them. -/
def pairHidden : FaultyCluster where
  cluster := ((perform pairRollout setBeta).runOn pairCluster.undisturbed).2.cluster
  failures := [some (.status 404)]

/-- A rollout that picks routes by a label. -/
def idleRollout : Rollout where
  name := "shop"
  space := "shop"
  canaryService := "canary"
  stableService := "stable"
  managedRoutes := []
  trafficRouting := .object [("httpRouteSelector", .object [("matchLabels", .object [
    ("app", .string "shop")])])]

/-- The pair of routes, which have no labels, and a server that does not hand out the registry
document. -/
def pairIdle : FaultyCluster where
  cluster := pairCluster
  failures := [none, some (.status 500)]

/-- If the recorded positions are hidden, an injected rule is reweighed; and if there are no
targets, a request that fails has written all of them. -/
theorem hidden_and_idle :
    ((injectedRules (pairHidden.cluster.documents.get? pairPlan.key) ⟨.http, "web", true⟩) =
        .ok [1] ∧
      (pairHidden.cluster.routes.get? ⟨.http, "shop", "web"⟩).map Route.backendWeights =
        some [[("canary", none), ("stable", none)], [("canary", none)]] ∧
      ((setWeight pairRollout 30 []).runOn pairHidden).1 = .ok () ∧
      (((setWeight pairRollout 30 []).runOn pairHidden).2.cluster.routes.get?
          ⟨.http, "shop", "web"⟩).map Route.backendWeights =
        some [[("canary", some 30), ("stable", some 70)], [("canary", some 30)]]) ∧
    (((resolve idleRollout).runOn pairIdle).1.toOption.map Plan.targets = some [] ∧
      ((setWeight idleRollout 30 []).runOn pairIdle).1 ≠ .ok ()) := by
  refine ⟨⟨?_, ?_, ?_, ?_⟩, ?_, ?_⟩ <;> decide +kernel

end CanaryRouting
