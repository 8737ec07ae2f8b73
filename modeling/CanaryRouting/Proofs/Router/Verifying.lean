import CanaryRouting.Proofs.Router.Discovery
import CanaryRouting.Proofs.Serial.Alone
import CanaryRouting.Proofs.Shaping.Verifying

/-!
# Weights that have been set are verified

After weights have been set, asking whether they have been set is answered by yes, and asking about
any other percentage by no, provided that some route is looked at (`verified_of_setWeight`). That
holds even if the selectors look at the label that setting weights changes: then fewer routes may be
looked at, but no other ones.
-/

namespace CanaryRouting

open Program

namespace Router

variable {rollout : Rollout} {plan : Plan} {desired : Int} {destinations : List WeightDestination}
  {c : Cluster}

/-- Verifying one target is a matter of its rules. -/
theorem runOn_verifyWeightOf {t : Target} {r : Route} {skip : List Nat} {b : Bool} (checked : Int)
    (hname : t.name ≠ "") (hr : c.routes.get? (t.keyIn plan.space) = some r)
    (hskip : injectedRules (c.documents.get? plan.key) t = .ok skip)
    (happlied : weightsApplied t.kind r.rules rollout.canaryService rollout.stableService checked
      destinations skip = .ok b) :
    (verifyWeightOf rollout plan (c.documents.get? plan.key) checked destinations t).runOn
      c.undisturbed = (.ok b, c.undisturbed) := by
  have hget := runOn_getRoute_undisturbed (k := t.keyIn plan.space) hname hr
  simp only [Target.keyIn] at hget
  unfold verifyWeightOf
  rw [Call.runOn_bind_ok hget, hskip, Call.runOn_bind_ok (Call.runOn_ofExcept _ _), happlied,
    Call.runOn_ofExcept]

/-- Targets that are all verified with the same answer. -/
theorem runOn_allM {α : Type} {check : α → Call Bool} {b : Bool} {ts : List α} {s : FaultyCluster}
    (h : ∀ t ∈ ts, (check t).runOn s = (.ok b, s)) :
    (ts.allM check).runOn s = (.ok (ts.isEmpty || b), s) := by
  induction ts with
  | nil => rfl
  | cons t ts ih =>
    have hrest := ih fun t' ht' => h t' (List.mem_cons_of_mem _ ht')
    rw [List.allM, Call.runOn_bind_ok (h t (List.mem_cons_self ..))]
    cases b with
    | false => rfl
    | true => rw [hrest, List.isEmpty_cons, Bool.or_true, Bool.or_true]

/-- Verifying weights whose targets all have the same answer. -/
theorem runOn_perform_verifyWeight {checked : Int} {b : Bool} (hchecked : 0 ≤ checked ∧ checked ≤ 100)
    (hplan : (resolve rollout).runOn c.undisturbed = (.ok plan, c.undisturbed))
    (h : ∀ t ∈ plan.targets,
      (verifyWeightOf rollout plan (c.documents.get? plan.key) checked destinations t).runOn
        c.undisturbed = (.ok b, c.undisturbed)) :
    (perform rollout (.verifyWeight checked destinations)).runOn c.undisturbed =
      (.ok (some (plan.targets.isEmpty || b)), c.undisturbed) := by
  have hresolved : plan.Resolved rollout :=
    (runOn_resolve rollout c.undisturbed).2 plan (by rw [hplan])
  have hverify : (verifyWeight rollout checked destinations).runOn c.undisturbed =
      (.ok (plan.targets.isEmpty || b), c.undisturbed) := by
    unfold verifyWeight
    rw [checkWeight, if_pos hchecked, Call.runOn_bind_ok (Call.runOn_ofExcept _ _),
      Call.runOn_bind_ok hplan, Call.runOn_bind_ok (runOn_getDocument_of_resolved hresolved c)]
    exact runOn_allM h
  exact Call.runOn_bind_ok hverify _

/-- A target that was given weights carries these and no others. -/
theorem weightsApplied_of_weighed {c' : Cluster} (hc : c.WellFormed)
    (hne : rollout.canaryService ≠ rollout.stableService)
    (hnodup : (destinations.map WeightDestination.service).Nodup)
    (hapart : ∀ d ∈ destinations, d.service ≠ rollout.canaryService ∧
      d.service ≠ rollout.stableService)
    (hdesired : 0 ≤ desired)
    (hweighed : Weighed rollout plan.settings plan.key desired destinations c c' plan.targets)
    {t : Target} (ht : t ∈ plan.targets) :
    ∃ r skip, c'.routes.get? (t.keyIn plan.space) = some r ∧
      injectedRules (c'.documents.get? plan.key) t = .ok skip ∧
      ∀ checked, weightsApplied t.kind r.rules rollout.canaryService rollout.stableService checked
        destinations skip = .ok (decide (checked = desired)) := by
  obtain ⟨r, z, v, hr, hz, hstored⟩ := hweighed.weighed t ht
  obtain ⟨m, hm, hweigh⟩ := Cluster.weighed_eq_ok_iff.1 hz
  refine ⟨z.withVersion v, m.indices t.name, hstored, ?_, fun checked => ?_⟩
  · rw [hweighed.documents, injectedRules_get?, hm]
    rfl
  · obtain ⟨rules, hrules, rfl⟩ := reweigh_eq_ok.1 hweigh
    have hkind : r.kind = t.kind := (hc.route_isAt hr).kind
    rw [hkind] at hrules
    exact weightsApplied_of_distribute hne hnodup hapart hdesired hrules checked

end Router

open Router

/-- When weights have been set, they are verified, and no other percentage is: asking about another
one is answered by no as soon as there is a route to look at. -/
theorem verified_of_setWeight {rollout : Rollout} {desired : Int}
    {destinations : List WeightDestination} {c : Cluster} (hc : c.WellFormed)
    (hne : rollout.canaryService ≠ rollout.stableService)
    (hnodup : (destinations.map WeightDestination.service).Nodup)
    (hapart : ∀ d ∈ destinations, d.service ≠ rollout.canaryService ∧
      d.service ≠ rollout.stableService)
    {x : Option Bool} {s : FaultyCluster}
    (h : (perform rollout (.setWeight desired destinations)).runOn c.undisturbed = (.ok x, s)) :
    (perform rollout (.verifyWeight desired destinations)).runOn s = (.ok (some true), s) ∧
      ∀ checked, 0 ≤ checked → checked ≤ 100 → checked ≠ desired →
        ∀ plan s', (resolve rollout).runOn s = (.ok plan, s') → plan.targets ≠ [] →
          (perform rollout (.verifyWeight checked destinations)).runOn s = (.ok (some false), s) := by
  obtain ⟨hdesired, plan, hplan⟩ := resolved_of_setWeight h
  obtain ⟨c', rfl, hweighed⟩ := weighed_of_setWeight hc hplan h
  obtain ⟨plan', hplan', hkey, htargets⟩ :=
    resolve_of_untouched hc hweighed.wellFormed hplan hweighed.routes
  have hverify : ∀ checked, ∀ t ∈ plan'.targets,
      (verifyWeightOf rollout plan' (c'.documents.get? plan'.key) checked destinations t).runOn
        c'.undisturbed = (.ok (decide (checked = desired)), c'.undisturbed) := by
    intro checked t' ht'
    obtain ⟨⟨kind, name, useHeaderRoutes⟩, ht, hidentity⟩ := htargets t' ht'
    obtain ⟨r, skip, hr, hskip, happlied⟩ :=
      weightsApplied_of_weighed hc hne hnodup hapart hdesired.1 hweighed ht
    obtain ⟨kind', name', useHeaderRoutes'⟩ := t'
    cases hidentity
    have hspace : plan'.space = plan.space := congrArg DocumentKey.space hkey
    have hname : name ≠ "" := hweighed.named _ ht
    exact runOn_verifyWeightOf checked hname (hspace ▸ hr) (hkey ▸ hskip) (happlied checked)
  refine ⟨?_, fun checked hlow hhigh hother plan₁ s' hplan₁ hsome => ?_⟩
  · rw [runOn_perform_verifyWeight hdesired hplan' (hverify desired)]
    simp
  · cases hplan'.symm.trans hplan₁
    rw [runOn_perform_verifyWeight ⟨hlow, hhigh⟩ hplan' (hverify checked)]
    simp [hsome, hother]

/-! ### A run

A rollout picks routes that are not marked, and names one. Setting weights marks the other one as
well, so it is not picked any more when the weights are verified.
-/

/-- A rollout with a named route and a selector. -/
def pickyRollout : Rollout where
  name := "shop"
  space := "shop"
  canaryService := "canary"
  stableService := "stable"
  managedRoutes := []
  trafficRouting := .object [("httpRoute", .string "web"),
    ("httpRouteSelector", .object [("matchExpressions", .array [.object [
      ("key", .string "rollouts.argoproj.io/gatewayapi-canary"),
      ("operator", .string "DoesNotExist")]])])]

/-- A further service. -/
def pickyDestinations : List WeightDestination := [⟨"preview", 10, none⟩]

/-- The cluster after weights have been set. -/
def pickyAfter : FaultyCluster :=
  ((perform pickyRollout (.setWeight 30 pickyDestinations)).runOn pairCluster.undisturbed).2

theorem verified_of_setWeight_picky :
    (perform pickyRollout (.verifyWeight 30 pickyDestinations)).runOn pickyAfter =
        (.ok (some true), pickyAfter) ∧
      (perform pickyRollout (.verifyWeight 40 pickyDestinations)).runOn pickyAfter =
        (.ok (some false), pickyAfter) := by
  have hset : (perform pickyRollout (.setWeight 30 pickyDestinations)).runOn
      pairCluster.undisturbed = (.ok none, pickyAfter) := rfl
  obtain ⟨hyes, hno⟩ := verified_of_setWeight wellFormed_pairCluster (by decide) (by decide)
    (by decide) hset
  have hpicked : ((resolve pickyRollout).runOn pickyAfter).1.toOption.map Plan.targets =
      some [⟨.http, "web", true⟩] := by decide +kernel
  refine ⟨hyes, ?_⟩
  cases hplan : ((resolve pickyRollout).runOn pickyAfter).1 with
  | error e => rw [hplan] at hpicked; cases hpicked
  | ok plan =>
    rw [hplan] at hpicked
    have htargets : plan.targets ≠ [] := by
      rw [Option.some.inj hpicked]
      simp
    exact hno 40 (by decide) (by decide) (by decide) plan _ (Prod.ext hplan rfl) htargets

end CanaryRouting
