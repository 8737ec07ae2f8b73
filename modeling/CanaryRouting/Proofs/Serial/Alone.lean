import CanaryRouting.Proofs.Atomicity.Split
import CanaryRouting.Proofs.Router.Listing
import CanaryRouting.Proofs.Router.Weighing

/-!
# What an operation does when nothing disturbs it

Setting weights gives every target the weights that are asked for with the positions in the registry
(`weighed_of_setWeight`), and that goes through if every target is stored and can be weighed
(`ok_setWeight`). A change of header routes goes through if it is known what it makes of the targets
one after the other (`ok_perform`).
-/

namespace CanaryRouting

open Program Router

/-- The route of a target with the weights of a request, outside the rules that the registry of the
cluster records. -/
def Cluster.weighed (c : Cluster) (key : DocumentKey) (rollout : Rollout) (settings : Settings)
    (desired : Int) (destinations : List WeightDestination) (t : Target) (route : Route) :
    Except RoutingError Route := do
  let m ← c.registry key t.kind
  reweigh rollout settings desired destinations (m.indices t.name) route

/-- The targets have been given their weights, outside the rules that the registry of the cluster
records, and the cluster is still well formed. -/
structure Weighed (rollout : Rollout) (settings : Settings) (key : DocumentKey) (desired : Int)
    (destinations : List WeightDestination) (c c' : Cluster) (ts : List Target) : Prop where
  /-- The cluster is well formed. -/
  wellFormed : c'.WellFormed
  /-- The targets have been weighed. -/
  reweighs : Reweighs rollout settings key.space (c.documents.get? key) desired destinations c c' ts

section

variable {rollout : Rollout} {settings : Settings} {key : DocumentKey} {desired : Int}
  {destinations : List WeightDestination} {c c' : Cluster}

theorem Cluster.weighed_eq_ok_iff {t : Target} {r z : Route} :
    c.weighed key rollout settings desired destinations t r = .ok z ↔
      ∃ m, c.registry key t.kind = .ok m ∧
        reweigh rollout settings desired destinations (m.indices t.name) r = .ok z :=
  Except.bind_eq_ok

theorem Cluster.weighed_of_reweigh {t : Target} {r z : Route} {skip : List Nat}
    (hskip : injectedRules (c.documents.get? key) t = .ok skip)
    (hweigh : reweigh rollout settings desired destinations skip r = .ok z) :
    c.weighed key rollout settings desired destinations t r = .ok z := by
  rw [injectedRules_get?] at hskip
  obtain ⟨m, hm, rfl⟩ := Except.map_eq_ok.1 hskip
  exact weighed_eq_ok_iff.2 ⟨m, hm, hweigh⟩

/-- Versions do not matter. -/
theorem Cluster.weighed_withVersion {t : Target} {r z : Route} (v : Option String)
    (h : c.weighed key rollout settings desired destinations t r = .ok z) :
    c.weighed key rollout settings desired destinations t (r.withVersion v) =
      .ok (z.withVersion v) := by
  obtain ⟨m, hm, hweigh⟩ := weighed_eq_ok_iff.1 h
  exact weighed_eq_ok_iff.2 ⟨m, hm, reweigh_withVersion v hweigh⟩

namespace Weighed

variable {ts : List Target}

theorem documents (h : Weighed rollout settings key desired destinations c c' ts) :
    c'.documents = c.documents := Cluster.Rewritten.documents h.reweighs

/-- Other routes are not touched. -/
theorem routes (h : Weighed rollout settings key desired destinations c c' ts) :
    ∀ k, (∀ t ∈ ts, t.keyIn key.space ≠ k) → c'.routes.get? k = c.routes.get? k :=
  Cluster.Rewritten.others h.reweighs

theorem named (h : Weighed rollout settings key desired destinations c c' ts) :
    ∀ t ∈ ts, t.name ≠ "" := fun _ ht =>
  let ⟨_, _, _, _, hmade, _⟩ := Cluster.Rewritten.written_of_mem h.reweighs ht
  hmade.1

/-- Every target is weighed. -/
theorem weighed (h : Weighed rollout settings key desired destinations c c' ts) :
    ∀ t ∈ ts, ∃ r z v, c.routes.get? (t.keyIn key.space) = some r ∧
      c.weighed key rollout settings desired destinations t r = .ok z ∧
      c'.routes.get? (t.keyIn key.space) = some (z.withVersion v) := by
  intro t ht
  obtain ⟨r, z, v, hr, ⟨-, skip, hskip, hweigh⟩, hstored⟩ :=
    Cluster.Rewritten.written_of_mem h.reweighs ht
  exact ⟨r, z, v, hr, Cluster.weighed_of_reweigh hskip hweigh, hstored⟩

end Weighed

end

namespace Router

variable {rollout : Rollout} {plan : Plan} {desired : Int} {destinations : List WeightDestination}
  {c : Cluster}

/-! ### Setting weights -/

/-- A target that is stored and can be weighed is weighed. -/
theorem runOn_setWeightOf_undisturbed {t : Target} {r z : Route} (hc : c.WellFormed)
    (hname : t.name ≠ "") (hr : c.routes.get? (t.keyIn plan.space) = some r)
    (hz : c.weighed plan.key rollout plan.settings desired destinations t r = .ok z) :
    (setWeightOf rollout plan (c.documents.get? plan.key) desired destinations t).runOn
      c.undisturbed = (.ok (), (c.putRoute (t.keyIn plan.space) z).undisturbed) := by
  obtain ⟨m, hm, hweigh⟩ := Cluster.weighed_eq_ok_iff.1 hz
  have hskip : injectedRules (c.documents.get? plan.key) t = .ok (m.indices t.name) := by
    rw [injectedRules_get?, hm]
    rfl
  have hget := runOn_getRoute_undisturbed (k := t.keyIn plan.space) hname hr
  simp only [Target.keyIn] at hget
  have hshape := sameShape_of_reweigh hweigh
  have hat := (hc.route_isAt hr).of_sameShape hshape
  have hput : (Call.ofStore (Store.updateRoute plan.space z)).runOn c.undisturbed = _ :=
    Call.runOn_request (.updateRoute plan.space z) _
  have hanswer := Cluster.respond_updateRoute hat hname hr hshape.version
  simp only [Target.keyIn] at hanswer
  rw [respond_undisturbed, hanswer] at hput
  unfold setWeightOf
  rw [Call.runOn_bind_ok hget, hskip, Call.runOn_bind_ok (Call.runOn_ofExcept _ _), hweigh,
    Call.runOn_bind_ok (Call.runOn_ofExcept _ _), Call.runOn_bind_ok hput]
  rfl

theorem weighed_of_forM (hc : c.WellFormed) {ts : List Target}
    (hnodup : (ts.map Target.identity).Nodup) {s : FaultyCluster}
    (h : (ts.forM (setWeightOf rollout plan (c.documents.get? plan.key) desired
      destinations)).runOn c.undisturbed = (.ok (), s)) :
    ∃ c', s = c'.undisturbed ∧
      Weighed rollout plan.settings plan.key desired destinations c c' ts := by
  obtain ⟨c', rfl⟩ := Call.undisturbed_of_runOn h
  have hreshaped := reshapes_forM rollout plan (c.documents.get? plan.key) desired destinations ts
    c.undisturbed hc
  obtain ⟨done, rest, hsplit, hreweighs, hok⟩ := reweighs_forM rollout plan
    (c.documents.get? plan.key) desired destinations (s := c.undisturbed) hc ts hnodup
  rw [h] at hreshaped hreweighs hok
  obtain rfl := hok.1 rfl
  rw [List.append_nil] at hsplit
  exact ⟨c', rfl, hreshaped.wellFormed, hsplit ▸ hreweighs⟩

theorem ok_forM (hc : c.WellFormed) {ts : List Target} (hnodup : (ts.map Target.identity).Nodup)
    (hts : ∀ t ∈ ts, t.name ≠ "" ∧ ∃ r z, c.routes.get? (t.keyIn plan.space) = some r ∧
      c.weighed plan.key rollout plan.settings desired destinations t r = .ok z) :
    ∃ s, (ts.forM (setWeightOf rollout plan (c.documents.get? plan.key) desired
      destinations)).runOn c.undisturbed = (.ok (), s) := by
  induction ts generalizing c with
  | nil => exact ⟨_, rfl⟩
  | cons t ts ih =>
    rw [List.map_cons, List.nodup_cons] at hnodup
    obtain ⟨hname, r, z, hr, hz⟩ := hts t (List.mem_cons_self ..)
    obtain ⟨_, -, hweigh⟩ := Cluster.weighed_eq_ok_iff.1 hz
    have hc₁ := hc.putRoute ((hc.route_isAt hr).of_sameShape (sameShape_of_reweigh hweigh))
    rw [List.forM_eq_forM, List.forM_cons,
      Call.runOn_bind_ok (runOn_setWeightOf_undisturbed hc hname hr hz)]
    refine ih hc₁ hnodup.2 fun t' ht' => ?_
    obtain ⟨hname', r', z', hr', hz'⟩ := hts t' (List.mem_cons_of_mem _ ht')
    have hne : t'.keyIn plan.space ≠ t.keyIn plan.space :=
      Target.keyIn_ne fun e => hnodup.1 (e ▸ List.mem_map_of_mem ht')
    exact ⟨hname', r', z', (Cluster.get?_putRoute_of_ne hne _).trans hr', hz'⟩

theorem runOn_getDocument_of_resolved (h : plan.Resolved rollout) (c : Cluster) :
    (Call.ofStore (Store.getDocument plan.space plan.document)).runOn c.undisturbed =
      (.ok (c.documents.get? plan.key), c.undisturbed) :=
  runOn_getDocument_undisturbed (k := plan.key) h.document_ne

/-- Setting weights succeeds only with a percentage, and if the request is resolved. -/
theorem resolved_of_setWeight {x : Option Bool} {s : FaultyCluster}
    (h : (perform rollout (.setWeight desired destinations)).runOn c.undisturbed = (.ok x, s)) :
    (0 ≤ desired ∧ desired ≤ 100) ∧
      ∃ plan, (resolve rollout).runOn c.undisturbed = (.ok plan, c.undisturbed) := by
  obtain ⟨_, s₁, hset, -⟩ := Call.runOn_bind_eq_ok.1 h
  obtain ⟨_, s₂, hcheck, hresolves⟩ := Call.runOn_bind_eq_ok.1 hset
  obtain ⟨hcheck, rfl⟩ := Prod.mk.inj hcheck
  obtain ⟨plan, s₃, hplan, -⟩ := Call.runOn_bind_eq_ok.1 hresolves
  have hsame := snd_resolve_undisturbed rollout c
  rw [hplan] at hsame
  refine ⟨?_, plan, hplan.trans (congrArg (Prod.mk _) hsame)⟩
  by_contra hrange
  rw [checkWeight, if_neg hrange] at hcheck
  cases hcheck

/-- Setting weights that succeeds has weighed every target. -/
theorem weighed_of_setWeight (hc : c.WellFormed)
    (hplan : (resolve rollout).runOn c.undisturbed = (.ok plan, c.undisturbed))
    {x : Option Bool} {s : FaultyCluster}
    (h : (perform rollout (.setWeight desired destinations)).runOn c.undisturbed = (.ok x, s)) :
    ∃ c', s = c'.undisturbed ∧
      Weighed rollout plan.settings plan.key desired destinations c c' plan.targets := by
  have hresolved := resolved_of_runOn hplan
  obtain ⟨_, s₁, hset, hpure⟩ := Call.runOn_bind_eq_ok.1 h
  cases hpure
  obtain ⟨_, s₂, hcheck, hresolves⟩ := Call.runOn_bind_eq_ok.1 hset
  obtain rfl := (Prod.mk.inj hcheck).2
  obtain ⟨_, s₃, hplan', hreads⟩ := Call.runOn_bind_eq_ok.1 hresolves
  cases hplan.symm.trans hplan'
  rw [Call.runOn_bind_ok (runOn_getDocument_of_resolved hresolved c)] at hreads
  exact weighed_of_forM hc hresolved.nodup hreads

/-- Setting weights succeeds if every target is stored and can be weighed. -/
theorem ok_setWeight (hc : c.WellFormed)
    (hplan : (resolve rollout).runOn c.undisturbed = (.ok plan, c.undisturbed))
    (hdesired : checkWeight desired = .ok ())
    (hts : ∀ t ∈ plan.targets, t.name ≠ "" ∧ ∃ r z,
      c.routes.get? (t.keyIn plan.space) = some r ∧
        c.weighed plan.key rollout plan.settings desired destinations t r = .ok z) :
    ∃ s, (perform rollout (.setWeight desired destinations)).runOn c.undisturbed =
      (.ok none, s) := by
  have hresolved := resolved_of_runOn hplan
  obtain ⟨s, hforM⟩ := ok_forM hc hresolved.nodup hts
  refine ⟨s, Call.runOn_bind_eq_ok.2 ⟨(), s, ?_, rfl⟩⟩
  unfold setWeight
  rw [hdesired, Call.runOn_bind_ok (Call.runOn_ofExcept _ _), Call.runOn_bind_ok hplan,
    Call.runOn_bind_ok (runOn_getDocument_of_resolved hresolved c)]
  exact hforM

/-! ### Changing header routes -/

variable {operation : Operation} {change : HeaderChange}

/-- A change of header routes that succeeds has changed every target. -/
theorem progress_of_perform (hop : operation.headerChange? rollout = some (.ok change))
    (hc : c.WellFormed) (hplan : (resolve rollout).runOn c.undisturbed = (.ok plan, c.undisturbed))
    {x : Option Bool} {s : FaultyCluster}
    (h : (perform rollout operation).runOn c.undisturbed = (.ok x, s)) :
    ∃ c', s = c'.undisturbed ∧
      Progress rollout change plan.key c c' none plan.headerTargets none [] := by
  have hresolved := resolved_of_runOn hplan
  obtain ⟨c', rfl⟩ := Call.undisturbed_of_runOn h
  rw [runOn_perform hop hplan] at h
  obtain ⟨done, failing, rest, hsplit, hprogress, -⟩ :=
    progress_changeTargets (s := c.undisturbed) hc rollout change (nodup_headerTargets hresolved)
  rcases hrun : (changeTargets rollout plan change).runOn c.undisturbed with ⟨y, s'⟩
  rw [hrun] at h hprogress
  cases y with
  | error e => cases h
  | ok _ =>
    obtain rfl := (Prod.mk.inj h).2
    obtain ⟨rfl, rfl⟩ := hprogress.complete rfl
    simp only [Option.toList_none, List.append_nil] at hsplit
    exact ⟨c', rfl, hsplit ▸ hprogress⟩

theorem ok_foldlM (hc : c.WellFormed) (hname : plan.document ≠ "") {d d' document : Document}
    {ts : List Target} (hchain : Chain rollout change (fun t _ route _ => t.name ≠ "" ∧
      c.routes.get? (t.keyIn plan.space) = some route) d ts d')
    (hnodup : (ts.map Target.identity).Nodup) (hd : c.documents.get? plan.key = some document)
    (hsame : document.withVersion none = d) :
    ∃ document', ∃ c' : Cluster, (ts.foldlM (changeTarget rollout plan change) document).runOn c.undisturbed =
      (.ok document', c'.undisturbed) ∧ c'.documents.get? plan.key = some document' := by
  induction ts generalizing c d document with
  | nil => exact ⟨document, c, rfl, hd⟩
  | cons t ts ih =>
    rw [List.map_cons, List.nodup_cons] at hnodup
    subst hsame
    cases hchain with
    | @cons _ _ _ _ route registry x hload hon hP hrest =>
      obtain ⟨htarget, hr⟩ := hP
      rw [Cluster.load_withVersion] at hload
      obtain ⟨d₁, hok⟩ := (@ok_changeTarget_iff c rollout plan change plan.key document hc rfl hname hd t).2
        ⟨htarget, route, registry, x, hr, hload, hon⟩
      have houtcome : Outcome rollout change plan.key document c t _ _ :=
        outcome_changeTarget (s := c.undisturbed) hc rfl hd t
      rcases hrun : (changeTarget rollout plan change document t).runOn c.undisturbed with ⟨y, s⟩
      rw [hrun] at hok houtcome
      cases hok
      obtain ⟨c₁, rfl⟩ := Call.undisturbed_of_runOn hrun
      obtain ⟨route', registry', x', hchanged⟩ := changed_of_outcome hc hd houtcome
      cases hr.symm.trans hchanged.found
      have hloaded := hchanged.loaded
      rw [Cluster.document_of_get? hd, Cluster.load_withVersion] at hloaded
      cases hload.symm.trans hloaded
      cases hon.symm.trans hchanged.on
      rw [List.foldlM_cons, Call.runOn_bind_ok hrun]
      refine ih hchanged.wellFormed (hrest.imp fun t' ht' _ _ _ hP => ⟨hP.1, ?_⟩) hnodup.2
        hchanged.stored ?_
      · have hne : t'.keyIn plan.space ≠ t.keyIn plan.space :=
          Target.keyIn_ne fun e => hnodup.1 (e ▸ List.mem_map_of_mem ht')
        exact (hchanged.routes _ hne).trans hP.2
      · rw [← Cluster.document_of_get? hchanged.stored, hchanged.recorded,
          Cluster.document_of_get? hd]

/-- A change of header routes succeeds if it is known what it makes of the targets. -/
theorem ok_perform (hop : operation.headerChange? rollout = some (.ok change))
    (hc : c.WellFormed) (hplan : (resolve rollout).runOn c.undisturbed = (.ok plan, c.undisturbed))
    {d' : Document} (hchain : Chain rollout change (fun t _ route _ => t.name ≠ "" ∧
      c.routes.get? (t.keyIn plan.space) = some route) (c.document plan.key) plan.headerTargets d') :
    ∃ c' : Cluster,
      (perform rollout operation).runOn c.undisturbed = (.ok none, c'.undisturbed) ∧
      (c'.documents.get? plan.key).isSome := by
  have hresolved := resolved_of_runOn hplan
  have hname := hresolved.document_ne
  obtain ⟨d₁, c₁, hrun, hwell, hget, hroutes, hdocument⟩ :=
    runOn_getOrCreateDocument_undisturbed hc hname
  have hsame : d₁.withVersion none = c.document plan.key :=
    (Cluster.document_of_get? hget).symm.trans hdocument
  rw [← hroutes] at hchain
  obtain ⟨document, c', hfold, hstored⟩ := ok_foldlM hwell hname hchain
    (nodup_headerTargets hresolved) hget hsame
  refine ⟨c', ?_, by rw [hstored]; rfl⟩
  have htargets : (changeTargets rollout plan change).runOn c.undisturbed =
      (.ok (), c'.undisturbed) := by
    unfold changeTargets
    rw [Call.runOn_bind_ok (Call.runOn_acquire ..), Call.runOn_bind_ok hrun]
    exact (Call.runOn_bind_ok hfold _).trans rfl
  rw [runOn_perform hop hplan, htargets]
  rfl

end Router

end CanaryRouting
