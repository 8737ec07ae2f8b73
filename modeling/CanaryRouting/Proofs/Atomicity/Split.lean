import CanaryRouting.Proofs.Atomicity.Carried

/-!
# How far an operation came

Whichever requests of an operation on header routes fail, its targets split into those that carry
the change, at most one at which it stopped, and those that it did not touch (`split_of_perform`).
At the one at which it stopped, route and registry document are as they were before, or the error
says that they are not.
-/

namespace CanaryRouting

open Router

/-- The error of a result, if it is one. -/
def failureOf {α : Type} : Except RoutingError α → Option RoutingError
  | .ok _ => none
  | .error e => some e

theorem failureOf_map {α β : Type} (f : α → β) (x : Except RoutingError α) :
    failureOf (x.map f) = failureOf x := by
  cases x <;> rfl

/-- The state of the target at which an operation stopped with an error. The document is the one
that the target was reached with. -/
structure Stopped (rollout : Rollout) (change : HeaderChange) (key : DocumentKey) (c c' : Cluster)
    (t : Target) (e : RoutingError) : Prop where
  /-- Unless the error says otherwise, the route is as before, apart from its version. -/
  restored : e.isInconsistent = false →
    (c'.routes.get? (t.keyIn key.space)).map Route.unversioned =
      (c.routes.get? (t.keyIn key.space)).map Route.unversioned
  /-- If the error says that the change could not be undone, the route carries the change, and the
  document still has the managed routes that the change was made from. -/
  left : e.isInconsistent = true → ∃ route registry routeChange,
    c.routes.get? (t.keyIn key.space) = some route ∧
    c'.registry key t.kind = .ok registry ∧
    change.on rollout t registry route = .ok (some routeChange) ∧
    c'.Holds (t.keyIn key.space) routeChange.after

/-- How far an operation came. -/
structure Progress (rollout : Rollout) (change : HeaderChange) (key : DocumentKey) (c c' : Cluster)
    (failure : Option RoutingError) (done : List Target) (failing : Option Target)
    (rest : List Target) : Prop where
  /-- The cluster is well formed. -/
  wellFormed : c'.WellFormed
  /-- The first targets carry the change. -/
  carried : Carried rollout change key.space c c' (c.document key) done (c'.document key)
  /-- At the target that failed there was an error. -/
  stopped : ∀ t ∈ failing, ∃ e, failure = some e ∧ Stopped rollout change key c c' t e
  /-- Other routes are not touched. -/
  routes : ∀ k, (∀ t ∈ done ++ failing.toList, t.keyIn key.space ≠ k) →
    c'.routes.get? k = c.routes.get? k
  /-- Other documents are not touched. -/
  documents : ∀ k, k ≠ key → c'.documents.get? k = c.documents.get? k
  /-- Without an error all targets carry the change. -/
  complete : failure = none → failing = none ∧ rest = []

/-- A target has been changed: the route is what the change makes of it, and the document records
it. -/
structure Changed (rollout : Rollout) (change : HeaderChange) (key : DocumentKey) (c c' : Cluster)
    (document : Document) (t : Target) (route : Route) (registry : ManagedRoutes)
    (x : Option RouteChange) : Prop where
  /-- The cluster is well formed. -/
  wellFormed : c'.WellFormed
  /-- The route was there. -/
  found : c.routes.get? (t.keyIn key.space) = some route
  /-- The managed routes could be read. -/
  loaded : ManagedRoutes.load (c.document key) t.kind.registryKey = .ok registry
  /-- This is what the change makes of them. -/
  on : change.on rollout t registry route = .ok x
  /-- The route is as it is to be. -/
  holds : c'.Holds (t.keyIn key.space) (routeAfter route x)
  /-- So is the document. -/
  recorded : c'.document key = documentAfter (c.document key) t.kind x
  /-- This is the document as it is stored. -/
  stored : c'.documents.get? key = some document
  /-- Other routes are not touched. -/
  routes : ∀ k, k ≠ t.keyIn key.space → c'.routes.get? k = c.routes.get? k
  /-- Other documents are not touched. -/
  documents : ∀ k, k ≠ key → c'.documents.get? k = c.documents.get? k

/-- A target without an error has been changed. -/
theorem changed_of_outcome {rollout : Rollout} {change : HeaderChange} {key : DocumentKey}
    {c c' : Cluster} {document document' : Document} {t : Target} (hc : c.WellFormed)
    (hd : c.documents.get? key = some document)
    (h : Outcome rollout change key document c t (.ok document') c') :
    ∃ route registry x, Changed rollout change key c c' document' t route registry x := by
  have hload : ∀ {registry}, ManagedRoutes.load document t.kind.registryKey = .ok registry →
      ManagedRoutes.load (c.document key) t.kind.registryKey = .ok registry := by
    intro registry h
    rwa [Cluster.document_of_get? hd, Cluster.load_withVersion]
  cases h with
  | @unchanged route registry hr hregistry hon =>
    exact ⟨route, registry, none, hc, hr, hload hregistry, hon, ⟨route, hr, rfl⟩, rfl, hd,
      fun _ _ => rfl, fun _ _ => rfl⟩
  | @tried route registry routeChange _ _ hr hregistry hon hcommitted =>
    obtain ⟨hbefore, -, hproper⟩ := proper_of_on hon key.space
    have hput := hc.putRoute (hproper.after_isAt (hbefore ▸ hc.route_isAt hr))
    have hforward := hc.document_isAt hd
    cases hcommitted with
    | both =>
      refine ⟨route, registry, some routeChange, hput.putDocument ⟨hforward.space, hforward.name⟩,
        hr, hload hregistry, hon, ⟨_, Cluster.get?_putRoute_self _ _, rfl⟩, ?_,
        Cluster.get?_putDocument_self _ _, fun k hk => Cluster.get?_putRoute_of_ne hk _,
        fun k hk => Cluster.get?_putDocument_of_ne hk _⟩
      rw [Cluster.document_of_get? hd]
      exact Cluster.document_putDocument_self _ _

section Targets

variable {rollout : Rollout} {change : HeaderChange} {key : DocumentKey} {c c₁ c' : Cluster}
  {failure : Option RoutingError} {done rest : List Target} {failing : Option Target}

/-- What has become of the routes of one target and of the document is all that matters. -/
theorem Stopped.congr {t : Target} {e : RoutingError} (h : Stopped rollout change key c₁ c' t e)
    (hroute : c₁.routes.get? (t.keyIn key.space) = c.routes.get? (t.keyIn key.space)) :
    Stopped rollout change key c c' t e where
  restored he := hroute ▸ h.restored he
  left he := hroute ▸ h.left he

/-- Before the first target. -/
theorem Progress.congr (h : Progress rollout change key c₁ c' failure done failing rest)
    (hroutes : c₁.routes = c.routes) (hdocument : c₁.document key = c.document key)
    (hdocuments : ∀ k, k ≠ key → c₁.documents.get? k = c.documents.get? k) :
    Progress rollout change key c c' failure done failing rest where
  wellFormed := h.wellFormed
  carried := hdocument ▸ h.carried.congr fun t _ => by rw [hroutes]
  stopped t ht :=
    let ⟨e, he, hstopped⟩ := h.stopped t ht
    ⟨e, he, hstopped.congr (by rw [hroutes])⟩
  routes k hk := hroutes ▸ h.routes k hk
  documents k hk := (h.documents k hk).trans (hdocuments k hk)
  complete := h.complete

/-- A target that has been changed comes first. -/
theorem Progress.cons {document : Document} {t : Target} {route : Route} {registry : ManagedRoutes}
    {x : Option RouteChange} (h : Progress rollout change key c₁ c' failure done failing rest)
    (hchanged : Changed rollout change key c c₁ document t route registry x)
    (hnew : ∀ t' ∈ done ++ failing.toList, t'.keyIn key.space ≠ t.keyIn key.space) :
    Progress rollout change key c c' failure (t :: done) failing rest where
  wellFormed := h.wellFormed
  carried := by
    refine .cons hchanged.found hchanged.loaded hchanged.on ?_ (hchanged.recorded ▸
      h.carried.congr fun t' ht' => hchanged.routes _ (hnew t' (List.mem_append_left _ ht')))
    obtain ⟨stored, hstored, heq⟩ := hchanged.holds
    exact ⟨stored, (h.routes _ hnew).trans hstored, heq⟩
  stopped t' ht' :=
    let ⟨e, he, hstopped⟩ := h.stopped t' ht'
    ⟨e, he, hstopped.congr
      (hchanged.routes _ (hnew t' (List.mem_append_right _ (by simpa using ht'))))⟩
  routes k hk := by
    rw [h.routes k fun t' ht' => hk t' (List.mem_cons_of_mem _ ht')]
    exact hchanged.routes k (hk t (List.mem_cons_self ..)).symm
  documents k hk := (h.documents k hk).trans (hchanged.documents k hk)
  complete := h.complete

/-- A target at which the operation stops comes first. -/
theorem Progress.stop {t : Target} {e : RoutingError} (hc : c'.WellFormed)
    (hstopped : Stopped rollout change key c c' t e)
    (hroutes : ∀ k, k ≠ t.keyIn key.space → c'.routes.get? k = c.routes.get? k)
    (hdocuments : c'.documents = c.documents) :
    Progress rollout change key c c' (some e) [] (some t) rest where
  wellFormed := hc
  carried := by
    have hdocument : c'.document key = c.document key := by
      rw [Cluster.document, Cluster.document, hdocuments]
    exact hdocument ▸ .nil
  stopped t' ht' := by
    cases ht'
    exact ⟨e, rfl, hstopped⟩
  routes k hk := hroutes k (hk t (by simp)).symm
  documents k _ := by rw [hdocuments]
  complete h := nomatch h

/-- Nothing was to be done, or nothing was done. -/
theorem Progress.unstarted (hc : c.WellFormed) (h : failure = none → rest = []) :
    Progress rollout change key c c failure [] none rest where
  wellFormed := hc
  carried := .nil
  stopped _ ht := nomatch ht
  routes _ _ := rfl
  documents _ _ := rfl
  complete hf := ⟨rfl, h hf⟩

end Targets

/-! ### The targets one after the other -/

/-- A commit that failed stops at its target. -/
theorem stopped_of_committed {rollout : Rollout} {change : HeaderChange} {key : DocumentKey}
    {c c' : Cluster} {document : Document} {t : Target} {route : Route} {registry : ManagedRoutes}
    {routeChange : RouteChange} {e : RoutingError} (hc : c.WellFormed)
    (hd : c.documents.get? key = some document)
    (hr : c.routes.get? (t.keyIn key.space) = some route)
    (hload : ManagedRoutes.load document t.kind.registryKey = .ok registry)
    (hon : change.on rollout t registry route = .ok (some routeChange))
    (h : Committed (t.keyIn key.space) key routeChange document c (.error e) c') :
    c'.WellFormed ∧ Stopped rollout change key c c' t e ∧ c'.documents = c.documents ∧
      ∀ k, k ≠ t.keyIn key.space → c'.routes.get? k = c.routes.get? k := by
  obtain ⟨hbefore, -, hproper⟩ := proper_of_on hon key.space
  have hat := hc.route_isAt hr
  have hput := hc.putRoute (hproper.after_isAt (hbefore ▸ hat))
  cases h with
  | neither he => exact ⟨hc, ⟨fun _ => rfl, fun h => by simp [he] at h⟩, rfl, fun _ _ => rfl⟩
  | undone he =>
    refine ⟨hput.putRoute (hbefore ▸ hat.withVersion _), ⟨fun _ => ?_, fun h => by simp [he] at h⟩, rfl, fun k hk => ?_⟩
    · rw [Cluster.get?_putRoute_self, hr, hbefore]
      rfl
    · rw [Cluster.get?_putRoute_of_ne hk, Cluster.get?_putRoute_of_ne hk]
  | left he =>
    refine ⟨hput, ⟨fun h => by simp [he] at h, fun _ => ⟨route, registry, routeChange, hr, ?_, hon, ?_⟩⟩,
      rfl, fun k hk => Cluster.get?_putRoute_of_ne hk _⟩
    · rw [Cluster.registry_putRoute, Cluster.registry_of_get? hd]
      exact hload
    · exact ⟨_, Cluster.get?_putRoute_self _ _, rfl⟩

/-- The targets split, and the first ones carry the change; with an error, there is one at which it
came. -/
def Progresses (rollout : Rollout) (change : HeaderChange) (key : DocumentKey) (c : Cluster)
    (result : Except RoutingError Document × FaultyCluster) (targets : List Target) : Prop :=
  ∃ done failing rest, targets = done ++ failing.toList ++ rest ∧
    Progress rollout change key c result.2.cluster (failureOf result.1) done failing rest ∧
    (failureOf result.1 ≠ none → failing ≠ none)

/-- A target that has been changed comes before those that are still to be changed. -/
theorem Progresses.cons {rollout : Rollout} {change : HeaderChange} {key : DocumentKey}
    {c c₁ : Cluster} {result : Except RoutingError Document × FaultyCluster} {t : Target}
    {ts : List Target} {document : Document} {route : Route} {registry : ManagedRoutes}
    {x : Option RouteChange} (h : Progresses rollout change key c₁ result ts)
    (hchanged : Changed rollout change key c c₁ document t route registry x)
    (hnew : t.identity ∉ ts.map Target.identity) :
    Progresses rollout change key c result (t :: ts) := by
  obtain ⟨done, failing, rest, hts, hprogress, hfails⟩ := h
  refine ⟨t :: done, failing, rest, by rw [hts]; rfl, ?_, hfails⟩
  refine hprogress.cons hchanged fun t' ht' he => hnew ?_
  rw [← Target.keyIn_injective he, hts]
  exact List.mem_map_of_mem (List.mem_append_left _ ht')

theorem progresses_foldlM {s : FaultyCluster} {plan : Plan} (rollout : Rollout)
    (change : HeaderChange) {key : DocumentKey} {document : Document} (hc : s.cluster.WellFormed)
    (hspace : plan.space = key.space) (hd : s.cluster.documents.get? key = some document)
    (ts : List Target) (hnodup : (ts.map Target.identity).Nodup) :
    Progresses rollout change key s.cluster
      ((ts.foldlM (changeTarget rollout plan change) document).runOn s) ts := by
  induction ts generalizing s document with
  | nil => exact ⟨[], none, [], rfl, .unstarted hc fun _ => rfl, fun h => (h rfl).elim⟩
  | cons t ts ih =>
    rw [List.map_cons, List.nodup_cons] at hnodup
    obtain ⟨hnew, hnodup⟩ := hnodup
    rw [List.foldlM_cons]
    have houtcome : Outcome rollout change key document s.cluster t _ _ :=
      outcome_changeTarget hc hspace hd t
    rcases hrun : (changeTarget rollout plan change document t).runOn s with ⟨x, c₁, failures⟩
    rw [hrun] at houtcome
    cases x with
    | ok document₁ =>
      obtain ⟨route, registry, x, hchanged⟩ := changed_of_outcome hc hd houtcome
      rw [Call.runOn_bind_ok hrun]
      exact (ih (s := ⟨c₁, failures⟩) hchanged.wellFormed hchanged.stored hnodup).cons hchanged hnew
    | error e =>
      rw [Call.runOn_bind_error hrun]
      cases houtcome with
      | refused he =>
        exact ⟨[], some t, ts, rfl, .stop hc ⟨fun _ => rfl, fun h => by simp [he] at h⟩
          (fun _ _ => rfl) rfl, fun _ => by simp⟩
      | tried hr hload hon hcommitted =>
        obtain ⟨hc₁, hstopped, hdocuments, hroutes⟩ :=
          stopped_of_committed hc hd hr hload hon hcommitted
        exact ⟨[], some t, ts, rfl, .stop hc₁ hstopped hroutes hdocuments, fun _ => by simp⟩

/-! ### Operations -/

/-- The document is there already, or is created, or there is an error and nothing has changed. -/
theorem getOrCreateDocument_cases (s : FaultyCluster) (plan : Plan) :
    (∃ e s', (getOrCreateDocument plan).runOn s = (.error e, s') ∧ s'.cluster = s.cluster) ∨
    (∃ d s', (getOrCreateDocument plan).runOn s = (.ok d, s') ∧
      s.cluster.documents.get? plan.key = some d ∧ s'.cluster = s.cluster) ∨
    ∃ s', (getOrCreateDocument plan).runOn s =
        (.ok ((Cluster.created plan.key).withVersion s.cluster.fresh), s') ∧
      s.cluster.documents.get? plan.key = none ∧
      s'.cluster = s.cluster.putDocument plan.key (Cluster.created plan.key) := by
  unfold getOrCreateDocument
  rcases runOn_getDocument s plan.key with ⟨e, he⟩ | ⟨d?, hd, he⟩ <;> simp only [Plan.key] at he
  · exact .inl ⟨_, _, Call.runOn_bind_error he _, rfl⟩
  rw [Call.runOn_bind_ok he]
  cases d? with
  | some d => exact .inr (.inl ⟨d, _, rfl, hd d rfl, rfl⟩)
  | none =>
    have hrun : (Call.ofStore (Store.createDocument plan.space plan.document)).runOn
        ⟨s.cluster, s.failures.tail⟩ = _ :=
      Call.runOn_request (.createDocument plan.space plan.document) ⟨s.cluster, s.failures.tail⟩
    simp only [hrun]
    rcases FaultyCluster.respond_cases ⟨s.cluster, s.failures.tail⟩
      (.createDocument plan.space plan.document) with ⟨e, he', -⟩ | he' <;> rw [he']
    · exact .inl ⟨_, _, rfl, rfl⟩
    · rcases Cluster.respond_createDocument_cases s.cluster plan.key with
        ⟨e, hcreate⟩ | ⟨hnone, hcreate⟩ <;> simp only [Plan.key] at hcreate <;> simp only [hcreate]
      · exact .inl ⟨_, _, rfl, rfl⟩
      · exact .inr (.inr ⟨_, rfl, hnone, rfl⟩)

/-- After that the document is stored, and reads as it did before. -/
theorem runOn_getOrCreateDocument {s : FaultyCluster} (hc : s.cluster.WellFormed) (plan : Plan) :
    (∃ e, ((getOrCreateDocument plan).runOn s).1 = .error e ∧
      ((getOrCreateDocument plan).runOn s).2.cluster = s.cluster) ∨
    ∃ d s', (getOrCreateDocument plan).runOn s = (.ok d, s') ∧ s'.cluster.WellFormed ∧
      s'.cluster.documents.get? ⟨plan.space, plan.document⟩ = some d ∧
      s'.cluster.routes = s.cluster.routes ∧
      s'.cluster.document ⟨plan.space, plan.document⟩ =
        s.cluster.document ⟨plan.space, plan.document⟩ ∧
      ∀ k, k ≠ ⟨plan.space, plan.document⟩ →
        s'.cluster.documents.get? k = s.cluster.documents.get? k := by
  rcases getOrCreateDocument_cases s plan with
    ⟨e, s', he, hsame⟩ | ⟨d, s', hd, hget, hsame⟩ | ⟨s', hd, hnone, hcreated⟩
  · exact .inl ⟨e, by rw [he], by rw [he, hsame]⟩
  · rw [← hsame] at hc hget ⊢
    exact .inr ⟨d, s', hd, hc, hget, rfl, rfl, fun _ _ => rfl⟩
  · refine .inr ⟨_, s', hd, ?_⟩
    rw [hcreated]
    refine ⟨hc.putDocument (Cluster.created_isAt _), Cluster.get?_putDocument_self plan.key _, rfl,
      ?_, fun k hk => Cluster.get?_putDocument_of_ne hk _⟩
    rw [Plan.key] at hnone ⊢
    rw [Cluster.document_putDocument_self, Cluster.document, hnone]
    rfl

/-- The targets that are changed split into those that carry the change, one at which it stopped,
and those that were not reached. -/
theorem progress_changeTargets {s : FaultyCluster} {plan : Plan} (hs : s.cluster.WellFormed)
    (rollout : Rollout) (change : HeaderChange)
    (hnodup : (plan.headerTargets.map Target.identity).Nodup) :
    ∃ done failing rest, plan.headerTargets = done ++ failing.toList ++ rest ∧
      Progress rollout change ⟨plan.space, plan.document⟩ s.cluster
        ((changeTargets rollout plan change).runOn s).2.cluster
        (failureOf ((changeTargets rollout plan change).runOn s).1) done failing rest ∧
      (failureOf ((changeTargets rollout plan change).runOn s).1 ≠ none → failing = none →
        done = []) := by
  unfold changeTargets
  rw [Call.runOn_bind_ok (Call.runOn_acquire ..)]
  rcases runOn_getOrCreateDocument hs plan with
    ⟨e, he, hsame⟩ | ⟨d, s', hd, hs', hget, hroutes, hdocument, hdocuments⟩
  · rcases hcreate : (getOrCreateDocument plan).runOn s with ⟨x, s'⟩
    rw [hcreate] at he hsame
    simp only at he hsame
    subst he
    rw [Call.runOn_bind_error hcreate, hsame]
    exact ⟨[], none, plan.headerTargets, rfl, .unstarted hs fun h => (nomatch h), fun _ _ => rfl⟩
  · rw [Call.runOn_bind_ok hd]
    obtain ⟨done, failing, rest, hsplit, hprogress, hfails⟩ :=
      progresses_foldlM rollout change hs' rfl hget plan.headerTargets hnodup
    refine ⟨done, failing, rest, hsplit, ?_⟩
    rcases hfold : (plan.headerTargets.foldlM (changeTarget rollout plan change) d).runOn s' with
      ⟨x, s₂⟩
    rw [hfold] at hprogress hfails
    have hprogress := hprogress.congr hroutes hdocument hdocuments
    cases x with
    | ok document =>
      rw [Call.runOn_bind_ok hfold]
      exact ⟨hprogress, fun h => (h rfl).elim⟩
    | error e =>
      rw [Call.runOn_bind_error hfold]
      exact ⟨hprogress, fun h hnone => (hfails h hnone).elim⟩

/-- The target carries the change: its route is what the change makes of the earlier one, and so
are the positions recorded for it. -/
def Carries (rollout : Rollout) (change : HeaderChange) (key : DocumentKey) (c c' : Cluster)
    (t : Target) : Prop :=
  ∃ route registry x, c.routes.get? (t.keyIn key.space) = some route ∧
    change.on rollout t registry route = .ok x ∧
    c'.Holds (t.keyIn key.space) (routeAfter route x) ∧
    (∀ m, c.registry key t.kind = .ok m → registry.positions t.name = m.positions t.name) ∧
    ∀ m', c'.registry key t.kind = .ok m' →
      m'.positions t.name = (registryAfter registry x).positions t.name

/-- How the targets of an operation split: into those that carry the change, at most one at which
the operation stopped, and those that it did not touch. -/
structure Split (rollout : Rollout) (change : HeaderChange) (key : DocumentKey) (c c' : Cluster)
    (failure : Option RoutingError) (targets done : List Target) (failing : Option Target)
    (rest : List Target) : Prop
    extends Progress rollout change key c c' failure done failing rest where
  /-- The targets are worked through in order. -/
  split : targets = done ++ failing.toList ++ rest
  /-- The first ones carry the change. -/
  carries : ∀ t ∈ done, Carries rollout change key c c' t
  /-- The routes of the last ones are not touched. -/
  untouched : ∀ t ∈ rest, c'.routes.get? (t.keyIn key.space) = c.routes.get? (t.keyIn key.space)
  /-- Nor are the positions recorded for them, or for the one that failed. -/
  positions : ∀ t ∈ failing.toList ++ rest, ∀ m m', c.registry key t.kind = .ok m →
    c'.registry key t.kind = .ok m' → m'.positions t.name = m.positions t.name
  /-- If an error comes before any target was tried, none carries the change. -/
  early : failure ≠ none → failing = none → done = []

theorem Progress.split {rollout : Rollout} {change : HeaderChange} {key : DocumentKey}
    {c c' : Cluster} {failure : Option RoutingError} {targets done rest : List Target}
    {failing : Option Target} (h : Progress rollout change key c c' failure done failing rest)
    (hsplit : targets = done ++ failing.toList ++ rest)
    (hnodup : (targets.map Target.identity).Nodup)
    (hearly : failure ≠ none → failing = none → done = []) :
    Split rollout change key c c' failure targets done failing rest := by
  rw [hsplit, List.append_assoc, List.map_append] at hnodup
  obtain ⟨hdone, hothers, hdisjoint⟩ := List.nodup_append.1 hnodup
  refine { h with
    split := hsplit
    carries := fun t ht => ?_
    untouched := fun t ht => h.routes _ fun t' ht' he => ?_
    positions := fun t ht m m' hm hm' => ?_
    early := hearly }
  · simp only [Carries, Cluster.registry_eq_load]
    exact h.carried.recorded hdone ht
  · have hid := Target.keyIn_injective he
    rcases List.mem_append.1 ht' with hd | hf
    · exact hdisjoint _ (List.mem_map_of_mem hd) _
        (List.mem_map_of_mem (List.mem_append_right _ ht)) hid
    · rw [List.map_append] at hothers
      exact (List.nodup_append.1 hothers).2.2 _ (List.mem_map_of_mem hf) _
        (List.mem_map_of_mem ht) hid
  · rw [Cluster.registry_eq_load] at hm hm'
    exact h.carried.positions_of_notMem (fun t' ht' he => hdisjoint _ (List.mem_map_of_mem ht') _
      (List.mem_map_of_mem ht) he) hm hm'

/-- Whichever requests of an operation on header routes fail: unless the request cannot be resolved
or makes no sense, which changes nothing, the targets that take header routes split into those that
carry the change, at most one at which the operation stopped, and those that it did not touch. -/
theorem split_of_perform {rollout : Rollout} {operation : Operation}
    {change? : Except RoutingError HeaderChange}
    (hop : operation.headerChange? rollout = some change?) {s : FaultyCluster}
    (hs : s.cluster.WellFormed) :
    (∀ e, ((resolve rollout).runOn s).1 = .error e →
      ((perform rollout operation).runOn s).1 = .error e ∧
      ((perform rollout operation).runOn s).2.cluster = s.cluster) ∧
    ∀ plan, ((resolve rollout).runOn s).1 = .ok plan →
      (∀ e, change? = .error e → ((perform rollout operation).runOn s).1 = .error e ∧
        ((perform rollout operation).runOn s).2.cluster = s.cluster) ∧
      ∀ change, change? = .ok change → ∃ done failing rest,
        Split rollout change ⟨plan.space, plan.document⟩ s.cluster
          ((perform rollout operation).runOn s).2.cluster
          (failureOf ((perform rollout operation).runOn s).1)
          plan.headerTargets done failing rest := by
  obtain ⟨hcluster, hresolved⟩ := runOn_resolve rollout s
  rcases hresolve : (resolve rollout).runOn s with ⟨x, s₁⟩
  rw [hresolve] at hcluster hresolved
  simp only at hcluster
  refine ⟨fun e he => ?_, fun plan hplan => ⟨fun e he => ?_, fun change hchange => ?_⟩⟩
  · cases he
    rw [perform_headerChange hop, Call.runOn_bind_error hresolve]
    exact ⟨rfl, hcluster⟩
  · cases hplan
    rw [perform_headerChange hop, Call.runOn_bind_ok hresolve, he,
      Call.runOn_bind_error (Call.runOn_ofExcept _ _)]
    exact ⟨rfl, hcluster⟩
  · cases hplan
    subst hchange
    have htargets := nodup_headerTargets (hresolved plan rfl)
    obtain ⟨done, failing, rest, hsplit, hprogress, hearly⟩ :=
      progress_changeTargets (hcluster ▸ hs) rollout change htargets
    rw [runOn_perform hop hresolve, failureOf_map, ← hcluster]
    exact ⟨done, failing, rest, hprogress.split hsplit htargets hearly⟩

/-! ### A call that stops at its second target

A header route is added to two routes. At the second one the registry document is refused, and so is
the earlier route.
-/

/-- A route to two services. -/
def pairRoute (name : String) : Route where
  kind := .http
  metadata := { name := some name, space := some "shop" }
  ruleList := some [{ backendRefs := some [{ name := "canary" }, { name := "stable" }] }]

/-- A cluster with two such routes. -/
def pairCluster : Cluster :=
  (Cluster.putRoute {} ⟨.http, "shop", "web"⟩ (pairRoute "web")).putRoute ⟨.http, "shop", "api"⟩
    (pairRoute "api")

theorem wellFormed_pairCluster : pairCluster.WellFormed :=
  (Cluster.WellFormed.empty.putRoute ⟨rfl, rfl, rfl⟩).putRoute ⟨rfl, rfl, rfl⟩

/-- A rollout that shapes both. -/
def pairRollout : Rollout where
  name := "shop"
  space := "shop"
  canaryService := "canary"
  stableService := "stable"
  managedRoutes := [⟨"beta"⟩]
  trafficRouting := .object [("httpRoutes", .array [
    .object [("name", .string "web"), ("useHeaderRoutes", .bool true)],
    .object [("name", .string "api"), ("useHeaderRoutes", .bool true)]])]

/-- Its targets. -/
def pairTargets : List Target := [⟨.http, "web", true⟩, ⟨.http, "api", true⟩]

/-- The operation. -/
def setBeta : Operation := .setHeaderRoute ⟨"beta", [⟨"x-user", { exact := some "beta" }⟩]⟩

/-- The cluster, and which of the requests fail. -/
def pairFaults : FaultyCluster where
  cluster := pairCluster
  failures := [none, none, none, none, none, none, none, some (.status 500), some (.status 500)]

/-- The plan that the rollout is resolved to. -/
def pairPlan : Plan where
  space := "shop"
  document := "argo-gatewayapi-configmap"
  settings := { http := { listed := [⟨"web", true⟩, ⟨"api", true⟩] } }
  targets := pairTargets

theorem split_of_perform_pair :
    ((failureOf ((perform pairRollout setBeta).runOn pairFaults).1).any
        RoutingError.isInconsistent) ∧
      ∃ done failing rest,
        Split pairRollout (.set "beta" [⟨"x-user", some .exact, "beta"⟩])
          ⟨"shop", "argo-gatewayapi-configmap"⟩ pairCluster
          ((perform pairRollout setBeta).runOn pairFaults).2.cluster
          (failureOf ((perform pairRollout setBeta).runOn pairFaults).1)
          pairTargets done failing rest :=
  ⟨by decide +kernel,
    ((split_of_perform (s := pairFaults) rfl wellFormed_pairCluster).2 pairPlan rfl).2 _ rfl⟩

end CanaryRouting
