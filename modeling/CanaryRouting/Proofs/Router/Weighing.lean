import CanaryRouting.Proofs.Atomicity.Outcome

/-!
# Setting weights alone

An operation that is not about header routes leaves the registry document as it is, and of the
routes everything but backend references and labels, whichever of its requests fail
(`reshapes_perform`). What it makes of one route is said by `runOn_setWeightOf`.

Setting weights works through the targets one after the other, each once, until a request fails.
`Cluster.Rewritten` says what such a run has written, whatever is made of the routes, and
`reweighs_forM` that it is what `reweigh` makes of them.
-/

namespace CanaryRouting

open Program Router

/-- The documents are the same, and so are the rules of every route apart from their backend
references. -/
structure Cluster.Reshaped (c c' : Cluster) : Prop where
  /-- The cluster is still well formed. -/
  wellFormed : c'.WellFormed
  /-- The documents. -/
  documents : c'.documents = c.documents
  /-- The rules. -/
  bare : ∀ k, (c'.rules k).map Rule.bare = (c.rules k).map Rule.bare

namespace Cluster.Reshaped

variable {c c₁ c' : Cluster}

theorem refl (h : c.WellFormed) : c.Reshaped c := ⟨h, rfl, fun _ => rfl⟩

theorem trans (h : c.Reshaped c₁) (h' : c₁.Reshaped c') : c.Reshaped c' where
  wellFormed := h'.wellFormed
  documents := h'.documents.trans h.documents
  bare k := (h'.bare k).trans (h.bare k)

theorem putRoute (hc : c.WellFormed) {k : RouteKey} {r r' : Route} (hr : c.routes.get? k = some r)
    (hshape : r.SameShape r') : c.Reshaped (c.putRoute k r') where
  wellFormed := hc.putRoute ((hc.route_isAt hr).of_sameShape hshape)
  documents := rfl
  bare k' := by
    by_cases hk : k' = k
    · subst hk
      rw [Cluster.rules_putRoute_self, Cluster.rules, hr]
      exact hshape.bare
    · rw [Cluster.rules_putRoute_of_ne hk]

end Cluster.Reshaped

/-- Of the cluster the routes of `done` have been written, each once and in this order, and nothing
else. What was written for a target has been made of its route in the way that `made` says. -/
structure Cluster.Rewritten (space : String) (made : Target → Route → Route → Prop)
    (c c' : Cluster) (done : List Target) : Prop where
  /-- No document has been written. -/
  documents : c'.documents = c.documents
  /-- No other route has been written. -/
  others : ∀ k, (∀ t ∈ done, t.keyIn space ≠ k) → c'.routes.get? k = c.routes.get? k
  /-- There has been one write for each target. -/
  versions : c'.versions = c.versions + done.length
  /-- What was written for a target is made of its route. -/
  written : ∀ (i : Nat) (t : Target), done[i]? = some t → ∃ route route',
    c.routes.get? (t.keyIn space) = some route ∧ made t route route' ∧
    c'.routes.get? (t.keyIn space) =
      some (route'.withVersion (some (versionText (c.versions + i + 1))))

namespace Cluster.Rewritten

variable {space : String} {made made' : Target → Route → Route → Prop} {c c' : Cluster}

theorem mono {done : List Target} (h : Cluster.Rewritten space made c c' done)
    (hmade : ∀ t route route', made t route route' → made' t route route') :
    Cluster.Rewritten space made' c c' done where
  documents := h.documents
  others := h.others
  versions := h.versions
  written i t ht :=
    let ⟨route, route', hroute, hroute', hwritten⟩ := h.written i t ht
    ⟨route, route', hroute, hmade t route route' hroute', hwritten⟩

theorem nil (c : Cluster) : Cluster.Rewritten space made c c [] where
  documents := rfl
  others _ _ := rfl
  versions := rfl
  written _ _ h := nomatch h

/-- One more target is written first. -/
theorem cons {t : Target} {ts : List Target} {route route' : Route}
    (hroute : c.routes.get? (t.keyIn space) = some route) (hmade : made t route route')
    (hnew : ∀ t' ∈ ts, t'.keyIn space ≠ t.keyIn space)
    (h : Cluster.Rewritten space made (c.putRoute (t.keyIn space) route') c' ts) :
    Cluster.Rewritten space made c c' (t :: ts) where
  documents := h.documents
  others k hk := by
    rw [h.others k fun t' ht' => hk t' (List.mem_cons_of_mem _ ht')]
    exact Cluster.get?_putRoute_of_ne (hk t (List.mem_cons_self ..)).symm _
  versions := by
    rw [h.versions, List.length_cons]
    simp only [Cluster.putRoute]
    omega
  written i t' ht' := by
    cases i with
    | zero =>
      cases ht'
      refine ⟨route, route', hroute, hmade, ?_⟩
      rw [h.others _ hnew, Cluster.get?_putRoute_self]
      rfl
    | succ i =>
      rw [List.getElem?_cons_succ] at ht'
      obtain ⟨r, r', hr, hmade', hr'⟩ := h.written i t' ht'
      rw [Cluster.get?_putRoute_of_ne (hnew t' (List.mem_of_getElem? ht'))] at hr
      refine ⟨r, r', hr, hmade', ?_⟩
      have hnumber : (c.putRoute (t.keyIn space) route').versions + i + 1 =
          c.versions + (i + 1) + 1 := by
        simp only [Cluster.putRoute]
        omega
      rw [hr', hnumber]

theorem written_of_mem {done : List Target} (h : Cluster.Rewritten space made c c' done)
    {t : Target} (ht : t ∈ done) :
    ∃ route route' v, c.routes.get? (t.keyIn space) = some route ∧ made t route route' ∧
      c'.routes.get? (t.keyIn space) = some (route'.withVersion v) := by
  obtain ⟨i, hi⟩ := List.getElem?_of_mem ht
  obtain ⟨route, route', hroute, hmade, hwritten⟩ := h.written i t hi
  exact ⟨route, route', _, hroute, hmade, hwritten⟩

end Cluster.Rewritten

/-- The positions to skip are those in the registry. -/
theorem injectedRules_get? (c : Cluster) (key : DocumentKey) (t : Target) :
    injectedRules (c.documents.get? key) t =
      (c.registry key t.kind).map fun m => m.indices t.name := by
  unfold Cluster.registry
  cases c.documents.get? key <;> rfl

namespace Router

variable {rollout : Rollout} {plan : Plan} {document : Option Document} {desired : Int}
  {destinations : List WeightDestination} {s : FaultyCluster}

/-- A target is reweighed with the positions that the document has for it, or there is an error and
nothing is written. -/
theorem runOn_setWeightOf (hs : s.cluster.WellFormed) (t : Target) :
    (∃ e s', (setWeightOf rollout plan document desired destinations t).runOn s = (.error e, s') ∧
        s'.cluster = s.cluster) ∨
      ∃ route skip route', t.name ≠ "" ∧ s.cluster.routes.get? (t.keyIn plan.space) = some route ∧
        injectedRules document t = .ok skip ∧
        reweigh rollout plan.settings desired destinations skip route = .ok route' ∧
        (setWeightOf rollout plan document desired destinations t).runOn s =
          (.ok (), ⟨s.cluster.putRoute (t.keyIn plan.space) route', s.failures.tail.tail⟩) := by
  unfold setWeightOf
  rcases runOn_getRoute s (t.keyIn plan.space) with ⟨e, he⟩ | ⟨route, hname, hr, he⟩ <;>
    simp only [Target.keyIn] at he
  · rw [Call.runOn_bind_error he]
    exact .inl ⟨_, _, rfl, rfl⟩
  rw [Call.runOn_bind_ok he]
  cases hskip : injectedRules document t with
  | error e =>
    rw [Call.runOn_bind_error (Call.runOn_ofExcept _ _)]
    exact .inl ⟨_, _, rfl, rfl⟩
  | ok skip =>
    rw [Call.runOn_bind_ok (Call.runOn_ofExcept _ _)]
    cases hweigh : reweigh rollout plan.settings desired destinations skip route with
    | error e =>
      rw [Call.runOn_bind_error (Call.runOn_ofExcept _ _)]
      exact .inl ⟨_, _, rfl, rfl⟩
    | ok route' =>
      rw [Call.runOn_bind_ok (Call.runOn_ofExcept _ _)]
      have hshape := sameShape_of_reweigh hweigh
      have hat := (hs.route_isAt hr).of_sameShape hshape
      have hrun : (Call.ofStore (Store.updateRoute plan.space route')).runOn
          ⟨s.cluster, s.failures.tail⟩ = _ := Call.runOn_request (.updateRoute plan.space route') _
      rcases respond_updateRoute_stored (s := ⟨s.cluster, s.failures.tail⟩) hs hr route' hat
        hshape.version with ⟨e, he⟩ | he <;> simp only [Target.keyIn] at he <;> rw [he] at hrun
      · rw [Call.runOn_bind_error hrun]
        exact .inl ⟨_, _, rfl, rfl⟩
      · rw [Call.runOn_bind_ok hrun]
        exact .inr ⟨route, skip, route', hname, hr, rfl, hweigh, rfl⟩

end Router

/-- The targets that have been written have been given the weights of a request. The document says
which of their rules were passed over. -/
def Reweighs (rollout : Rollout) (settings : Settings) (space : String)
    (document : Option Document) (desired : Int) (destinations : List WeightDestination)
    (c c' : Cluster) (done : List Target) : Prop :=
  Cluster.Rewritten space (fun t route route' => t.name ≠ "" ∧ ∃ skip,
    injectedRules document t = .ok skip ∧
    reweigh rollout settings desired destinations skip route = .ok route') c c' done

/-- Working through the targets weighs the first ones, and all of them just if there is no error. -/
theorem Router.reweighs_forM (rollout : Rollout) (plan : Plan) (document : Option Document)
    (desired : Int) (destinations : List WeightDestination) {s : FaultyCluster}
    (hs : s.cluster.WellFormed) (targets : List Target)
    (hnodup : (targets.map Target.identity).Nodup) :
    ∃ done rest, targets = done ++ rest ∧
      Reweighs rollout plan.settings plan.space document desired destinations s.cluster
        ((targets.forM (setWeightOf rollout plan document desired destinations)).runOn s).2.cluster
        done ∧
      (((targets.forM (setWeightOf rollout plan document desired destinations)).runOn s).1 =
        .ok () ↔ rest = []) := by
  -- For every cluster, since the targets behind the first one start from what it has written.
  induction targets generalizing s with
  | nil => exact ⟨[], [], rfl, .nil _, iff_of_true rfl rfl⟩
  | cons t ts ih =>
    rw [List.map_cons, List.nodup_cons] at hnodup
    rw [List.forM_eq_forM, List.forM_cons]
    rcases @runOn_setWeightOf rollout plan document desired destinations s hs t with
      ⟨e, s', he, hsame⟩ | ⟨route, skip, route', hname, hr, hskip, hweigh, he⟩
    · rw [Call.runOn_bind_error he, hsame]
      exact ⟨[], t :: ts, rfl, .nil _, iff_of_false (nomatch ·) (nomatch ·)⟩
    · rw [Call.runOn_bind_ok he]
      have hat := (hs.route_isAt hr).of_sameShape (sameShape_of_reweigh hweigh)
      obtain ⟨done, rest, rfl, hreweighs, hok⟩ := ih (s := ⟨_, _⟩) (hs.putRoute hat) hnodup.2
      refine ⟨t :: done, rest, rfl, .cons hr ⟨hname, skip, hskip, hweigh⟩ ?_ hreweighs, hok⟩
      intro t' ht' he
      apply hnodup.1
      rw [← Target.keyIn_injective he]
      exact List.mem_map_of_mem (List.mem_append_left _ ht')

/-! ### Parts that change less than others -/

namespace Call

variable {α β : Type} {p : Call α} {f : α → Call β}

/-- A part of an operation leaves the cluster as it is. -/
def Reads (p : Call α) : Prop := ∀ s, (p.runOn s).2.cluster = s.cluster

/-- A part of an operation changes backend references and labels only. -/
def Reshapes (p : Call α) : Prop :=
  ∀ s : FaultyCluster, s.cluster.WellFormed → s.cluster.Reshaped (p.runOn s).2.cluster

theorem Reads.pure (a : α) : (Pure.pure a : Call α).Reads := fun _ => rfl

theorem Reads.ofExcept (x : Except RoutingError α) : (Call.ofExcept x).Reads := fun _ => rfl

theorem Reads.bind (hp : p.Reads) (hf : ∀ a, (f a).Reads) : (p >>= f).Reads := by
  intro s
  have hsame := hp s
  rcases hrun : p.runOn s with ⟨x, s'⟩
  rw [hrun] at hsame
  cases x with
  | error e =>
    rw [runOn_bind_error hrun]
    exact hsame
  | ok a =>
    rw [runOn_bind_ok hrun]
    exact (hf a s').trans hsame

theorem Reads.reshapes (hp : p.Reads) : p.Reshapes := fun s hs => by
  rw [hp s]
  exact .refl hs

theorem Reshapes.bind (hp : p.Reshapes) (hf : ∀ a, (f a).Reshapes) : (p >>= f).Reshapes := by
  intro s hs
  have hfirst := hp s hs
  rcases hrun : p.runOn s with ⟨x, s'⟩
  rw [hrun] at hfirst
  cases x with
  | error e =>
    rw [runOn_bind_error hrun]
    exact hfirst
  | ok a =>
    rw [runOn_bind_ok hrun]
    exact hfirst.trans (hf a s' hfirst.wellFormed)

end Call

/-! ### Operations -/

namespace Router

theorem reads_getRoute (k : RouteKey) : (Call.ofStore (Store.getRoute k.space k.kind k.name)).Reads := by
  intro s
  rcases runOn_getRoute s k with ⟨e, he⟩ | ⟨r, -, -, he⟩ <;> rw [he]

theorem reads_getDocument (key : DocumentKey) :
    (Call.ofStore (Store.getDocument key.space key.name)).Reads := by
  intro s
  rcases runOn_getDocument s key with ⟨e, he⟩ | ⟨d?, -, he⟩ <;> rw [he]

theorem reads_resolve (rollout : Rollout) : (resolve rollout).Reads := fun s =>
  (runOn_resolve rollout s).1

theorem reads_verifyWeight (rollout : Rollout) (desired : Int)
    (destinations : List WeightDestination) : (verifyWeight rollout desired destinations).Reads := by
  refine .bind (.ofExcept _) fun _ => .bind (reads_resolve rollout) fun plan =>
    .bind (reads_getDocument ⟨plan.space, plan.document⟩) fun document => ?_
  have htargets : ∀ ts : List Target,
      (ts.allM (verifyWeightOf rollout plan document desired destinations)).Reads := by
    intro ts
    induction ts with
    | nil => exact .pure true
    | cons t ts ih =>
      refine .bind (.bind (reads_getRoute (t.keyIn plan.space)) fun route =>
        .bind (.ofExcept _) fun skip => .ofExcept _) fun applied => ?_
      cases applied with
      | true => exact ih
      | false => exact .pure false
  exact htargets plan.targets

theorem reshapes_setWeightOf (rollout : Rollout) (plan : Plan) (document : Option Document)
    (desired : Int) (destinations : List WeightDestination) (t : Target) :
    (setWeightOf rollout plan document desired destinations t).Reshapes := by
  intro s hs
  rcases runOn_setWeightOf hs t with ⟨e, s', he, hsame⟩ | ⟨route, skip, route', -, hr, -, hweigh, he⟩
  · rw [he, hsame]
    exact .refl hs
  · rw [he]
    exact .putRoute hs hr (sameShape_of_reweigh hweigh)

theorem reshapes_forM (rollout : Rollout) (plan : Plan) (document : Option Document)
    (desired : Int) (destinations : List WeightDestination) (ts : List Target) :
    (ts.forM (setWeightOf rollout plan document desired destinations)).Reshapes := by
  induction ts with
  | nil => exact (Call.Reads.pure ()).reshapes
  | cons t ts ih =>
    rw [List.forM_eq_forM, List.forM_cons]
    exact .bind (reshapes_setWeightOf rollout plan document desired destinations t) fun _ => ih

theorem reshapes_setWeight (rollout : Rollout) (desired : Int)
    (destinations : List WeightDestination) : (setWeight rollout desired destinations).Reshapes :=
  .bind (Call.Reads.ofExcept _).reshapes fun _ =>
    .bind (reads_resolve rollout).reshapes fun plan =>
      .bind (reads_getDocument ⟨plan.space, plan.document⟩).reshapes fun document =>
        reshapes_forM rollout plan document desired destinations plan.targets

theorem reshapes_perform {rollout : Rollout} {operation : Operation}
    (hop : operation.headerChange? rollout = none) : (perform rollout operation).Reshapes := by
  cases operation with
  | setWeight desired destinations =>
    exact .bind (reshapes_setWeight rollout desired destinations) fun _ =>
      (Call.Reads.pure _).reshapes
  | verifyWeight desired destinations =>
    exact ((reads_verifyWeight rollout desired destinations).bind fun _ => .pure _).reshapes
  | updateHash => exact (Call.Reads.pure _).reshapes
  | setHeaderRoute header =>
    simp only [Operation.headerChange?] at hop
    split at hop <;> cases hop
  | removeManagedRoutes => cases hop

end Router

end CanaryRouting
