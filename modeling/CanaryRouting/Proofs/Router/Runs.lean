import CanaryRouting.Proofs.Router.Commit
import CanaryRouting.Proofs.Router.HeaderChange
import CanaryRouting.Proofs.Store.Sections

/-!
# Operations that run alone

`Call.runOn` carries out a part of an operation on a cluster that nobody else uses, and of which
some requests fail. A part that only lists routes leaves the cluster as it is, and that is so for
resolving a request (`runOn_resolve`). The plan that comes of it has every target once.
-/

namespace CanaryRouting

open Program

/-- Carries out a part of an operation. -/
def Call.runOn {α : Type} (p : Call α) (s : FaultyCluster) :
    Except RoutingError α × FaultyCluster :=
  Program.run FaultyCluster.respond p.run s

namespace Call

variable {α β : Type} {s s' : FaultyCluster}

@[simp] theorem runOn_pure (a : α) (s : FaultyCluster) : (pure a : Call α).runOn s = (.ok a, s) :=
  rfl

@[simp] theorem runOn_ofExcept (x : Except RoutingError α) (s : FaultyCluster) :
    (ofExcept x).runOn s = (x, s) := rfl

theorem runOn_ofExcept_eq_iff {x y : Except RoutingError α} :
    (ofExcept x).runOn s = (y, s') ↔ x = y ∧ s = s' := by
  rw [runOn_ofExcept, Prod.mk.injEq]

@[simp] theorem runOn_acquire (space document : String) (s : FaultyCluster) :
    (acquire space document).runOn s = (.ok (), s) := rfl

theorem runOn_bind_ok {p : Call α} {a : α} (h : p.runOn s = (.ok a, s')) (f : α → Call β) :
    (p >>= f).runOn s = (f a).runOn s' := by
  change Program.run FaultyCluster.respond (p.run.bind _) s = _
  rw [run_bind]
  change Program.run FaultyCluster.respond p.run s = _ at h
  rw [h]
  rfl

theorem runOn_bind_error {p : Call α} {e : RoutingError} (h : p.runOn s = (.error e, s'))
    (f : α → Call β) : (p >>= f).runOn s = (.error e, s') := by
  change Program.run FaultyCluster.respond (p.run.bind _) s = _
  rw [run_bind]
  change Program.run FaultyCluster.respond p.run s = _ at h
  rw [h]
  rfl

/-- Two parts succeed if both do. -/
theorem runOn_bind_eq_ok {p : Call α} {f : α → Call β} {b : β} :
    (p >>= f).runOn s = (.ok b, s') ↔
      ∃ a s₁, p.runOn s = (.ok a, s₁) ∧ (f a).runOn s₁ = (.ok b, s') := by
  rcases hp : p.runOn s with ⟨x, s₁⟩
  cases x with
  | ok a =>
    rw [runOn_bind_ok hp]
    exact ⟨fun h => ⟨a, s₁, rfl, h⟩, fun ⟨_, _, h, h'⟩ => by cases h; exact h'⟩
  | error e =>
    rw [runOn_bind_error hp]
    exact ⟨(nomatch ·), fun ⟨_, _, h, _⟩ => nomatch h⟩

theorem runOn_request (r : Request) (s : FaultyCluster) :
    (ofStore (Store.perform r)).runOn s =
      (((FaultyCluster.respond r s).1.mapError (StoreError.ofFailure r.what)).mapError .store,
        (FaultyCluster.respond r s).2) := rfl

/-- After a run without failures none are to come either. -/
theorem failures_runOn (p : Call α) (h : s.failures = []) : (p.runOn s).2.failures = [] := by
  have hrun : ∀ (q : Program (Except RoutingError α)) (s : FaultyCluster), s.failures = [] →
      (Program.run FaultyCluster.respond q s).2.failures = [] := by
    intro q
    induction q with
    | done a => exact fun s h => h
    | ask r next ih => exact fun s h => ih _ _ (by simp [FaultyCluster.respond, h])
    | lock space document next ih => exact fun s h => ih s h
  exact hrun p.run s h

end Call

/-- A request fails, or is answered as the server answers it; if no failures are to come, it is
answered. -/
theorem FaultyCluster.respond_cases (s : FaultyCluster) (r : Request) :
    (∃ e, FaultyCluster.respond r s = (.error e, ⟨s.cluster, s.failures.tail⟩) ∧ s.failures ≠ []) ∨
      FaultyCluster.respond r s =
        ((Cluster.respond r s.cluster).1, ⟨(Cluster.respond r s.cluster).2, s.failures.tail⟩) := by
  unfold FaultyCluster.respond FaultyCluster.failure?
  cases s.failures with
  | nil => exact .inr rfl
  | cons failure later =>
    cases failure with
    | none => exact .inr rfl
    | some e => exact .inl ⟨e, rfl, by simp⟩

/-! ### Targets -/

/-- What a route is known by among the targets. -/
def Target.identity (t : Target) : RouteKind × String := (t.kind, t.name)

theorem Target.isFor_iff {t : Target} {kind : RouteKind} {name : String} :
    t.isFor kind name ↔ t.identity = (kind, name) := by
  simp [isFor, identity]

theorem Target.keyIn_injective {t t' : Target} {space : String}
    (h : t.keyIn space = t'.keyIn space) : t.identity = t'.identity := by
  simp only [keyIn, RouteKey.mk.injEq, true_and] at h
  simp [identity, h.1, h.2]

theorem Target.keyIn_ne {t t' : Target} {space : String} (h : t.identity ≠ t'.identity) :
    t.keyIn space ≠ t'.keyIn space := fun e => h (keyIn_injective e)

/-- Asking for header routes of some targets does not change what routes they are. -/
theorem Target.map_identity_mark (targets : List Target) (kind : RouteKind) (name : String)
    (useHeaderRoutes : Bool) :
    (targets.map fun t => if t.isFor kind name then
      { t with useHeaderRoutes := t.useHeaderRoutes || useHeaderRoutes } else t).map identity =
      targets.map identity := by
  rw [List.map_map]
  refine List.map_congr_left fun t _ => ?_
  simp only [Function.comp]
  split <;> rfl

/-- Adding a route keeps every target once. -/
theorem Target.nodup_add {targets : List Target} (h : (targets.map identity).Nodup)
    (kind : RouteKind) (name : String) (useHeaderRoutes : Bool) :
    ((add targets kind name useHeaderRoutes).map identity).Nodup := by
  unfold add
  split
  · rw [map_identity_mark]
    exact h
  · next hnone =>
    have hperm : (targets.takeWhile (fun t => t.kind.rank ≤ kind.rank) ++
        ⟨kind, name, useHeaderRoutes⟩ :: targets.dropWhile fun t => t.kind.rank ≤ kind.rank).Perm
        (⟨kind, name, useHeaderRoutes⟩ :: (targets.takeWhile (fun t => t.kind.rank ≤ kind.rank) ++
          targets.dropWhile fun t => t.kind.rank ≤ kind.rank)) := List.perm_middle
    rw [List.takeWhile_append_dropWhile] at hperm
    rw [(hperm.map identity).nodup_iff, List.map_cons, List.nodup_cons]
    refine ⟨fun hmem => hnone ?_, h⟩
    obtain ⟨t, ht, he⟩ := List.mem_map.1 hmem
    exact List.any_eq_true.2 ⟨t, ht, isFor_iff.2 he⟩

theorem Target.nodup_addDiscovered {targets : List Target} (h : (targets.map identity).Nodup)
    (kind : RouteKind) (names : List String) :
    ((addDiscovered targets kind names).map identity).Nodup := by
  unfold addDiscovered
  induction names generalizing targets with
  | nil => exact h
  | cons name names ih => exact ih (nodup_add h kind name true)

theorem Settings.nodup_targets (s : Settings) : (s.targets.map Target.identity).Nodup := by
  have hlisted : ∀ (kind : RouteKind) (entries : List RouteEntry) (targets : List Target),
      (targets.map Target.identity).Nodup → ((entries.foldl
        (fun ts e => Target.add ts kind e.name e.useHeaderRoutes) targets).map
          Target.identity).Nodup := by
    intro kind entries
    induction entries with
    | nil => exact fun _ h => h
    | cons e entries ih => exact fun targets h => ih _ (Target.nodup_add h kind _ _)
  have hkinds : ∀ (kinds : List RouteKind) (targets : List Target),
      (targets.map Target.identity).Nodup →
        ((kinds.foldl s.addTargets targets).map Target.identity).Nodup := by
    intro kinds
    induction kinds with
    | nil => exact fun _ h => h
    | cons kind kinds ih =>
      refine fun targets h => ih _ ?_
      unfold addTargets
      simp only
      split
      · exact Target.nodup_add (hlisted _ _ _ h) _ _ _
      · exact hlisted _ _ _ h
  exact hkinds _ _ .nil

/-! ### Resolving -/

/-- Only lists of routes are asked for. -/
def Listing : Protocol Unit := fun _ r learn =>
  ∃ space kind selector, r = .listRoutes space kind selector ∧ ∀ answer, learn answer = ()

/-- Where the registry document of a plan is stored. -/
def Plan.key (p : Plan) : DocumentKey := ⟨p.space, p.document⟩

/-- What is known of a plan that a request was resolved to. -/
structure Plan.Resolved (rollout : Rollout) (plan : Plan) : Prop where
  /-- The configuration is that of the rollout. -/
  settings : Settings.ofJson rollout.trafficRouting = .ok plan.settings
  /-- The namespace is the one that it names. -/
  space : plan.space = plan.settings.namespaceOr rollout.space
  /-- The registry document is the one that it names. -/
  document : plan.document = plan.settings.documentName
  /-- Every target is there once. -/
  nodup : (plan.targets.map Target.identity).Nodup

/-- Resolved requests of one rollout differ in their targets only. -/
theorem Plan.Resolved.unique {rollout : Rollout} {plan plan' : Plan} (h : plan.Resolved rollout)
    (h' : plan'.Resolved rollout) : plan'.settings = plan.settings ∧ plan'.key = plan.key := by
  have hsettings : plan'.settings = plan.settings :=
    Except.ok.inj (h'.settings.symm.trans h.settings)
  refine ⟨hsettings, ?_⟩
  rw [Plan.key, Plan.key, h'.space, h.space, h'.document, h.document, hsettings]

namespace Router

/-- Discovering routes of a kind lists them only, and no target is there twice afterwards. -/
theorem lists_discover (settings : Settings) (space : String) (kind : RouteKind)
    {targets : List Target} (h : (targets.map Target.identity).Nodup) :
    Lists (fun x => ∀ ts, x = .ok ts → (ts.map Target.identity).Nodup)
      (discover settings space targets kind).run := by
  unfold discover
  split
  · exact .done fun ts e => by cases e; exact h
  · refine Lists.bindCall (m := fun _ => True) (.ask fun answer => .done trivial)
      (fun _ _ _ e => nomatch e) fun names _ => .done fun ts e => ?_
    cases e
    exact Target.nodup_addDiscovered h kind names

theorem lists_foldlM_discover (settings : Settings) (space : String) (kinds : List RouteKind)
    {targets : List Target} (h : (targets.map Target.identity).Nodup) :
    Lists (fun x => ∀ ts, x = .ok ts → (ts.map Target.identity).Nodup)
      (kinds.foldlM (discover settings space) targets).run := by
  induction kinds generalizing targets with
  | nil => exact .done fun ts e => by cases e; exact h
  | cons kind kinds ih =>
    rw [List.foldlM_cons]
    exact Lists.bindCall (lists_discover settings space kind h) (fun _ _ _ e => nomatch e)
      fun ts hts => ih (hts ts rfl)

/-- Resolving lists routes only. -/
theorem lists_resolve (rollout : Rollout) :
    Lists (fun x => ∀ plan, x = .ok plan → plan.Resolved rollout) (resolve rollout).run := by
  unfold resolve
  refine Lists.bindCall (m := fun x => ∀ settings, x = .ok settings →
    Settings.ofJson rollout.trafficRouting = .ok settings)
    (.done fun _ e => Except.mapError_eq_ok.1 e) (fun _ _ _ e => nomatch e)
    fun settings hsettings => ?_
  refine Lists.bindCall (lists_foldlM_discover settings _ _ settings.nodup_targets)
    (fun _ _ _ e => nomatch e) fun targets htargets => .done fun plan e => ?_
  cases e
  exact ⟨hsettings settings rfl, rfl, rfl, htargets targets rfl⟩

/-- Resolving asks for lists of routes only. -/
theorem follows_listing_resolve (rollout : Rollout) :
    Follows Listing (fun _ x => ∀ plan, x = .ok plan → plan.Resolved rollout) ()
      (resolve rollout).run :=
  ((lists_resolve rollout).follows (m := fun _ => True)
    (fun _ _ _ _ _ => ⟨_, ⟨_, _, _, rfl, fun _ => rfl⟩, fun _ => trivial⟩) trivial).mono
      fun _ _ h => h.2

/-- Resolving a request changes nothing. -/
theorem runOn_resolve (rollout : Rollout) (s : FaultyCluster) :
    ((resolve rollout).runOn s).2.cluster = s.cluster ∧
      ∀ plan, ((resolve rollout).runOn s).1 = .ok plan → plan.Resolved rollout := by
  have hstep : ∀ (s' : FaultyCluster) (g : Unit) (r : Request)
      (learn : Except ApiFailure r.Answer → Unit), s'.cluster = s.cluster → Listing g r learn →
      (FaultyCluster.respond r s').2.cluster = s.cluster := by
    rintro s' _ r learn hs ⟨space, kind, selector, rfl, -⟩
    rcases s'.respond_cases (.listRoutes space kind selector) with ⟨e, he, -⟩ | he
    · rw [he]
      exact hs
    · rw [he, Cluster.respond_listRoutes]
      exact hs
  obtain ⟨_, hcluster, hresolved⟩ :=
    (follows_listing_resolve rollout).run (I := fun (s' : FaultyCluster) _ => s'.cluster = s.cluster)
      hstep rfl
  exact ⟨hcluster, hresolved⟩

/-- What a request is resolved to. -/
theorem resolved_of_runOn {rollout : Rollout} {plan : Plan} {s s' : FaultyCluster}
    (h : (resolve rollout).runOn s = (.ok plan, s')) : plan.Resolved rollout :=
  (runOn_resolve rollout s).2 plan (by rw [h])

theorem nodup_headerTargets {rollout : Rollout} {plan : Plan} (h : plan.Resolved rollout) :
    (plan.headerTargets.map Target.identity).Nodup :=
  h.nodup.sublist (List.filter_sublist.map Target.identity)

/-- An operation about header routes whose request was resolved, and makes sense, changes the
targets. -/
theorem runOn_perform {rollout : Rollout} {operation : Operation} {change : HeaderChange}
    (hop : operation.headerChange? rollout = some (.ok change)) {s s' : FaultyCluster} {plan : Plan}
    (hplan : (resolve rollout).runOn s = (.ok plan, s')) :
    (perform rollout operation).runOn s =
      (((changeTargets rollout plan change).runOn s').1.map fun _ => none,
        ((changeTargets rollout plan change).runOn s').2) := by
  rw [perform_headerChange hop, Call.runOn_bind_ok hplan,
    Call.runOn_bind_ok (Call.runOn_ofExcept _ _)]
  rcases hrun : (changeTargets rollout plan change).runOn s' with ⟨x, s''⟩
  cases x with
  | ok _ => exact Call.runOn_bind_ok hrun _
  | error e => exact Call.runOn_bind_error hrun _

end Router

end CanaryRouting
