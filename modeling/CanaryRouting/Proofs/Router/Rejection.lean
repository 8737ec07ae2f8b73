import CanaryRouting.Proofs.Atomicity.Split
import CanaryRouting.Proofs.Removal.Names
import CanaryRouting.Proofs.Router.Rewriting

/-!
# Requests that are refused

Some errors say that a request or the stored configuration makes no sense
(`RoutingError.isRejection`). They should come before anything is written. All of them do but one:
the managed routes of a kind are decoded when it is the turn of a target of this kind, and targets
of other kinds may have been written by then. So a refused request has left everything as it was
just if none of the targets before was altered (`unchanged_iff_of_rejected`).
-/

namespace CanaryRouting

open Program Router

/-- Whether the error says that the request, or what it is to work on, makes no sense. -/
def RoutingError.isRejection : RoutingError → Bool
  | .weightOutOfRange _ | .invalidConfig _ | .invalidHeaderMatch _ | .documentDecode _ => true
  | _ => false

theorem RoutingError.not_rejection_of_isMismatch {e : RoutingError} (h : e.isMismatch) :
    e.isRejection = false := by
  cases e <;> first | rfl | cases h

/-! ### Where errors come from -/

namespace Call

variable {α β ε : Type} {s s' : FaultyCluster} {e : RoutingError}

/-- Two parts fail if the first one does, or the second one after it. -/
theorem runOn_bind_eq_error {p : Call α} {f : α → Call β} :
    (p >>= f).runOn s = (.error e, s') ↔
      p.runOn s = (.error e, s') ∨
        ∃ a s₁, p.runOn s = (.ok a, s₁) ∧ (f a).runOn s₁ = (.error e, s') := by
  rcases hp : p.runOn s with ⟨x, s₁⟩
  cases x with
  | ok a =>
    rw [runOn_bind_ok hp]
    constructor
    · intro h
      exact .inr ⟨a, s₁, rfl, h⟩
    · rintro (h | ⟨_, _, h, h'⟩)
      · cases h
      · cases h
        exact h'
  | error e' =>
    rw [runOn_bind_error hp]
    constructor
    · intro h
      cases h
      exact .inl rfl
    · rintro (h | ⟨_, _, h, -⟩)
      · cases h
        rfl
      · cases h

/-- The errors of a program that takes over those of another one. -/
theorem exists_of_runOn_mapError {q : Program (Except ε α)} {f : ε → RoutingError}
    (h : Call.runOn (ExceptT.mk do return (← q).mapError f) s = (.error e, s')) :
    ∃ e', e = f e' := by
  change Program.run FaultyCluster.respond (q.bind fun x => .done (x.mapError f)) s = _ at h
  rw [run_bind] at h
  rcases hrun : Program.run FaultyCluster.respond q s with ⟨x, s₁⟩
  rw [hrun] at h
  cases x with
  | ok a => cases h
  | error e' =>
    cases h
    exact ⟨e', rfl⟩

/-- An error of the store is no rejection. -/
theorem not_rejection_of_ofStore {q : Program (Except StoreError α)}
    (h : (ofStore q).runOn s = (.error e, s')) : e.isRejection = false := by
  obtain ⟨e', rfl⟩ := exists_of_runOn_mapError h
  rfl

end Call

section

variable {β : Type} {rollout : Rollout} {plan : Plan} {s s' : FaultyCluster} {e : RoutingError}

namespace Router

theorem not_rejection_of_commit {document : Document} {key : String} {change : RouteChange}
    (h : (commit plan document key change).runOn s = (.error e, s')) : e.isRejection = false := by
  unfold commit at h
  rcases Call.runOn_bind_eq_error.1 h with h | ⟨steps, s₁, -, h⟩
  · obtain ⟨e', rfl⟩ := Call.exists_of_runOn_mapError h
    rfl
  · split at h <;> cases h
    rfl

theorem not_rejection_of_getOrCreateDocument
    (h : (getOrCreateDocument plan).runOn s = (.error e, s')) : e.isRejection = false := by
  unfold getOrCreateDocument at h
  rcases Call.runOn_bind_eq_error.1 h with h | ⟨d?, s₁, -, h⟩
  · exact Call.not_rejection_of_ofStore h
  · cases d? with
    | some d => cases h
    | none => exact Call.not_rejection_of_ofStore h

theorem eq_documentDecode_of_map {d : Document} {key : String} {f : ManagedRoutes → β}
    (h : (ManagedRoutes.load d key).map f = .error e) : e = .documentDecode key :=
  eq_documentDecode_of_load (Except.map_eq_error.1 h)

/-! ### Errors of one target -/

theorem mismatch_of_findBackendRefs {kind : RouteKind} {rules : List Rule} {service : String}
    {skip : List Nat} (h : findBackendRefs kind rules service skip = .error e) : e.isMismatch := by
  unfold findBackendRefs at h
  split at h
  · split at h <;> cases h
    rfl
  · cases h
    rfl

theorem mismatch_of_findPrimaryRule {kind : RouteKind} {rules : List Rule}
    {canary stable : String} {skip : List Nat}
    (h : findPrimaryRule kind rules canary stable skip = .error e) : e.isMismatch := by
  unfold findPrimaryRule at h
  split at h <;> cases h
  rfl

theorem mismatch_of_applyDestinations {kind : RouteKind} {rules : List Rule}
    {canary stable : String} {desired : Int} {destinations : List WeightDestination}
    {skip : List Nat} {i : InterruptedChange}
    (h : applyDestinations kind rules canary stable desired destinations skip = .error i) :
    i.error.isMismatch := by
  unfold applyDestinations at h
  rcases Except.bind_eq_error.1 h with hprimary | ⟨primary, -, h⟩
  · obtain ⟨_, hfind, rfl⟩ := Except.mapError_eq_error.1 hprimary
    exact mismatch_of_findPrimaryRule hfind
  · split at h
    · cases h
    · rcases Except.bind_eq_error.1 h with hcanary | ⟨_, -, h⟩
      · obtain ⟨_, hfind, rfl⟩ := Except.mapError_eq_error.1 hcanary
        exact mismatch_of_findBackendRefs hfind
      · cases h

theorem mismatch_of_applyWeight {kind : RouteKind} {rules : List Rule} {canary stable : String}
    {desired : Int} {skip : List Nat}
    (h : applyWeight kind rules canary stable desired skip = .error e) : e.isMismatch := by
  unfold applyWeight at h
  rcases Except.bind_eq_error.1 h with hcanary | ⟨_, -, h⟩
  · exact mismatch_of_findBackendRefs hcanary
  · rcases Except.bind_eq_error.1 h with hstable | ⟨_, -, h⟩
    · exact mismatch_of_findBackendRefs hstable
    · cases h

/-- Weights cannot be distributed only if references are missing. -/
theorem mismatch_of_distribute {kind : RouteKind} {rules : List Rule} {canary stable : String}
    {desired : Int} {destinations : List WeightDestination} {skip : List Nat}
    (h : distribute kind rules canary stable desired destinations skip = .error e) :
    e.isMismatch := by
  unfold distribute at h
  rcases Except.bind_eq_error.1 h with hweights | ⟨weighed, -, h⟩
  · exact mismatch_of_applyWeight hweights
  · obtain ⟨i, happly, rfl⟩ := Except.mapError_eq_error.1 h
    exact mismatch_of_applyDestinations happly

/-- Weights are refused at a target only if its recorded positions cannot be read. -/
theorem eq_error_of_setWeightOf {document : Option Document} {desired : Int}
    {destinations : List WeightDestination} {t : Target} (he : e.isRejection)
    (h : (setWeightOf rollout plan document desired destinations t).runOn s = (.error e, s')) :
    injectedRules document t = .error e := by
  unfold setWeightOf at h
  rcases Call.runOn_bind_eq_error.1 h with h | ⟨route, s₁, -, h⟩
  · rw [Call.not_rejection_of_ofStore h] at he
    cases he
  rcases Call.runOn_bind_eq_error.1 h with h | ⟨skip, s₂, -, h⟩
  · exact (Call.runOn_ofExcept_eq_iff.1 h).1
  rcases Call.runOn_bind_eq_error.1 h with h | ⟨reweighed, s₃, -, h⟩
  · have hreweigh := (Call.runOn_ofExcept_eq_iff.1 h).1
    unfold reweigh at hreweigh
    rcases Except.bind_eq_error.1 hreweigh with hrules | ⟨_, _, hpure⟩
    · rw [RoutingError.not_rejection_of_isMismatch (mismatch_of_distribute hrules)] at he
      cases he
    · cases hpure
  rcases Call.runOn_bind_eq_error.1 h with h | ⟨_, s₄, -, h⟩
  · rw [Call.not_rejection_of_ofStore h] at he
    cases he
  · cases h

/-- A change of header routes is refused at a target only if the managed routes of its kind cannot
be read. -/
theorem eq_error_of_changeTarget {change : HeaderChange} {document : Document} {t : Target}
    (hs : s.cluster.WellFormed) (ht : t.takesHeaderRoutes) (he : e.isRejection)
    (h : (changeTarget rollout plan change document t).runOn s = (.error e, s')) :
    ManagedRoutes.load document t.kind.registryKey = .error e := by
  unfold changeTarget at h
  rcases Call.runOn_bind_eq_error.1 h with h | ⟨registry, s₁, hregistry, h⟩
  · exact (Call.runOn_ofExcept_eq_iff.1 h).1
  obtain ⟨-, rfl⟩ := Call.runOn_ofExcept_eq_iff.1 hregistry
  rcases Call.runOn_bind_eq_error.1 h with h | ⟨route, s₂, hroute, h⟩
  · rw [Call.not_rejection_of_ofStore h] at he
    cases he
  have hkind : route.kind.supportsHeaderRoutes := by
    rcases runOn_getRoute s (t.keyIn plan.space) with ⟨e, herror⟩ | ⟨r, -, hr, hok⟩
    · cases herror.symm.trans hroute
    · cases hok.symm.trans hroute
      rw [(hs.route_isAt hr).kind]
      exact (Bool.and_eq_true_iff.1 ht).2
  rcases Call.runOn_bind_eq_error.1 h with h | ⟨routeChange?, s₃, -, h⟩
  · rw [RoutingError.not_rejection_of_isMismatch
      (mismatch_of_on hkind (Call.runOn_ofExcept_eq_iff.1 h).1)] at he
    cases he
  cases routeChange? with
  | none => cases h
  | some routeChange =>
    rw [not_rejection_of_commit h] at he
    cases he

end Router

end

/-! ### The targets one after the other -/

/-- How the turn of a target can end. Before that it is checked whether the target can be worked
on, and if so, whether it is altered. `I` is known of a cluster and of what is passed from one
target to the next. -/
inductive Visit {σ : Type} (I : Cluster → σ → Prop) (check : Except RoutingError Bool) (c : Cluster)
    (a : σ) : Except RoutingError σ → Cluster → Prop where
  /-- It cannot be worked on. -/
  | rejected {e : RoutingError} : check = .error e → Visit I check c a (.error e) c
  /-- There was an error of another sort. -/
  | failed {e : RoutingError} {c' : Cluster} : e.isRejection = false →
    Visit I check c a (.error e) c'
  /-- There was nothing to alter. -/
  | kept : check = .ok false → Visit I check c a (.ok a) c
  /-- It was altered. -/
  | altered {a' : σ} {c' : Cluster} : check = .ok true → I c' a' → c.versions < c'.versions →
    Visit I check c a (.ok a') c'

/-- If working through the targets is refused, it is at one that cannot be worked on. Either none
of those before such a target is to be altered, and nothing has been written, or one is, and then
something has. -/
theorem rejected_of_foldlM {σ : Type} (I : Cluster → σ → Prop)
    (check : σ → Target → Except RoutingError Bool) {step : σ → Target → Call σ} {ts : List Target}
    (hvisit : ∀ t ∈ ts, ∀ a s, I s.cluster a →
      Visit I (check a t) s.cluster a ((step a t).runOn s).1 ((step a t).runOn s).2.cluster)
    {a : σ} {s s' : FaultyCluster} {e : RoutingError} (hI : I s.cluster a) (he : e.isRejection)
    (hrun : (ts.foldlM step a).runOn s = (.error e, s')) :
    (∃ a', ∃ t ∈ ts, check a' t = .error e) ∧
      ((∀ t ∈ ts.takeWhile fun t => (check a t).isOk, check a t = .ok false) ∧
          (∃ t ∈ ts, check a t = .error e) ∧ s'.cluster = s.cluster ∨
        (∃ t ∈ ts.takeWhile fun t => (check a t).isOk, check a t = .ok true) ∧
          s.cluster.versions < s'.cluster.versions) := by
  induction ts generalizing a s with
  | nil => cases hrun
  | cons t ts ih =>
    have ht := hvisit t (List.mem_cons_self ..) a s hI
    have hvisit := fun t ht => hvisit t (List.mem_cons_of_mem _ ht)
    have hcons : ∀ {b}, check a t = .ok b → (t :: ts).takeWhile (fun t => (check a t).isOk) =
        t :: ts.takeWhile fun t => (check a t).isOk := by
      intro b hb
      exact List.takeWhile_cons_of_pos (by simp [hb, Except.isOk, Except.toBool])
    rw [List.foldlM_cons] at hrun
    rcases hstep : (step a t).runOn s with ⟨x, c₁, failures₁⟩
    rw [hstep] at ht
    cases ht with
    | rejected hcheck =>
      rw [Call.runOn_bind_error hstep] at hrun
      cases hrun
      have hnone : (t :: ts).takeWhile (fun t => (check a t).isOk) = [] :=
        List.takeWhile_cons_of_neg (by simp [hcheck, Except.isOk, Except.toBool])
      rw [hnone]
      exact ⟨⟨a, t, List.mem_cons_self .., hcheck⟩,
        .inl ⟨nofun, ⟨t, List.mem_cons_self .., hcheck⟩, rfl⟩⟩
    | failed hfailed =>
      rw [Call.runOn_bind_error hstep] at hrun
      cases hrun
      rw [hfailed] at he
      cases he
    | kept hcheck =>
      rw [Call.runOn_bind_ok hstep] at hrun
      obtain ⟨⟨a', t', ht', hcheck'⟩, hcases⟩ := ih (s := ⟨s.cluster, failures₁⟩) hvisit hI hrun
      rw [hcons hcheck]
      refine ⟨⟨a', t', List.mem_cons_of_mem _ ht', hcheck'⟩, ?_⟩
      rcases hcases with ⟨hkept, ⟨t'', ht'', hcheck''⟩, hsame⟩ | ⟨⟨t'', ht'', hcheck''⟩, hlater⟩
      · refine .inl ⟨?_, ⟨t'', List.mem_cons_of_mem _ ht'', hcheck''⟩, hsame⟩
        exact List.forall_mem_cons.2 ⟨hcheck, hkept⟩
      · exact .inr ⟨⟨t'', List.mem_cons_of_mem _ ht'', hcheck''⟩, hlater⟩
    | altered hcheck hI₁ hlater₁ =>
      -- The rest is checked with what this turn has passed on, but something has been written.
      rw [Call.runOn_bind_ok hstep] at hrun
      obtain ⟨⟨a', t', ht', hcheck'⟩, hcases⟩ := ih (s := ⟨_, _⟩) hvisit hI₁ hrun
      rw [hcons hcheck]
      refine ⟨⟨a', t', List.mem_cons_of_mem _ ht', hcheck'⟩,
        .inr ⟨⟨t, List.mem_cons_self .., hcheck⟩, ?_⟩⟩
      rcases hcases with ⟨-, -, hsame⟩ | ⟨-, hlater⟩
      · rw [hsame]
        exact hlater₁
      · exact Nat.lt_trans hlater₁ hlater

/-- Working through the targets without passing anything on. -/
theorem forM_eq_foldlM (step : Target → Call Unit) (ts : List Target) :
    ts.forM step = ts.foldlM (fun _ t => step t) () := by
  induction ts with
  | nil => rfl
  | cons t ts ih =>
    rw [List.forM_eq_forM, List.forM_cons, List.foldlM_cons]
    exact bind_congr fun _ => ih

/-! ### The operations -/

/-- Whether the change alters a target of a kind with these managed routes. -/
def HeaderChange.alters : HeaderChange → ManagedRoutes → Bool
  | .set _ _, _ => true
  | .remove names, m => names.any m.contains

/-- Whether the operation alters a target of a kind with these managed routes. -/
def Operation.alters (rollout : Rollout) (m : ManagedRoutes) (operation : Operation) : Bool :=
  match operation with
  | .setWeight _ _ => true
  | operation =>
    match operation.headerChange? rollout with
    | some (.ok change) => change.alters m
    | _ => false

/-- The targets that the operation works through. -/
def Operation.targets (plan : Plan) : Operation → List Target
  | .setWeight _ _ | .verifyWeight _ _ => plan.targets
  | .setHeaderRoute _ | .removeManagedRoutes => plan.headerTargets
  | .updateHash => []

/-- The operation alters no target that comes before the first one whose managed routes cannot be
read. -/
def Operation.Spares (rollout : Rollout) (c : Cluster) (plan : Plan) (operation : Operation) :
    Prop :=
  ∀ t ∈ (operation.targets plan).takeWhile fun t => (c.registry plan.key t.kind).isOk,
    ∀ m, c.registry plan.key t.kind = .ok m → operation.alters rollout m = false

section

variable {rollout : Rollout} {plan : Plan} {s s' : FaultyCluster} {e : RoutingError}

namespace Router

/-- Weights alter every target that they can be set at. -/
theorem visit_setWeightOf (rollout : Rollout) (plan : Plan) (document : Option Document)
    (desired : Int) (destinations : List WeightDestination) (t : Target) (u : Unit)
    (hs : s.cluster.WellFormed) :
    Visit (fun c (_ : Unit) => c.WellFormed) ((injectedRules document t).map fun _ => true)
      s.cluster u
      ((setWeightOf rollout plan document desired destinations t).runOn s).1
      ((setWeightOf rollout plan document desired destinations t).runOn s).2.cluster := by
  rcases @runOn_setWeightOf rollout plan document desired destinations s hs t with
    ⟨e, s', he, hsame⟩ | ⟨route, skip, route', -, hr, hskip, hweigh, he⟩
  · rw [he]
    by_cases hrejection : e.isRejection
    · rw [hsame]
      apply Visit.rejected
      rw [eq_error_of_setWeightOf hrejection he]
      rfl
    · exact .failed (by simpa using hrejection)
  · rw [he]
    apply Visit.altered
    · rw [hskip]
      rfl
    · exact hs.putRoute ((hs.route_isAt hr).of_sameShape (sameShape_of_reweigh hweigh))
    · exact Nat.lt_succ_self _

/-- A change alters a target if there is something to change. -/
theorem alters_of_on {change : HeaderChange} {t : Target} {registry : ManagedRoutes}
    {route : Route} {x : Option RouteChange}
    (h : change.on rollout t registry route = .ok x) : change.alters registry = x.isSome := by
  cases change with
  | set name headers =>
    obtain ⟨_, _, _, rfl⟩ := HeaderChange.on_set_eq_ok.1 h
    rfl
  | remove names =>
    obtain ⟨removal, hfold, rfl⟩ := HeaderChange.on_remove_eq_ok.1 h
    rw [HeaderChange.alters]
    cases hchanged : removal.changed with
    | false => simpa using not_contains_of_removal hfold hchanged
    | true =>
      by_contra hnone
      have hnot : ∀ name ∈ names, ¬ registry.contains name := by simpa using hnone
      have hsame := removal_of_not_contains (r := { registry, rules := route.rules }) t.name hnot
      rw [hsame] at hfold
      cases hfold
      cases hchanged

theorem visit_changeTarget (rollout : Rollout) (plan : Plan) (change : HeaderChange)
    {document : Document} {t : Target} (ht : t.takesHeaderRoutes) (hs : s.cluster.WellFormed)
    (hd : s.cluster.documents.get? plan.key = some document) :
    Visit (fun c d => c.WellFormed ∧ c.documents.get? plan.key = some d)
      ((ManagedRoutes.load document t.kind.registryKey).map change.alters) s.cluster document
      ((changeTarget rollout plan change document t).runOn s).1
      ((changeTarget rollout plan change document t).runOn s).2.cluster := by
  have houtcome : Outcome rollout change plan.key document s.cluster t
      ((changeTarget rollout plan change document t).runOn s).1 _ :=
    outcome_changeTarget hs rfl hd t
  rcases hrun : (changeTarget rollout plan change document t).runOn s with ⟨x, c', failures⟩
  rw [hrun] at houtcome
  cases x with
  | error e =>
    by_cases hrejection : e.isRejection
    · have hload := eq_error_of_changeTarget hs ht hrejection hrun
      cases houtcome with
      | refused _ =>
        apply Visit.rejected
        rw [hload]
        rfl
      | tried _ hload' _ _ => cases hload.symm.trans hload'
    · exact .failed (by simpa using hrejection)
  | ok document' =>
    obtain ⟨_, _, _, hchanged⟩ := changed_of_outcome hs hd houtcome
    cases houtcome with
    | unchanged _ hload hon =>
      apply Visit.kept
      rw [hload]
      exact congrArg Except.ok (alters_of_on hon)
    | tried _ hload hon hcommitted =>
      apply Visit.altered
      · rw [hload]
        exact congrArg Except.ok (alters_of_on hon)
      · exact ⟨hchanged.wellFormed, hchanged.stored⟩
      · cases hcommitted
        show s.cluster.versions < s.cluster.versions + 1 + 1
        omega

end Router

/-! ### Whether anything has been written -/

/-- Whether something has been written is decided by the targets that come before the first one
that cannot be worked on. A registry document that has just been created has no such target. -/
theorem unchanged_iff_spares (operation : Operation) {c c₁ c' : Cluster}
    {check : Target → Except RoutingError Bool}
    (hcheck : ∀ t, check t = (c.registry plan.key t.kind).map (operation.alters rollout))
    (hstart : c₁ = c ∨ c.documents.get? plan.key = none ∧ c.versions < c₁.versions)
    (hcases : (∀ t ∈ (operation.targets plan).takeWhile fun t => (check t).isOk,
            check t = .ok false) ∧
          (∃ t ∈ operation.targets plan, check t = .error e) ∧ c' = c₁ ∨
        (∃ t ∈ (operation.targets plan).takeWhile fun t => (check t).isOk, check t = .ok true) ∧
          c₁.versions < c'.versions) :
    c' = c ↔ operation.Spares rollout c plan := by
  have hreached : ((operation.targets plan).takeWhile fun t => (check t).isOk) =
      (operation.targets plan).takeWhile fun t => (c.registry plan.key t.kind).isOk := by
    congr 1
    funext t
    rw [hcheck]
    cases c.registry plan.key t.kind <;> rfl
  rw [hreached] at hcases
  rcases hcases with ⟨hkept, ⟨t, -, ht⟩, rfl⟩ | ⟨⟨t, ht, halters⟩, hlater⟩
  · have hsame : c' = c := by
      apply hstart.resolve_right
      rintro ⟨hnone, -⟩
      rw [hcheck, Cluster.registry, hnone] at ht
      cases ht
    refine iff_of_true hsame ?_
    intro t ht m hm
    have hthis := hkept t ht
    rw [hcheck, hm] at hthis
    exact Except.ok.inj hthis
  · apply iff_of_false
    · rintro rfl
      rcases hstart with rfl | ⟨-, hbefore⟩ <;> omega
    · intro hspares
      rw [hcheck] at halters
      obtain ⟨m, hm, htrue⟩ := Except.map_eq_ok.1 halters
      rw [hspares t ht m hm] at htrue
      cases htrue

end

namespace Router

variable {rollout : Rollout} {s s' : FaultyCluster} {e : RoutingError}

/-- There is one plan that the request is resolved to. -/
theorem forall_plan_iff {plan : Plan} {s₁ : FaultyCluster} {P : Plan → Prop}
    (hkey : ∃ key, e = .documentDecode key)
    (hplan : (resolve rollout).runOn s = (.ok plan, s₁)) :
    (∀ key plan s₁, e = .documentDecode key → (resolve rollout).runOn s = (.ok plan, s₁) → P plan) ↔
      P plan := by
  obtain ⟨key, hkey⟩ := hkey
  constructor
  · intro h
    exact h key plan s₁ hkey hplan
  · intro h key' plan' s₂ _ hplan'
    cases hplan.symm.trans hplan'
    exact h

theorem unchanged_iff_of_setWeight {desired : Int} {destinations : List WeightDestination}
    (hs : s.cluster.WellFormed) (he : e.isRejection)
    (hrun : (setWeight rollout desired destinations).runOn s = (.error e, s')) :
    s'.cluster = s.cluster ↔ ∀ key plan s₁, e = .documentDecode key →
      (resolve rollout).runOn s = (.ok plan, s₁) →
        (Operation.setWeight desired destinations).Spares rollout s.cluster plan := by
  rcases runOn_setWeight_cases rollout desired destinations s with
    ⟨e', s₂, hrun', hsame, hwhy⟩ | ⟨plan, s₁, document, hplan, hdocument, hrun'⟩
  · cases hrun.symm.trans hrun'
    refine iff_of_true hsame ?_
    intro key plan s₁ hkey hplan
    rcases hwhy with ⟨s₂, hresolve⟩ | hne
    · cases hresolve.symm.trans hplan
    · exact absurd hkey (hne key)
  rw [hrun', forM_eq_foldlM] at hrun
  obtain ⟨⟨u, t, ht, hcheck⟩, hcases⟩ := rejected_of_foldlM (fun c _ => c.WellFormed)
    (fun _ t => (injectedRules document t).map fun _ => true)
    (fun t _ u s hs => visit_setWeightOf rollout plan document desired destinations t u hs)
    (s := ⟨s.cluster, s₁.failures.tail⟩) hs he hrun
  have hstored : document = s.cluster.documents.get? plan.key := by
    apply hdocument.resolve_right
    rintro ⟨rfl, -⟩
    cases hcheck
  subst hstored
  have hregistry : ∀ t : Target, ((injectedRules (s.cluster.documents.get? plan.key) t).map
      fun _ => true) = (s.cluster.registry plan.key t.kind).map
        ((Operation.setWeight desired destinations).alters rollout ·) := by
    intro t
    rw [injectedRules_get?]
    cases s.cluster.registry plan.key t.kind <;> rfl
  have hkey : ∃ key, e = .documentDecode key := by
    rw [hregistry, Cluster.registry_eq_load] at hcheck
    exact ⟨_, eq_documentDecode_of_map hcheck⟩
  rw [forall_plan_iff hkey hplan]
  exact unchanged_iff_spares (.setWeight desired destinations) hregistry (.inl rfl) hcases

theorem alters_of_headerChange? {operation : Operation} {change? : Except RoutingError HeaderChange}
    (hop : operation.headerChange? rollout = some change?) (m : ManagedRoutes) :
    operation.alters rollout m = change?.toOption.any (·.alters m) := by
  unfold Operation.alters
  split
  · cases hop
  · rw [hop]
    cases change? <;> rfl

theorem targets_of_headerChange? {operation : Operation}
    {change? : Except RoutingError HeaderChange}
    (hop : operation.headerChange? rollout = some change?) (plan : Plan) :
    operation.targets plan = plan.headerTargets := by
  cases operation <;> first | rfl | cases hop

/-- A registry document that is created was not there. -/
theorem created_of_getOrCreateDocument {plan : Plan} {d : Document}
    (h : (getOrCreateDocument plan).runOn s = (.ok d, s')) :
    s'.cluster = s.cluster ∨ s.cluster.documents.get? plan.key = none ∧
      s.cluster.versions < s'.cluster.versions := by
  rcases getOrCreateDocument_cases s plan with
    ⟨_, _, he, -⟩ | ⟨_, _, hd, -, hsame⟩ | ⟨_, hd, hnone, hcreated⟩
  · cases h.symm.trans he
  · cases h.symm.trans hd
    exact .inl hsame
  · cases h.symm.trans hd
    exact .inr ⟨hnone, hcreated ▸ Nat.lt_succ_self _⟩

/-- Once the request is resolved, header routes are refused only because managed routes cannot be
read. -/
theorem unchanged_iff_of_changeTargets {operation : Operation} {change : HeaderChange}
    (hop : operation.headerChange? rollout = some (.ok change)) (hs : s.cluster.WellFormed)
    (he : e.isRejection) {plan : Plan}
    (hrun : (changeTargets rollout plan change).runOn s = (.error e, s')) :
    (∃ key, e = .documentDecode key) ∧
      (s'.cluster = s.cluster ↔ operation.Spares rollout s.cluster plan) := by
  unfold changeTargets at hrun
  rw [Call.runOn_bind_ok (Call.runOn_acquire ..)] at hrun
  rcases Call.runOn_bind_eq_error.1 hrun with hrun | ⟨d, s₁, hd, hrun⟩
  · rw [not_rejection_of_getOrCreateDocument hrun] at he
    cases he
  rcases Call.runOn_bind_eq_error.1 hrun with hrun | ⟨_, _, -, hrun⟩
  swap
  · cases hrun
  rcases runOn_getOrCreateDocument hs plan with
    ⟨e', herror, -⟩ | ⟨d', s₂, hd', hs₁, hget, -, hdocument, -⟩
  · rw [hd] at herror
    cases herror
  cases hd.symm.trans hd'
  obtain ⟨⟨d', t, ht, hcheck⟩, hcases⟩ := rejected_of_foldlM
    (fun c d => c.WellFormed ∧ c.documents.get? plan.key = some d)
    (fun d t => (ManagedRoutes.load d t.kind.registryKey).map change.alters)
    (fun t (ht : t ∈ plan.headerTargets) d s hI =>
      visit_changeTarget rollout plan change (List.mem_filter.1 ht).2 hI.1 hI.2)
    ⟨hs₁, hget⟩ he hrun
  -- A document that has just been created reads as no document.
  have hregistry : ∀ t : Target, (ManagedRoutes.load d t.kind.registryKey).map change.alters =
      (s.cluster.registry plan.key t.kind).map (operation.alters rollout ·) := by
    intro t
    have hload : ManagedRoutes.load d t.kind.registryKey = s.cluster.registry plan.key t.kind := by
      rw [← Cluster.registry_of_get? hget, Cluster.registry_eq_load, Cluster.registry_eq_load]
      exact congrArg (ManagedRoutes.load · t.kind.registryKey) hdocument
    rw [hload]
    congr 1
    funext m
    rw [alters_of_headerChange? hop]
    simp [Except.toOption]
  refine ⟨⟨_, eq_documentDecode_of_map hcheck⟩, ?_⟩
  rw [← targets_of_headerChange? hop plan] at hcases
  exact unchanged_iff_spares operation hregistry (created_of_getOrCreateDocument hd) hcases

theorem unchanged_iff_of_headerChange {operation : Operation}
    {change? : Except RoutingError HeaderChange}
    (hop : operation.headerChange? rollout = some change?) (hs : s.cluster.WellFormed)
    (he : e.isRejection) (hrun : (perform rollout operation).runOn s = (.error e, s')) :
    s'.cluster = s.cluster ↔ ∀ key plan s₁, e = .documentDecode key →
      (resolve rollout).runOn s = (.ok plan, s₁) → operation.Spares rollout s.cluster plan := by
  rw [perform_headerChange hop] at hrun
  have hsame := reads_resolve rollout s
  rcases Call.runOn_bind_eq_error.1 hrun with hresolve | ⟨plan, s₁, hplan, hrun⟩
  · rw [hresolve] at hsame
    refine iff_of_true hsame ?_
    intro key plan s₁ _ hplan
    cases hresolve.symm.trans hplan
  rw [hplan] at hsame
  rw [← show s₁.cluster = s.cluster from hsame]
  rcases Call.runOn_bind_eq_error.1 hrun with hchange | ⟨change, s₂, hchange, hrun⟩
  · obtain ⟨rfl, rfl⟩ := Call.runOn_ofExcept_eq_iff.1 hchange
    refine iff_of_true rfl ?_
    intro key plan' s₁ _ _ t _ m _
    rw [alters_of_headerChange? hop]
    rfl
  obtain ⟨rfl, rfl⟩ := Call.runOn_ofExcept_eq_iff.1 hchange
  rcases Call.runOn_bind_eq_error.1 hrun with hrun | ⟨_, _, -, hrun⟩
  · obtain ⟨hkey, hiff⟩ := unchanged_iff_of_changeTargets hop (hsame ▸ hs) he hrun
    rw [forall_plan_iff hkey hplan]
    exact hiff
  · cases hrun

end Router

/-- A request that is refused has left everything as it was just if it alters no target that comes
before the first one whose managed routes cannot be read. So it has, unless it is refused because
these cannot be read. -/
theorem unchanged_iff_of_rejected {rollout : Rollout} {operation : Operation}
    {s s' : FaultyCluster} {e : RoutingError} (hs : s.cluster.WellFormed) (he : e.isRejection)
    (hrun : (perform rollout operation).runOn s = (.error e, s')) :
    s'.cluster = s.cluster ↔ ∀ key plan s₁, e = .documentDecode key →
      (resolve rollout).runOn s = (.ok plan, s₁) → operation.Spares rollout s.cluster plan := by
  cases operation with
  | setWeight desired destinations =>
    rcases Call.runOn_bind_eq_error.1 hrun with hrun | ⟨_, _, -, hrun⟩
    · exact unchanged_iff_of_setWeight hs he hrun
    · cases hrun
  | setHeaderRoute header =>
    obtain ⟨change?, hop⟩ : ∃ change?,
        (Operation.setHeaderRoute header).headerChange? rollout = some change? := by
      simp only [Operation.headerChange?]
      split <;> exact ⟨_, rfl⟩
    exact unchanged_iff_of_headerChange hop hs he hrun
  | removeManagedRoutes => exact unchanged_iff_of_headerChange rfl hs he hrun
  | verifyWeight desired destinations =>
    have hreads := ((reads_verifyWeight rollout desired destinations).bind
      fun applied => Call.Reads.pure (some applied)) s
    have hsame : s'.cluster = s.cluster := by
      rw [← hreads]
      exact congrArg (fun p => p.2.cluster) hrun.symm
    refine iff_of_true hsame ?_
    intro _ _ _ _ _ t _ m _
    rfl
  | updateHash => cases hrun

/-- A cluster with routes of two kinds. The text that is to hold the managed routes of the second
kind is none. -/
def mixedCluster : Cluster :=
  ((Cluster.putRoute {} ⟨.http, "shop", "web"⟩ (pairRoute "web")).putRoute ⟨.grpc, "shop", "api"⟩
    { pairRoute "api" with kind := .grpc }).putDocument pairPlan.key
      ((Cluster.created pairPlan.key).setText RouteKind.grpc.registryKey "?")

/-- A rollout that shapes both. -/
def mixedRollout : Rollout where
  name := "shop"
  space := "shop"
  canaryService := "canary"
  stableService := "stable"
  managedRoutes := [⟨"beta"⟩]
  trafficRouting := .object [("httpRoute", .string "web"), ("grpcRoute", .string "api")]

/-- The plan that the rollout is resolved to. -/
def mixedPlan : Plan where
  space := "shop"
  document := "argo-gatewayapi-configmap"
  settings := { http := { single := some "web" }, grpc := { single := some "api" } }
  targets := [⟨.http, "web", true⟩, ⟨.grpc, "api", true⟩]

theorem unchanged_iff_of_rejected_mixed :
    ((perform mixedRollout .removeManagedRoutes).runOn mixedCluster.undisturbed).1 =
        .error (.documentDecode "grpcManagedRoutes") ∧
      ((perform mixedRollout .removeManagedRoutes).runOn mixedCluster.undisturbed).2.cluster =
        mixedCluster := by
  have hwell : mixedCluster.WellFormed :=
    ((Cluster.WellFormed.empty.putRoute ⟨rfl, rfl, rfl⟩).putRoute ⟨rfl, rfl, rfl⟩).putDocument
      ⟨rfl, rfl⟩
  have herror : ((perform mixedRollout .removeManagedRoutes).runOn mixedCluster.undisturbed).1 =
      .error (.documentDecode "grpcManagedRoutes") := by decide +kernel
  refine ⟨herror, (unchanged_iff_of_rejected (s := mixedCluster.undisturbed) hwell rfl
    (Prod.ext herror rfl)).2 ?_⟩
  intro key plan s₁ _ hplan t ht m hm
  have hmixed : (resolve mixedRollout).runOn mixedCluster.undisturbed =
      (.ok mixedPlan, mixedCluster.undisturbed) := rfl
  cases hmixed.symm.trans hplan
  have hreached : (Operation.removeManagedRoutes.targets mixedPlan).takeWhile
      (fun t => (mixedCluster.registry mixedPlan.key t.kind).isOk) = [⟨.http, "web", true⟩] := by
    decide +kernel
  cases List.mem_singleton.1 (hreached ▸ ht)
  have hregistry : mixedCluster.registry mixedPlan.key .http = .ok .empty := by decide +kernel
  cases hregistry.symm.trans hm
  decide +kernel

/-- Weights are written to the first route before it is noticed that the managed routes of the
second one cannot be read. -/
theorem written_before_rejected :
    ((perform mixedRollout (.setWeight 30 [])).runOn mixedCluster.undisturbed).1 =
        .error (.documentDecode "grpcManagedRoutes") ∧
      (mixedCluster.routes.get? ⟨.http, "shop", "web"⟩).map Route.backendWeights =
        some [[("canary", none), ("stable", none)]] ∧
      (((perform mixedRollout (.setWeight 30 [])).runOn
          mixedCluster.undisturbed).2.cluster.routes.get? ⟨.http, "shop", "web"⟩).map
          Route.backendWeights =
        some [[("canary", some 30), ("stable", some 70)]] := by
  refine ⟨?_, ?_, ?_⟩ <;> decide +kernel

end CanaryRouting
