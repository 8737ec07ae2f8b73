import CanaryRouting.Proofs.Router.Changes
import CanaryRouting.Router.Operation

/-!
# One shape for setting and removing

Setting a header route and removing managed routes differ only in what they make of one target:
`HeaderChange.on` says what the route and the managed routes are to be, or that nothing is to be
changed. Around that both work alike, `changeTargets`, and the operations of the router are
instances of it (`perform_headerChange`).
-/

namespace CanaryRouting

open Router

/-- What is to be done to every target that takes header routes. -/
inductive HeaderChange where
  /-- A header route of this name is added, with these header predicates. -/
  | set (name : String) (headers : List HeaderPredicate)
  /-- The header routes of these names are removed. -/
  | remove (names : List String)

/-- Where the route of a target is stored. -/
def Target.keyIn (t : Target) (space : String) : RouteKey := ⟨t.kind, space, t.name⟩

/-- What the change makes of one target; nothing if there is nothing to change. -/
def HeaderChange.on (change : HeaderChange) (rollout : Rollout) (target : Target)
    (registry : ManagedRoutes) (route : Route) : Except RoutingError (Option RouteChange) :=
  match change with
  | .set name headers =>
    (inject rollout headers route).map fun (after, index) =>
      some ⟨route, after, registry, registry.record name target.name index⟩
  | .remove names =>
    (names.foldlM (Removal.remove target.name) { registry, rules := route.rules }).map
      fun removal =>
        if removal.changed then
          some ⟨route, route.withRules removal.rules, registry, removal.registry⟩
        else none

theorem HeaderChange.on_set (name : String) (headers : List HeaderPredicate) (rollout : Rollout)
    (target : Target) (registry : ManagedRoutes) (route : Route) :
    (set name headers).on rollout target registry route =
      (inject rollout headers route).map fun (after, index) =>
        some ⟨route, after, registry, registry.record name target.name index⟩ := rfl

theorem HeaderChange.on_remove (names : List String) (rollout : Rollout) (target : Target)
    (registry : ManagedRoutes) (route : Route) :
    (remove names).on rollout target registry route =
      (names.foldlM (Removal.remove target.name) { registry, rules := route.rules }).map
        fun removal =>
          if removal.changed then
            some ⟨route, route.withRules removal.rules, registry, removal.registry⟩
          else none := rfl

/-- A header route is set by adding its rule and recording where it is. -/
theorem HeaderChange.on_set_eq_ok {name : String} {headers : List HeaderPredicate}
    {rollout : Rollout} {target : Target} {registry : ManagedRoutes} {route : Route}
    {x : Option RouteChange} :
    (set name headers).on rollout target registry route = .ok x ↔
      ∃ after index, inject rollout headers route = .ok (after, index) ∧
        some ⟨route, after, registry, registry.record name target.name index⟩ = x := by
  rw [on_set, Except.map_eq_ok, Prod.exists]

/-- Header routes are removed one after the other; it is a change only if one of them was
managed. -/
theorem HeaderChange.on_remove_eq_ok {names : List String} {rollout : Rollout} {target : Target}
    {registry : ManagedRoutes} {route : Route} {x : Option RouteChange} :
    (remove names).on rollout target registry route = .ok x ↔
      ∃ removal, names.foldlM (Removal.remove target.name) { registry, rules := route.rules } =
          .ok removal ∧
        (if removal.changed then
          some ⟨route, route.withRules removal.rules, registry, removal.registry⟩
        else none) = x := by
  rw [on_remove, Except.map_eq_ok]

/-- The change adds this rule under this name when it makes of the earlier route the later one. -/
def HeaderChange.Adds (change : HeaderChange) (rollout : Rollout) (before after : Route)
    (name : String) (rule : Rule) : Prop :=
  ∃ headers i, change = .set name headers ∧ inject rollout headers before = .ok (after, i) ∧
    after.rules[i]? = some rule

/-- The change that an operation asks for, if it is about header routes. -/
def Operation.headerChange? (rollout : Rollout) :
    Operation → Option (Except RoutingError HeaderChange)
  | .setHeaderRoute header =>
    if header.conditions.isEmpty then some (.ok (.remove [header.name]))
    else some ((headerPredicates header.conditions).map (.set header.name))
  | .removeManagedRoutes => some (.ok (.remove (rollout.managedRoutes.map ManagedRoute.name)))
  | _ => none

theorem Operation.headerChange?_setHeaderRoute (rollout : Rollout) (header : HeaderRoute) :
    (setHeaderRoute header).headerChange? rollout =
      some (if header.conditions.isEmpty then .ok (.remove [header.name])
        else (headerPredicates header.conditions).map (.set header.name)) :=
  (apply_ite some ..).symm

/-- Whether the error was found out without asking the server. -/
def RoutingError.isLocal : RoutingError → Bool
  | .store _ | .transaction _ => false
  | _ => true

theorem RoutingError.isInconsistent_of_isLocal {e : RoutingError} (h : e.isLocal) :
    e.isInconsistent = false := by
  cases e with
  | transaction failure => cases h
  | _ => rfl

/-- Whether the error says that a route does not have the references, or the recorded rules, that
are asked for. -/
def RoutingError.isMismatch : RoutingError → Bool
  | .noBackendRefs _ | .backendRefNotFound _ _ | .ruleNotFound _ _ _ | .registryEntryAbsent _
  | .managedRuleOutOfRange _ _ _ _ => true
  | _ => false

theorem RoutingError.isLocal_of_isMismatch {e : RoutingError} (h : e.isMismatch) : e.isLocal := by
  cases e <;> first | rfl | cases h

namespace Router

/-- Changes one target. -/
def changeTarget (rollout : Rollout) (plan : Plan) (change : HeaderChange) (document : Document)
    (target : Target) : Call Document := do
  let registry ← Call.ofExcept (ManagedRoutes.load document target.kind.registryKey)
  let route ← Call.ofStore (Store.getRoute plan.space target.kind target.name)
  match ← Call.ofExcept (change.on rollout target registry route) with
  | some routeChange => commit plan document target.kind.registryKey routeChange
  | none => return document

/-- Changes every target that takes header routes. -/
def changeTargets (rollout : Rollout) (plan : Plan) (change : HeaderChange) : Call Unit := do
  Call.acquire plan.space plan.document
  let document ← getOrCreateDocument plan
  let _ ← plan.headerTargets.foldlM (changeTarget rollout plan change) document

/-! ### The operations -/

theorem setHeaderRouteOf_eq (rollout : Rollout) (plan : Plan) (name : String)
    (headers : List HeaderPredicate) :
    setHeaderRouteOf rollout plan name headers = changeTarget rollout plan (.set name headers) := by
  funext document target
  unfold setHeaderRouteOf changeTarget
  refine bind_congr fun registry => bind_congr fun route => ?_
  rw [HeaderChange.on_set]
  cases inject rollout headers route <;> rfl

theorem removeRoutesOf_eq (rollout : Rollout) (plan : Plan) (names : List String) :
    removeRoutesOf plan names = changeTarget rollout plan (.remove names) := by
  funext document target
  unfold removeRoutesOf changeTarget
  refine bind_congr fun registry => bind_congr fun route => ?_
  rw [HeaderChange.on_remove]
  cases names.foldlM (Removal.remove target.name) { registry, rules := route.rules } with
  | error e => rfl
  | ok removal =>
    obtain ⟨registry', rules', changed⟩ := removal
    cases changed <;> rfl

theorem removeRoutes_eq (rollout : Rollout) (plan : Plan) (names : List String) :
    removeRoutes plan names = changeTargets rollout plan (.remove names) := by
  rw [removeRoutes, removeRoutesOf_eq rollout, changeTargets]

/-- An operation about header routes resolves its request, and changes the targets. -/
theorem perform_headerChange {rollout : Rollout} {operation : Operation}
    {change? : Except RoutingError HeaderChange}
    (h : operation.headerChange? rollout = some change?) :
    perform rollout operation = do
      let plan ← resolve rollout
      let change ← Call.ofExcept change?
      changeTargets rollout plan change
      return none := by
  cases operation with
  | setHeaderRoute header =>
    change (setHeaderRoute rollout header >>= fun _ => pure none) = _
    rw [setHeaderRoute, bind_assoc]
    refine bind_congr fun plan => ?_
    simp only [Operation.headerChange?] at h
    by_cases hempty : header.conditions.isEmpty
    · rw [if_pos hempty] at h ⊢
      cases h
      rw [removeRoutes_eq rollout]
      rfl
    · rw [if_neg hempty] at h ⊢
      cases h
      cases headerPredicates header.conditions with
      | error e => rfl
      | ok headers =>
        simp only [setHeaderRouteOf_eq]
        rfl
  | removeManagedRoutes =>
    cases h
    change (removeManagedRoutes rollout >>= fun _ => pure none) = _
    rw [removeManagedRoutes, bind_assoc]
    refine bind_congr fun plan => ?_
    rw [removeRoutes_eq rollout]
    rfl
  | setWeight desired destinations => cases h
  | verifyWeight desired destinations => cases h
  | updateHash => cases h

/-- What a change makes of one target is a proper change, and adds what the change adds. -/
theorem proper_of_on {rollout : Rollout} {target : Target} {registry : ManagedRoutes}
    {route : Route} {change : HeaderChange} {routeChange : RouteChange}
    (h : change.on rollout target registry route = .ok (some routeChange)) (space : String) :
    routeChange.before = route ∧ routeChange.registryBefore = registry ∧
      routeChange.Proper (target.keyIn space) (change.Adds rollout route routeChange.after) := by
  cases change with
  | set name headers =>
    obtain ⟨after, i, hinject, he⟩ := HeaderChange.on_set_eq_ok.1 h
    cases he
    exact ⟨rfl, rfl, (proper_of_inject hinject (target.keyIn space) registry name).mono
      fun _ _ h => ⟨headers, i, h.1 ▸ rfl, hinject, h.2⟩⟩
  | remove names =>
    obtain ⟨removal, hfold, he⟩ := HeaderChange.on_remove_eq_ok.1 h
    split at he <;> cases he
    exact ⟨rfl, rfl, (proper_of_remove (k := target.keyIn space) hfold).mono fun _ _ h => h.elim⟩

/-- Only setting a header route adds rules. -/
theorem injects_of_adds {rollout : Rollout} {operation : Operation} {change : HeaderChange}
    (hop : operation.headerChange? rollout = some (.ok change)) {before after : Route}
    {name : String} {rule : Rule} (h : change.Adds rollout before after name rule) :
    ∃ header, operation = .setHeaderRoute header ∧
      Injects rollout header before after name rule := by
  obtain ⟨headers, i, rfl, hinject, hrule⟩ := h
  cases operation with
  | setHeaderRoute header =>
    simp only [Operation.headerChange?] at hop
    split at hop
    · cases hop
    · obtain ⟨headers', hheaders, he⟩ := Except.map_eq_ok.1 (Option.some.inj hop)
      cases he
      exact ⟨header, rfl, rfl, headers, i, hheaders, hinject, hrule⟩
  | removeManagedRoutes => cases hop
  | setWeight desired destinations => cases hop
  | verifyWeight desired destinations => cases hop
  | updateHash => cases hop

/-! ### Errors

What is wrong with a target before anything is written is found out without asking the server.
-/

theorem eq_documentDecode_of_load {d : Document} {key : String} {e : RoutingError}
    (h : ManagedRoutes.load d key = .error e) : e = .documentDecode key := by
  unfold ManagedRoutes.load at h
  simp only at h
  split at h
  · cases h
  · obtain ⟨f, -, rfl⟩ := Except.mapError_eq_error.1 h
    rfl

theorem local_of_load {d : Document} {key : String} {e : RoutingError}
    (h : ManagedRoutes.load d key = .error e) : e.isLocal := by
  rw [eq_documentDecode_of_load h]
  rfl

theorem mismatch_of_injectHeaderRule {kind : RouteKind} {rules : List Rule}
    {canary stable : String} {headers : List HeaderPredicate} {e : RoutingError}
    (h : injectHeaderRule kind rules canary stable headers = .error e) : e.isMismatch := by
  unfold injectHeaderRule at h
  rcases Except.bind_eq_error.1 h with hf | ⟨base, -, h⟩
  · unfold findRuleWithServices at hf
    split at hf <;> cases hf
    rfl
  · dsimp only at h
    split at h <;> cases h
    rfl

/-- A kind of route that can carry header routes is not refused. -/
theorem mismatch_of_inject {rollout : Rollout} {headers : List HeaderPredicate} {route : Route}
    {e : RoutingError} (hkind : route.kind.supportsHeaderRoutes)
    (h : inject rollout headers route = .error e) : e.isMismatch := by
  rw [inject, if_pos hkind, Except.map_eq_error] at h
  exact mismatch_of_injectHeaderRule h

theorem mismatch_of_remove {route name : String} {r : Removal} {e : RoutingError}
    (h : Removal.remove route r name = .error e) : e.isMismatch := by
  unfold Removal.remove at h
  split at h
  · have hm := Except.map_eq_error.1 h
    unfold removeManagedRule at hm
    split at hm
    · cases hm; rfl
    · next i hi =>
      split at hm
      · cases hm; rfl
      · rw [ManagedRoutes.removeEntry, hi] at hm
        cases hm
  · cases h

theorem mismatch_of_removal {route : String} {names : List String} {r : Removal}
    {e : RoutingError} (h : names.foldlM (Removal.remove route) r = .error e) : e.isMismatch := by
  induction names generalizing r with
  | nil => cases h
  | cons name names ih =>
    rw [List.foldlM_cons] at h
    rcases Except.bind_eq_error.1 h with hr | ⟨r', -, hrest⟩
    · exact mismatch_of_remove hr
    · exact ih hrest

theorem mismatch_of_on_remove {rollout : Rollout} {names : List String} {t : Target}
    {registry : ManagedRoutes} {route : Route} {e : RoutingError}
    (h : (HeaderChange.remove names).on rollout t registry route = .error e) : e.isMismatch := by
  rw [HeaderChange.on_remove, Except.map_eq_error] at h
  exact mismatch_of_removal h

theorem mismatch_of_on {rollout : Rollout} {change : HeaderChange} {t : Target}
    {registry : ManagedRoutes} {route : Route} {e : RoutingError}
    (hkind : route.kind.supportsHeaderRoutes)
    (h : change.on rollout t registry route = .error e) : e.isMismatch := by
  cases change with
  | set name headers =>
    rw [HeaderChange.on_set, Except.map_eq_error] at h
    exact mismatch_of_inject hkind h
  | remove names => exact mismatch_of_on_remove h

theorem local_of_on {rollout : Rollout} {change : HeaderChange} {t : Target}
    {registry : ManagedRoutes} {route : Route} {e : RoutingError}
    (h : change.on rollout t registry route = .error e) : e.isLocal := by
  cases change with
  | set name headers =>
    by_cases hkind : route.kind.supportsHeaderRoutes
    · exact RoutingError.isLocal_of_isMismatch (mismatch_of_on hkind h)
    · rw [HeaderChange.on_set, inject, if_neg hkind] at h
      cases h
      rfl
  | remove names => exact RoutingError.isLocal_of_isMismatch (mismatch_of_on_remove h)

end Router

end CanaryRouting
