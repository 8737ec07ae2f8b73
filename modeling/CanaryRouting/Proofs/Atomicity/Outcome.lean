import CanaryRouting.Proofs.Cluster.Registry
import CanaryRouting.Proofs.Router.Runs

/-!
# How the change of one target ends

A change of one target can end in five ways, whichever of its requests fail (`Outcome`). In four of
them the route and the registry document belong together: nothing had to be changed, both were
changed, or neither was, since the first write failed or was undone. In the fifth the route was
changed and could not be restored, and then the error says so.
-/

namespace CanaryRouting

open Program Router

section Requests

variable {s : FaultyCluster}

/-- A route that has a name is read, or the request fails. -/
theorem runOn_getRoute (s : FaultyCluster) (k : RouteKey) :
    (∃ e, (Call.ofStore (Store.getRoute k.space k.kind k.name)).runOn s =
        (.error (.store e), ⟨s.cluster, s.failures.tail⟩)) ∨
      ∃ r, k.name ≠ "" ∧ s.cluster.routes.get? k = some r ∧
        (Call.ofStore (Store.getRoute k.space k.kind k.name)).runOn s =
          (.ok r, ⟨s.cluster, s.failures.tail⟩) := by
  have hrun : (Call.ofStore (Store.getRoute k.space k.kind k.name)).runOn s = _ :=
    Call.runOn_request (.getRoute k.space k.kind k.name) s
  rw [hrun]
  rcases s.respond_cases (.getRoute k.space k.kind k.name) with ⟨e, he, -⟩ | he
  · rw [he]
    exact .inl ⟨_, rfl⟩
  · rcases Cluster.respond_getRoute_cases s.cluster k with ⟨e, he'⟩ | ⟨r, hname, hr, he'⟩ <;>
      rw [he, he']
    · exact .inl ⟨_, rfl⟩
    · exact .inr ⟨r, hname, hr, rfl⟩

theorem runOn_getDocument_eq (s : FaultyCluster) (space name : String) :
    (Call.ofStore (Store.getDocument space name)).runOn s =
      (match (FaultyCluster.respond (.getDocument space name) s).1.mapError
          (StoreError.ofFailure (Request.getDocument space name).what) with
        | .ok d => .ok (some d)
        | .error (.notFound _) => .ok none
        | .error e => .error (.store e), (FaultyCluster.respond (.getDocument space name) s).2) := by
  have h : (Call.ofStore (Store.getDocument space name)).runOn s =
      (Except.mapError .store (match (FaultyCluster.respond (.getDocument space name) s).1.mapError
          (StoreError.ofFailure (Request.getDocument space name).what) with
        | .ok document => .ok (some document)
        | .error (.notFound _) => .ok none
        | .error error => .error error),
        (FaultyCluster.respond (.getDocument space name) s).2) := rfl
  rw [h]
  split <;> rfl

/-- A failure to read a document may say that there is none. -/
theorem runOn_getDocument_of_error {key : DocumentKey} {failure : ApiFailure}
    {s' : FaultyCluster}
    (h : FaultyCluster.respond (.getDocument key.space key.name) s = (.error failure, s')) :
    (∃ e, (Call.ofStore (Store.getDocument key.space key.name)).runOn s = (.error (.store e), s')) ∨
      (Call.ofStore (Store.getDocument key.space key.name)).runOn s = (.ok none, s') := by
  rw [runOn_getDocument_eq, h]
  simp only [Except.mapError]
  cases StoreError.ofFailure (Request.getDocument key.space key.name).what failure with
  | notFound what => exact .inr rfl
  | conflict what => exact .inl ⟨_, rfl⟩
  | failed what => exact .inl ⟨_, rfl⟩

/-- A document is read, or there is said to be none, or the request fails. -/
theorem runOn_getDocument (s : FaultyCluster) (key : DocumentKey) :
    (∃ e, (Call.ofStore (Store.getDocument key.space key.name)).runOn s =
        (.error (.store e), ⟨s.cluster, s.failures.tail⟩)) ∨
      ∃ d?, (∀ d ∈ d?, s.cluster.documents.get? key = some d) ∧
        (Call.ofStore (Store.getDocument key.space key.name)).runOn s =
          (.ok d?, ⟨s.cluster, s.failures.tail⟩) := by
  rcases s.respond_cases (.getDocument key.space key.name) with ⟨e, he, -⟩ | he
  · exact (runOn_getDocument_of_error he).imp id fun h => ⟨none, fun _ hd => (nomatch hd), h⟩
  · rcases Cluster.respond_getDocument_cases s.cluster key with ⟨e, he'⟩ | ⟨d, hd, he'⟩ <;>
      rw [he'] at he
    · exact (runOn_getDocument_of_error he).imp id fun h => ⟨none, fun _ hd => (nomatch hd), h⟩
    · refine .inr ⟨some d, fun _ h => by cases h; exact hd, ?_⟩
      rw [runOn_getDocument_eq, he]
      rfl

/-- An update of a route is carried out on the route that it was made from, or it fails. -/
theorem respond_updateRoute_stored (hc : s.cluster.WellFormed) {k : RouteKey} {r : Route}
    (hr : s.cluster.routes.get? k = some r) (r' : Route) (hat : r'.IsAt k) (hversion : r'.version = r.version) :
    (∃ e, FaultyCluster.respond (.updateRoute k.space r') s =
        (.error e, ⟨s.cluster, s.failures.tail⟩)) ∨
      FaultyCluster.respond (.updateRoute k.space r') s =
        (.ok (r'.withVersion s.cluster.fresh), ⟨s.cluster.putRoute k r', s.failures.tail⟩) := by
  rcases s.respond_cases (.updateRoute k.space r') with ⟨e, he, -⟩ | he
  · exact .inl ⟨e, he⟩
  · have hne : r'.version ≠ none := hversion ▸ (hc.route_issued hr).ne_none
    rcases Cluster.respond_updateRoute_cases s.cluster hat hne with ⟨e, he'⟩ | ⟨x, -, -, -, he'⟩ <;>
      rw [he, he']
    · exact .inl ⟨e, rfl⟩
    · exact .inr rfl

/-- An update of the document is carried out on the document that it was made from, or it
fails. -/
theorem respond_updateDocument_stored (hc : s.cluster.WellFormed) {key : DocumentKey}
    {d : Document} (hd : s.cluster.documents.get? key = some d) (d' : Document) (hat : d'.IsAt key)
    (hversion : d'.version = d.version) :
    (∃ e, FaultyCluster.respond (.updateDocument key.space d') s =
        (.error e, ⟨s.cluster, s.failures.tail⟩)) ∨
      FaultyCluster.respond (.updateDocument key.space d') s =
        (.ok (d'.withVersion s.cluster.fresh), ⟨s.cluster.putDocument key d', s.failures.tail⟩) := by
  rcases s.respond_cases (.updateDocument key.space d') with ⟨e, he, -⟩ | he
  · exact .inl ⟨e, he⟩
  · have hne : d'.version ≠ none := hversion ▸ (hc.document_issued hd).ne_none
    rcases Cluster.respond_updateDocument_cases s.cluster hat hne with
      ⟨e, he'⟩ | ⟨x, -, -, -, he'⟩ <;> rw [he, he']
    · exact .inl ⟨e, rfl⟩
    · exact .inr rfl

end Requests

/-! ### Commits -/

/-- How a commit can end: its result, and the cluster that it leaves. -/
inductive Committed (k : RouteKey) (key : DocumentKey) (change : RouteChange) (document : Document)
    (c : Cluster) : Except RoutingError Document → Cluster → Prop where
  /-- Both writes were carried out. -/
  | both : Committed k key change document c
    (.ok ((change.registryAfter.store document k.kind.registryKey).withVersion
      (c.putRoute k change.after).fresh))
    ((c.putRoute k change.after).putDocument key
      (change.registryAfter.store document k.kind.registryKey))
  /-- The route was refused. -/
  | neither {e : RoutingError} : e.isInconsistent = false →
    Committed k key change document c (.error e) c
  /-- The document was refused, and the earlier route was written again. -/
  | undone {e : RoutingError} {v : Option String} : e.isInconsistent = false →
    Committed k key change document c (.error e)
      ((c.putRoute k change.after).putRoute k (change.before.withVersion v))
  /-- The document was refused, and the earlier route was, too. -/
  | left {e : RoutingError} : e.isInconsistent = true →
    Committed k key change document c (.error e) (c.putRoute k change.after)

theorem committed_commit {s : FaultyCluster} {plan : Plan} {k : RouteKey} {key : DocumentKey}
    {change : RouteChange} {document : Document} {mayAdd : String → Rule → Prop}
    (hc : s.cluster.WellFormed) (hspace : plan.space = key.space) (hk : k.space = key.space)
    (hr : s.cluster.routes.get? k = some change.before)
    (hd : s.cluster.documents.get? key = some document) (hproper : change.Proper k mayAdd) :
    Committed k key change document s.cluster
      ((commit plan document k.kind.registryKey change).runOn s).1
      ((commit plan document k.kind.registryKey change).runOn s).2.cluster := by
  have hat := hproper.after_isAt (hc.route_isAt hr)
  have hc' : (s.cluster.putRoute k change.after).WellFormed := hc.putRoute hat
  have hforward := hc.document_isAt hd
  rw [Call.runOn, run_commit, hspace, ← hk]
  simp only [run_ask]
  rcases respond_updateRoute_stored hc hr change.after hat hproper.version_after with
    ⟨e, he⟩ | he <;> rw [he]
  · exact .neither rfl
  simp only [run_ask]
  rw [hk]
  rcases respond_updateDocument_stored (s := ⟨s.cluster.putRoute k change.after, s.failures.tail⟩)
    hc' hd (change.registryAfter.store document k.kind.registryKey)
    ⟨hforward.space, hforward.name⟩ rfl with ⟨e, he⟩ | he <;> rw [he]
  · simp only [run_ask]
    have hv : (change.after.withVersion s.cluster.fresh).metadata.resourceVersion =
      s.cluster.fresh := rfl
    rw [← hk, hv]
    have hback := (hc.route_isAt hr).withVersion s.cluster.fresh
    rcases respond_updateRoute_stored
      (s := ⟨s.cluster.putRoute k change.after, s.failures.tail.tail⟩) hc'
      (Cluster.get?_putRoute_self k _) (change.before.withVersion s.cluster.fresh) hback rfl with
      ⟨e', he'⟩ | he' <;> rw [he']
    · exact .left rfl
    · exact .undone rfl
  · exact .both

/-! ### Targets -/

/-- How the change of a target can end. -/
inductive Outcome (rollout : Rollout) (change : HeaderChange) (key : DocumentKey)
    (document : Document) (c : Cluster) (t : Target) :
    Except RoutingError Document → Cluster → Prop where
  /-- There was nothing to change. -/
  | unchanged {route : Route} {registry : ManagedRoutes} :
    c.routes.get? (t.keyIn key.space) = some route →
    ManagedRoutes.load document t.kind.registryKey = .ok registry →
    change.on rollout t registry route = .ok none →
    Outcome rollout change key document c t (.ok document) c
  /-- It was not known what to change. -/
  | refused {e : RoutingError} : e.isInconsistent = false →
    Outcome rollout change key document c t (.error e) c
  /-- The change was committed, or that was tried. -/
  | tried {route : Route} {registry : ManagedRoutes} {routeChange : RouteChange}
    {x : Except RoutingError Document} {c' : Cluster} :
    c.routes.get? (t.keyIn key.space) = some route →
    ManagedRoutes.load document t.kind.registryKey = .ok registry →
    change.on rollout t registry route = .ok (some routeChange) →
    Committed (t.keyIn key.space) key routeChange document c x c' →
    Outcome rollout change key document c t x c'

theorem outcome_changeTarget {s : FaultyCluster} {rollout : Rollout} {plan : Plan}
    {change : HeaderChange} {key : DocumentKey} {document : Document} (hc : s.cluster.WellFormed)
    (hspace : plan.space = key.space) (hd : s.cluster.documents.get? key = some document)
    (t : Target) :
    Outcome rollout change key document s.cluster t
      ((changeTarget rollout plan change document t).runOn s).1
      ((changeTarget rollout plan change document t).runOn s).2.cluster := by
  unfold changeTarget
  cases hload : ManagedRoutes.load document t.kind.registryKey with
  | error e =>
    rw [Call.runOn_bind_error (Call.runOn_ofExcept _ s)]
    exact .refused (RoutingError.isInconsistent_of_isLocal (local_of_load hload))
  | ok registry =>
    rw [Call.runOn_bind_ok (Call.runOn_ofExcept _ s), hspace]
    rcases runOn_getRoute s (t.keyIn key.space) with ⟨e, he⟩ | ⟨route, -, hr, he⟩ <;>
      simp only [Target.keyIn] at he
    · rw [Call.runOn_bind_error he]
      exact .refused rfl
    rw [Call.runOn_bind_ok he]
    cases hon : change.on rollout t registry route with
    | error e =>
      rw [Call.runOn_bind_error (Call.runOn_ofExcept _ _)]
      exact .refused (RoutingError.isInconsistent_of_isLocal (local_of_on hon))
    | ok routeChange? =>
      rw [Call.runOn_bind_ok (Call.runOn_ofExcept _ _)]
      cases routeChange? with
      | none => exact .unchanged hr hload hon
      | some routeChange =>
        obtain ⟨rfl, -, hproper⟩ := proper_of_on hon key.space
        exact .tried hr hload hon (committed_commit
          (s := ⟨s.cluster, s.failures.tail⟩) hc hspace rfl hr hd hproper)

end CanaryRouting
