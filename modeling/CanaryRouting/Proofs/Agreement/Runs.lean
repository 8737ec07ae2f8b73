import CanaryRouting.Proofs.Agreement.Invariant

/-!
# The registry agrees with the routes after every run

Any number of routers work with one registry document, and their requests are answered in any
order, or fail. If no operation reports that it could not undo a change, then in the end every
recorded position is that of a rule which was injected under the name (`agrees_of_run`).
-/

namespace CanaryRouting

open Program Router

/-- Whether a request was carried out. -/
def Event.isAccepted (e : Event) : Bool := e.answer.isOk

/-- One of the operations is to set a header route of this name, and its request to add the rule
to the route was carried out. -/
def Injected (orders : List Order) (events : List Event) (key : RouteKey) (name : String)
    (rule : Rule) : Prop :=
  ∃ e ∈ events, ∃ o header before after, orders[e.caller]? = some o ∧
    o.operation = .setHeaderRoute header ∧ e.request = .updateRoute key.space after ∧
    e.isAccepted ∧ e.before.routes.get? key = some before ∧
    Injects o.rollout header before after name rule

/-- What the callers have read was once stored. -/
structure Snapshots (key : DocumentKey) (c : Cluster) (known : Nat → Knowledge) : Prop where
  /-- The routes. -/
  routes : ∀ {i k r}, (k, r) ∈ (known i).routes → c.Saw k r
  /-- The documents. -/
  documents : ∀ {i d}, d ∈ (known i).documents → c.SawDocument key d

/-- The rules that the operation of a caller adds. -/
def mayAdd (orders : List Order) (i : Nat) (change : RouteChange) (name : String) (rule : Rule) :
    Prop :=
  ∃ o, orders[i]? = some o ∧ o.MayAdd change name rule

/-- The invariant of a run that began with rules of known origin. -/
structure RunInvariant (key : DocumentKey) (orders : List Order)
    (origin : RouteKey → String → Rule → Prop) (c : Cluster) (events : List Event)
    (known : Nat → Knowledge) : Prop where
  /-- The registry and the routes agree, apart from open changes. -/
  agreement : Agreement key c (fun i => (known i).phase) fun k name rule =>
    origin k name rule ∨ Injected orders events k name rule
  /-- The callers have read what was stored. -/
  snapshots : Snapshots key c known

section Steps

variable {key : DocumentKey} {orders : List Order} {origin : RouteKey → String → Rule → Prop}
  {c : Cluster} {events : List Event} {known : Nat → Knowledge} {i : Nat} {g : Knowledge}

namespace Snapshots

theorem putRoute (h : Snapshots key c known) (k : RouteKey) (r : Route) :
    Snapshots key (c.putRoute k r) known :=
  ⟨fun hr => (h.routes hr).putRoute r, fun hd => (h.documents hd).putRoute r⟩

theorem putDocument (h : Snapshots key c known) (k : DocumentKey) (d : Document) :
    Snapshots key (c.putDocument k d) known :=
  ⟨fun hr => (h.routes hr).putDocument d, fun hd => (h.documents hd).putDocument d⟩

theorem update (h : Snapshots key c known)
    (hroutes : ∀ k r, (k, r) ∈ g.routes → (k, r) ∈ (known i).routes ∨ c.Saw k r)
    (hdocuments : ∀ d ∈ g.documents, d ∈ (known i).documents ∨ c.SawDocument key d) :
    Snapshots key c (Function.update known i g) := by
  constructor
  · intro j k r hr
    by_cases e : j = i
    · subst e
      rw [Function.update_self] at hr
      exact (hroutes k r hr).elim h.routes id
    · rw [Function.update_of_ne e] at hr
      exact h.routes hr
  · intro j d hd
    by_cases e : j = i
    · subst e
      rw [Function.update_self] at hd
      exact (hdocuments d hd).elim h.documents id
    · rw [Function.update_of_ne e] at hd
      exact h.documents hd

theorem learnPhase (h : Snapshots key c known) (hroutes : g.routes = (known i).routes)
    (hdocuments : g.documents = (known i).documents) :
    Snapshots key c (Function.update known i g) :=
  h.update (fun _ _ hr => .inl (hroutes ▸ hr)) fun _ hd => .inl (hdocuments ▸ hd)

end Snapshots

theorem phase_update (known : Nat → Knowledge) (i : Nat) (g : Knowledge) :
    (fun j => (Function.update known i g j).phase) =
      Function.update (fun j => (known j).phase) i g.phase := by
  funext j
  by_cases e : j = i
  · subst e
    rw [Function.update_self, Function.update_self]
  · rw [Function.update_of_ne e, Function.update_of_ne e]

theorem Injected.mono {k : RouteKey} {name : String} {rule : Rule}
    (h : Injected orders events k name rule) (e : Event) :
    Injected orders (events ++ [e]) k name rule :=
  let ⟨e', he', hrest⟩ := h
  ⟨e', List.mem_append_left _ he', hrest⟩

theorem RunInvariant.append (h : RunInvariant key orders origin c events known) (e : Event) :
    RunInvariant key orders origin c (events ++ [e]) known :=
  ⟨h.agreement.mono fun _ _ _ => .imp id (·.mono e), h.snapshots⟩

/-- A caller that has only read something is as far as before. -/
theorem RunInvariant.learn (h : RunInvariant key orders origin c events known)
    (hphase : g.phase = (known i).phase) (hs : Snapshots key c (Function.update known i g)) :
    RunInvariant key orders origin c events (Function.update known i g) := by
  refine ⟨?_, hs⟩
  rw [phase_update, hphase, Function.update_eq_self]
  exact h.agreement

theorem RunInvariant.same (h : RunInvariant key orders origin c events known) :
    RunInvariant key orders origin c events (Function.update known i (known i)) := by
  rw [Function.update_eq_self]
  exact h

/-! ### Requests -/

/-- A request that fails keeps the invariant. -/
theorem RunInvariant.refused (h : RunInvariant key orders origin c events known) {r : Request}
    {learn : Except ApiFailure r.Answer → Knowledge}
    (hask : Discipline key (mayAdd orders i) (known i) r learn) (e : ApiFailure) :
    RunInvariant key orders origin c events (Function.update known i (learn (.error e))) := by
  cases hask with
  | list => exact h.same
  | readRoute => exact h.same
  | readDocument => exact h.same
  | createDocument => exact h.same
  | weigh => exact h.same
  | change => exact h.same
  | record hphase =>
    refine ⟨?_, h.snapshots.learnPhase rfl rfl⟩
    rw [phase_update]
    exact h.agreement.refuse hphase
  | undo hphase =>
    refine ⟨?_, h.snapshots.learnPhase rfl rfl⟩
    rw [phase_update]
    exact h.agreement.fail

/-- Reading a route keeps the invariant. -/
theorem RunInvariant.sawRoute (h : RunInvariant key orders origin c events known) {k : RouteKey}
    {r : Route} (hr : c.routes.get? k = some r) :
    RunInvariant key orders origin c events
      (Function.update known i ((known i).sawRoute k (.ok r))) := by
  refine h.learn rfl (h.snapshots.update (fun k' r' hr' => ?_) fun _ hd => .inl hd)
  rcases List.mem_cons.1 hr' with e | hmem
  · cases e
    exact .inr (h.agreement.wellFormed.saw hr)
  · exact .inl hmem

/-- Reading the document keeps the invariant. -/
theorem RunInvariant.sawDocument (h : RunInvariant key orders origin c events known)
    {d : Document} (hd : c.documents.get? key = some d) :
    RunInvariant key orders origin c events
      (Function.update known i ((known i).sawDocument (.ok d))) := by
  refine h.learn rfl (h.snapshots.update (fun _ _ hr => .inl hr) fun d' hd' => ?_)
  rcases List.mem_cons.1 hd' with e | hmem
  · cases e
    exact .inr (h.agreement.wellFormed.sawDocument hd)
  · exact .inl hmem

/-- Creating the document keeps the invariant. -/
theorem RunInvariant.create (h : RunInvariant key orders origin c events known)
    (hnone : c.documents.get? key = none) :
    RunInvariant key orders origin (c.putDocument key (Cluster.created key)) events
      (Function.update known i
        ((known i).sawDocument (.ok ((Cluster.created key).withVersion c.fresh)))) :=
  RunInvariant.sawDocument ⟨h.agreement.create hnone, h.snapshots.putDocument _ _⟩
    (Cluster.get?_putDocument_self _ _)

/-- Writing a route in the shape in which it was read keeps the invariant. -/
theorem RunInvariant.weigh (h : RunInvariant key orders origin c events known) {k : RouteKey}
    {r r' : Route} (hread : (k, r) ∈ (known i).routes) (hshape : r.SameShape r') :
    RunInvariant key orders origin (Cluster.respond (.updateRoute k.space r') c).2
      (events ++ [⟨i, .updateRoute k.space r', (Cluster.respond (.updateRoute k.space r') c).1, c⟩])
      (Function.update known i (known i)) := by
  have hsaw := h.snapshots.routes hread
  have hversion : r'.version ≠ none := hshape.version ▸ hsaw.issued.ne_none
  rcases Cluster.respond_updateRoute_cases c (hsaw.isAt.of_sameShape hshape) hversion with
    ⟨e, he⟩ | ⟨x, hx, hv, -, he⟩ <;> rw [he]
  · exact h.same.append _
  · have hxr : x = r := hsaw.eq hx (hv.trans hshape.version)
    have hagree := h.agreement.weigh (hxr ▸ hx) (hsaw.isAt.of_sameShape hshape) hshape.bare
    exact (RunInvariant.same ⟨hagree, h.snapshots.putRoute _ _⟩).append _

/-- Writing the route of a change keeps the invariant: the document is written later. -/
theorem RunInvariant.change (h : RunInvariant key orders origin c events known) {k : RouteKey}
    {change : RouteChange} {base : Document} (hphase : (known i).phase = .settled)
    (hspace : k.space = key.space) (hread : (k, change.before) ∈ (known i).routes)
    (hbase : base ∈ (known i).documents)
    (hload : ManagedRoutes.load base k.kind.registryKey = .ok change.registryBefore)
    (hproper : change.Proper k (mayAdd orders i change)) :
    RunInvariant key orders origin (Cluster.respond (.updateRoute k.space change.after) c).2
      (events ++ [⟨i, .updateRoute k.space change.after,
        (Cluster.respond (.updateRoute k.space change.after) c).1, c⟩])
      (Function.update known i ((known i).wroteRoute k change base
        (Cluster.respond (.updateRoute k.space change.after) c).1)) := by
  have hsaw := h.snapshots.routes hread
  have hat := hproper.after_isAt hsaw.isAt
  have hversion : change.after.version ≠ none := hproper.version_after ▸ hsaw.issued.ne_none
  rcases Cluster.respond_updateRoute_cases c hat hversion with
    ⟨e, he⟩ | ⟨x, hx, hv, -, he⟩ <;> rw [he]
  · exact h.same.append _
  · have hxr : x = change.before := hsaw.eq hx (hv.trans hproper.version_after)
    subst hxr
    have hadded : ∀ name rule, mayAdd orders i change name rule →
        Injected orders (events ++ [⟨i, .updateRoute k.space change.after,
          .ok (change.after.withVersion c.fresh), c⟩]) k name rule := by
      rintro name rule ⟨o, ho, header, hop, hinj⟩
      exact ⟨_, List.mem_append_right _ (List.mem_singleton_self _), o, header, _, _, ho, hop, rfl,
        rfl, hx, hinj⟩
    refine ⟨?_, (h.snapshots.putRoute _ _).learnPhase rfl rfl⟩
    rw [phase_update]
    exact (h.append _).agreement.change (p := ⟨k, change, base, c.fresh⟩) hphase hspace hx
      (h.snapshots.documents hbase) hload (hproper.mono fun name rule ha => .inr (hadded name rule ha))
      rfl

/-- Writing the document of a change keeps the invariant. -/
theorem RunInvariant.record (h : RunInvariant key orders origin c events known) {p : Pending}
    (hphase : (known i).phase = .writing p) :
    RunInvariant key orders origin (Cluster.respond (.updateDocument key.space p.forward) c).2
      (events ++ [⟨i, .updateDocument key.space p.forward,
        (Cluster.respond (.updateDocument key.space p.forward) c).1, c⟩])
      (Function.update known i ((known i).wroteDocument p
        (Cluster.respond (.updateDocument key.space p.forward) c).1)) := by
  have hvalid := h.agreement.valid i p (by rw [hphase]; rfl)
  rcases Cluster.respond_updateDocument_cases c hvalid.forward_isAt hvalid.base.issued.ne_none
    with ⟨e, he⟩ | ⟨x, hx, hv, -, he⟩ <;> rw [he]
  · exact (h.refused (.record hphase) e).append _
  · have hagree := (h.append ⟨i, .updateDocument key.space p.forward,
      .ok (p.forward.withVersion c.fresh), c⟩).agreement.record hphase hx hv
    refine ⟨?_, (h.snapshots.putDocument _ _).update (fun _ _ hr => .inl hr) fun d hd => ?_⟩
    · rw [phase_update]
      exact hagree
    · rcases List.mem_cons.1 hd with e | hmem
      · cases e
        exact .inr (hagree.wellFormed.sawDocument (Cluster.get?_putDocument_self _ _))
      · exact .inl hmem

/-- Undoing a change keeps the invariant. -/
theorem RunInvariant.undo (h : RunInvariant key orders origin c events known) {p : Pending}
    (hphase : (known i).phase = .undoing p) :
    RunInvariant key orders origin (Cluster.respond (.updateRoute p.key.space p.back) c).2
      (events ++ [⟨i, .updateRoute p.key.space p.back,
        (Cluster.respond (.updateRoute p.key.space p.back) c).1, c⟩])
      (Function.update known i ((known i).wroteBack
        (Cluster.respond (.updateRoute p.key.space p.back) c).1)) := by
  have hvalid := h.agreement.valid i p (by rw [hphase]; rfl)
  rcases Cluster.respond_updateRoute_cases c hvalid.back_isAt hvalid.version.ne_none
    with ⟨e, he⟩ | ⟨x, hx, hv, -, he⟩ <;> rw [he]
  · exact (h.refused (.undo hphase) e).append _
  · refine ⟨?_, (h.snapshots.putRoute _ _).learnPhase rfl rfl⟩
    rw [phase_update]
    exact (h.append _).agreement.undo hphase hx hv

/-- A request that the server answers keeps the invariant. -/
theorem RunInvariant.answered (h : RunInvariant key orders origin c events known) {r : Request}
    {learn : Except ApiFailure r.Answer → Knowledge}
    (hask : Discipline key (mayAdd orders i) (known i) r learn) :
    RunInvariant key orders origin (Cluster.respond r c).2
      (events ++ [⟨i, r, (Cluster.respond r c).1, c⟩])
      (Function.update known i (learn (Cluster.respond r c).1)) := by
  cases hask with
  | list space kind selector =>
    rw [Cluster.respond_listRoutes]
    exact h.same.append _
  | readRoute k =>
    rcases Cluster.respond_getRoute_cases c k with ⟨e, he⟩ | ⟨r, -, hr, he⟩ <;> rw [he]
    · exact h.same.append _
    · exact (h.sawRoute hr).append _
  | readDocument =>
    rcases Cluster.respond_getDocument_cases c key with ⟨e, he⟩ | ⟨d, hd, he⟩ <;> rw [he]
    · exact h.same.append _
    · exact (h.sawDocument hd).append _
  | createDocument =>
    rcases Cluster.respond_createDocument_cases c key with ⟨e, he⟩ | ⟨hnone, he⟩ <;> rw [he]
    · exact h.same.append _
    · exact (h.create hnone).append _
  | weigh hread hshape => exact h.weigh hread hshape
  | change hphase hspace hread hbase hload hproper =>
    exact h.change hphase hspace hread hbase hload hproper
  | record hphase => exact h.record hphase
  | undo hphase => exact h.undo hphase

/-- Every request of an operation keeps the invariant. -/
theorem RunInvariant.keeps :
    Traffic.Keeps (fun i => Discipline key (mayAdd orders i)) (fun _ => True)
      (RunInvariant key orders origin) := by
  intro c events known i r learn failure h hask _
  rcases Cluster.respondUnless_cases c failure r with ⟨e, he⟩ | he <;> rw [he]
  · exact (h.refused hask e).append _
  · exact h.answered hask

end Steps

/-! ### Runs -/

/-- The operations that are about to begin follow the discipline. -/
theorem follow_start {key : DocumentKey} {orders : List Order} (c : Cluster)
    (hworks : ∀ o ∈ orders, o.WorksOn key) :
    (Traffic.start c orders).Follow (fun i => Discipline key (mayAdd orders i))
      (fun _ => Leaves fun g _ => g.phase = .settled) fun _ => {} := by
  intro i p hp
  simp only [Traffic.start, List.getElem?_map, Option.map_eq_some_iff] at hp
  obtain ⟨o, ho, rfl⟩ := hp
  refine Discipline.follows_perform (hworks o (List.mem_of_getElem? ho)) fun change name rule h => ?_
  exact ⟨o, ho, h⟩

/-- However the requests of the operations are interleaved, and whichever of them fail: if no
operation reports that it could not undo a change, the registry agrees with the routes in the end,
as it did in the beginning. -/
theorem agrees_of_run {c : Cluster} {key : DocumentKey} {orders : List Order}
    {origin : RouteKey → String → Rule → Prop} {turns : List Turn} (hc : c.WellFormed)
    (hworks : ∀ o ∈ orders, o.WorksOn key) (hstart : c.Agrees key origin)
    (hdone : ∀ p ∈ ((Traffic.start c orders).run turns).callers, p.isSettled) :
    ((Traffic.start c orders).run turns).cluster.Agrees key fun k name rule =>
      origin k name rule ∨ Injected orders ((Traffic.start c orders).run turns).events k name rule := by
  have hbegin : RunInvariant key orders origin c [] fun _ => {} :=
    ⟨(Agreement.of_agrees hc hstart).mono fun _ _ _ => .inl,
      ⟨fun hr => (List.not_mem_nil hr).elim, fun hd => (List.not_mem_nil hd).elim⟩⟩
  obtain ⟨known, hinv, hfollow, hothers, hlength⟩ :=
    Traffic.run_follows RunInvariant.keeps hbegin (follow_start c hworks) turns fun _ _ => trivial
  refine hinv.agreement.agrees fun i => ?_
  cases hp : ((Traffic.start c orders).run turns).callers[i]? with
  | none =>
    have hi := List.getElem?_eq_none_iff.1 hp
    rw [hothers i (hlength ▸ hi)]
  | some p =>
    obtain ⟨r, hr, hconsistent⟩ := Option.any_eq_true _ _ |>.1 (hdone p (List.mem_of_getElem? hp))
    have hpost := hfollow.result hp hr
    cases r with
    | ok x => exact hpost
    | error e =>
      rcases hpost with hsettled | ⟨-, hbad⟩
      · exact hsettled
      · simp [Order.Result.isInconsistent, hbad] at hconsistent

/-! ### A run

Two instances set a header route each, while a third sets weights. The second reads the route with
the rule of the first, which is not recorded yet; its document is refused, and it undoes its change.
-/

/-- A route to two services. -/
def webRoute : Route where
  kind := .http
  metadata := { name := some "web", space := some "shop" }
  ruleList := some [{ backendRefs := some [{ name := "canary" }, { name := "stable" }] }]

/-- A cluster with this route. -/
def shopCluster : Cluster := Cluster.putRoute {} ⟨.http, "shop", "web"⟩ webRoute

theorem wellFormed_shopCluster : shopCluster.WellFormed :=
  Cluster.WellFormed.empty.putRoute ⟨rfl, rfl, rfl⟩

/-- A rollout that shapes the route. -/
def shopRollout : Rollout :=
  ⟨"web", "shop", "canary", "stable", [], .object [("httpRoute", .string "web")]⟩

/-- Where the positions are recorded. -/
def shopDocument : DocumentKey := ⟨"shop", "argo-gatewayapi-configmap"⟩

theorem worksOn_shopDocument (host : Nat) (operation : Operation) :
    Order.WorksOn ⟨host, shopRollout, operation⟩ shopDocument := by
  intro s hs
  have : Settings.ofJson shopRollout.trafficRouting = .ok { http := { single := some "web" } } := rfl
  cases this.symm.trans hs
  exact ⟨rfl, rfl⟩

/-- The operations. -/
def shopOrders : List Order := [
  ⟨0, shopRollout, .setHeaderRoute ⟨"beta", [⟨"x-user", { exact := some "beta" }⟩]⟩⟩,
  ⟨1, shopRollout, .setHeaderRoute ⟨"staff", [⟨"x-user", { exact := some "staff" }⟩]⟩⟩,
  ⟨2, shopRollout, .setWeight 20 []⟩]

/-- Turns in which no request fails. -/
def turnsOf (callers : List Nat) : List Turn := callers.map fun i => { caller := i }

/-- The turns. -/
def shopTurns : List Turn :=
  turnsOf [0, 0, 0, 0, 1, 1, 0, 1, 1] ++ ⟨1, some (.status 500)⟩ :: turnsOf [1, 0, 2, 2, 2]

theorem agrees_of_run_shop :
    ((Traffic.start shopCluster shopOrders).run shopTurns).cluster.Agrees shopDocument
      fun k name rule => False ∨
        Injected shopOrders ((Traffic.start shopCluster shopOrders).run shopTurns).events k name rule := by
  refine agrees_of_run wellFormed_shopCluster (fun o ho => ?_)
    (.of_absent rfl fun _ _ _ => False) (by decide +kernel)
  simp only [shopOrders, List.mem_cons, List.not_mem_nil, or_false] at ho
  rcases ho with rfl | rfl | rfl <;> exact worksOn_shopDocument _ _

end CanaryRouting
