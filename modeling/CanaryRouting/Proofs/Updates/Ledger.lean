import CanaryRouting.Proofs.Router.Runs
import CanaryRouting.Router.Traffic

/-!
# What a write is made from

A caller that remembers its requests and their answers could give an account of each of its writes
(`Ledger`). A route is replaced by what the operation makes of the route that was read by the request
before. A document is replaced by what the operation makes of the document that the caller has last
got hold of. An earlier route is stored again only after the caller has replaced it and the document
has been refused.
-/

namespace CanaryRouting

open Program Router

/-- A request and its answer. -/
structure Exchange where
  /-- The request. -/
  request : Request
  /-- The answer. -/
  answer : Except ApiFailure request.Answer

/-- An answer that shows what is stored under the key of a document. -/
inductive Exchange.Shows (k : DocumentKey) (d : Document) : Exchange → Prop where
  /-- The document was read. -/
  | read : Shows k d ⟨.getDocument k.space k.name, .ok d⟩
  /-- The document was created. -/
  | created : Shows k d ⟨.createDocument k.space k.name, .ok d⟩
  /-- The document was replaced. -/
  | written {d₀ : Document} : d₀.name = k.name → Shows k d ⟨.updateDocument k.space d₀, .ok d⟩

namespace Order

/-- The operation makes this of a route. -/
inductive Makes (o : Order) (r : Route) : Route → Prop where
  /-- It sets weights. -/
  | weights {desired : Int} {destinations : List WeightDestination} {settings : Settings}
    {skip : List Nat} {r' : Route} : o.operation = .setWeight desired destinations →
    Settings.ofJson o.rollout.trafficRouting = .ok settings →
    reweigh o.rollout settings desired destinations skip r = .ok r' → Makes o r r'
  /-- It changes header routes. -/
  | headers {change : HeaderChange} {t : Target} {registry : ManagedRoutes}
    {routeChange : RouteChange} : o.operation.headerChange? o.rollout = some (.ok change) →
    change.on o.rollout t registry r = .ok (some routeChange) → Makes o r routeChange.after

/-- The operation makes this of a document: it records a change that it makes of a route. -/
inductive Records (o : Order) (d : Document) : Document → Prop where
  /-- It changes header routes. -/
  | headers {change : HeaderChange} {t : Target} {registry : ManagedRoutes} {route : Route}
    {routeChange : RouteChange} : o.operation.headerChange? o.rollout = some (.ok change) →
    ManagedRoutes.load d t.kind.registryKey = .ok registry →
    change.on o.rollout t registry route = .ok (some routeChange) →
    Records o d (routeChange.registryAfter.store d t.kind.registryKey)

end Order

/-- The requests that an operation may ask after these. -/
inductive Ledger (o : Order) (log : List Exchange) : Request → Prop where
  /-- It reads a route. -/
  | getRoute (space : String) (kind : RouteKind) (name : String) :
    Ledger o log (.getRoute space kind name)
  /-- It lists routes. -/
  | listRoutes (space : String) (kind : RouteKind) (selector : LabelSelector) :
    Ledger o log (.listRoutes space kind selector)
  /-- It reads a document. -/
  | getDocument (space name : String) : Ledger o log (.getDocument space name)
  /-- It creates a document. -/
  | createDocument (space name : String) : Ledger o log (.createDocument space name)
  /-- It replaces the route that it has just read. -/
  | replace {earlier : List Exchange} {k : RouteKey} {r r' : Route} :
    log = earlier ++ [⟨.getRoute k.space k.kind k.name, .ok r⟩] → o.Makes r r' →
    Ledger o log (.updateRoute k.space r')
  /-- It stores the earlier route again, since the document was refused. -/
  | restore {earlier : List Exchange} {k : RouteKey} {r r' stored : Route} {d : Document}
    {failure : ApiFailure} :
    log = earlier ++ [⟨.getRoute k.space k.kind k.name, .ok r⟩,
      ⟨.updateRoute k.space r', .ok stored⟩, ⟨.updateDocument k.space d, .error failure⟩] →
    o.Makes r r' → Ledger o log (.updateRoute k.space (r.withVersion stored.version))
  /-- It replaces the document that it has got hold of. -/
  | record {earlier later : List Exchange} {x : Exchange} {k : DocumentKey} {d d' : Document} :
    log = earlier ++ x :: later → x.Shows k d → o.Records d d' →
    Ledger o log (.updateDocument k.space d')

/-- The protocol of an operation that remembers its requests and their answers. -/
def Ledger.protocol (o : Order) : Protocol (List Exchange) := fun log r learn =>
  Ledger o log r ∧ ∀ answer, learn answer = log ++ [⟨r, answer⟩]

/-- What is known when a part of an operation succeeds. -/
def Yields {α : Type} (post : List Exchange → α → Prop) (log : List Exchange)
    (x : Except RoutingError α) : Prop :=
  ∀ a, x = .ok a → post log a

namespace Ledger

variable {o : Order} {α β : Type} {log : List Exchange} {post : List Exchange → β → Prop}

/-! ### Parts -/

theorem follows_bind {m : List Exchange → α → Prop} {p : Call α} {f : α → Call β}
    (hp : Follows (protocol o) (Yields m) log p.run)
    (hf : ∀ log a, m log a → Follows (protocol o) (Yields post) log (f a).run) :
    Follows (protocol o) (Yields post) log (p >>= f).run :=
  Follows.bindCall hp (fun _ _ _ _ he => nomatch he) fun log a h => hf log a (h a rfl)

theorem follows_ofExcept {x : Except RoutingError β} (h : ∀ a, x = .ok a → post log a) :
    Follows (protocol o) (Yields post) log (Call.ofExcept x).run := by
  refine .done ?_
  cases x with
  | ok a => exact fun _ e => by cases e; exact h a rfl
  | error e => exact fun _ e => nomatch e

theorem follows_pure {a : β} (h : post log a) :
    Follows (protocol o) (Yields post) log (pure a : Call β).run :=
  .done fun _ e => by cases e; exact h

theorem follows_request {r : Request} (hr : Ledger o log r) :
    Follows (protocol o) (Yields fun log' a => log' = log ++ [⟨r, .ok a⟩]) log
      (Call.ofStore (Store.perform r)).run := by
  rw [Call.run_ofStore_perform]
  refine .ask ⟨hr, fun _ => rfl⟩ fun answer => ?_
  refine .done ?_
  cases answer with
  | ok a => exact fun _ e => by cases e; rfl
  | error failure => exact fun _ e => nomatch e

theorem follows_getDocument (k : DocumentKey) :
    Follows (protocol o) (Yields fun log' d? => ∀ d ∈ d?, ∃ x ∈ log', x.Shows k d) log
      (Call.ofStore (Store.getDocument k.space k.name)).run := by
  refine .ask ⟨.getDocument _ _, fun _ => rfl⟩ fun answer => ?_
  refine .done ?_
  rintro d? hd d ⟨⟩
  refine ⟨⟨.getDocument k.space k.name, answer⟩, List.mem_concat_self, ?_⟩
  cases answer with
  | ok d' =>
    cases hd
    exact .read
  | error failure =>
    simp only [Except.mapError] at hd
    cases hf : StoreError.ofFailure (Request.getDocument k.space k.name).what failure <;>
      rw [hf] at hd <;> cases hd

/-! ### Operations -/

theorem follows_resolve (rollout : Rollout) :
    Follows (protocol o) (Yields fun _ plan =>
        Settings.ofJson rollout.trafficRouting = .ok plan.settings) log
      (resolve rollout).run :=
  ((lists_resolve rollout).follows (m := fun _ => True)
    (fun _ _ _ _ _ => ⟨_, ⟨.listRoutes _ _ _, fun _ => rfl⟩, fun _ => trivial⟩) trivial).mono
      fun _ _ h plan hplan => (h.2 plan hplan).settings

/-- The caller has got hold of the document that it goes on with. -/
def Holds (space : String) (log : List Exchange) (d : Document) : Prop :=
  ∃ name, ∃ x ∈ log, x.Shows ⟨space, name⟩ d

theorem follows_getOrCreateDocument (plan : Plan) :
    Follows (protocol o) (Yields (Holds plan.space)) log (getOrCreateDocument plan).run := by
  unfold getOrCreateDocument
  refine follows_bind (follows_getDocument ⟨plan.space, plan.document⟩) fun log d? hd => ?_
  cases d? with
  | some d => exact follows_pure ⟨plan.document, hd d rfl⟩
  | none =>
    refine (follows_request (.createDocument _ _)).mono fun log' x hx d hd => ?_
    rw [hx d hd]
    exact ⟨plan.document, _, List.mem_concat_self, .created⟩

/-- Each write of a commit is accounted for. -/
theorem follows_commit {plan : Plan} {document : Document} {t : Target} {change : HeaderChange}
    {registry : ManagedRoutes} {route : Route} {routeChange : RouteChange} {earlier : List Exchange}
    (hlog : log = earlier ++ [⟨.getRoute plan.space t.kind t.name, .ok route⟩])
    (hop : o.operation.headerChange? o.rollout = some (.ok change))
    (hload : ManagedRoutes.load document t.kind.registryKey = .ok registry)
    (hon : change.on o.rollout t registry route = .ok (some routeChange))
    (hdocument : Holds plan.space log document) :
    Follows (protocol o) (Yields (Holds plan.space)) log
      (commit plan document t.kind.registryKey routeChange).run := by
  obtain ⟨hbefore, -, -⟩ := proper_of_on hon plan.space
  obtain ⟨name, x, hx, hshows⟩ := hdocument
  rw [run_commit]
  refine .ask ⟨.replace (k := t.keyIn plan.space) hlog (.headers hop hon), fun _ => rfl⟩
    fun answer => ?_
  cases answer with
  | error failure => exact .done fun _ e => nomatch e
  | ok stored =>
    obtain ⟨log₁, log₂, hsplit⟩ := List.append_of_mem
      (List.mem_append_left [⟨.updateRoute plan.space routeChange.after, .ok stored⟩] hx)
    refine .ask ⟨.record hsplit hshows (.headers hop hload hon), fun _ => rfl⟩ fun answer => ?_
    cases answer with
    | ok written =>
      refine .done fun _ e => ?_
      cases e
      exact ⟨_, _, List.mem_concat_self, .written rfl⟩
    | error failure =>
      have hrestore : Ledger o
          (earlier ++ [⟨.getRoute plan.space t.kind t.name, .ok route⟩,
            ⟨.updateRoute plan.space routeChange.after, .ok stored⟩,
            ⟨.updateDocument plan.space
              (routeChange.registryAfter.store document t.kind.registryKey), .error failure⟩])
          (.updateRoute plan.space (route.withVersion stored.version)) :=
        .restore (k := t.keyIn plan.space) rfl (.headers hop hon)
      refine .ask ⟨?_, fun _ => rfl⟩ fun answer => ?_
      · rw [hbefore, hlog, List.append_assoc, List.append_assoc]
        exact hrestore
      · cases answer with
        | ok _ => exact .done fun _ e => nomatch e
        | error failure' => exact .done fun _ e => nomatch e

theorem follows_changeTarget {plan : Plan} {change : HeaderChange} {document : Document} {t : Target}
    (hop : o.operation.headerChange? o.rollout = some (.ok change))
    (hdocument : Holds plan.space log document) :
    Follows (protocol o) (Yields (Holds plan.space)) log
      (changeTarget o.rollout plan change document t).run := by
  unfold changeTarget
  refine follows_bind (m := fun log' registry => log' = log ∧
      ManagedRoutes.load document t.kind.registryKey = .ok registry)
    (follows_ofExcept fun _ h => ⟨rfl, h⟩) ?_
  rintro log registry ⟨rfl, hload⟩
  refine follows_bind (follows_request (.getRoute _ _ _)) ?_
  rintro log' route rfl
  refine follows_bind (m := fun log' routeChange => log' = log ++ _ ∧
      change.on o.rollout t registry route = .ok routeChange)
    (follows_ofExcept fun _ h => ⟨rfl, h⟩) ?_
  rintro log' routeChange? ⟨rfl, hon⟩
  obtain ⟨name, x, hx, hshows⟩ := hdocument
  have hholds : Holds plan.space (log ++ [⟨.getRoute plan.space t.kind t.name, .ok route⟩]) document :=
    ⟨name, x, List.mem_append_left _ hx, hshows⟩
  cases routeChange? with
  | none => exact follows_pure hholds
  | some routeChange => exact follows_commit rfl hop hload hon hholds

theorem follows_setWeightOf {plan : Plan} {document : Option Document} {desired : Int}
    {destinations : List WeightDestination} (hop : o.operation = .setWeight desired destinations)
    (hsettings : Settings.ofJson o.rollout.trafficRouting = .ok plan.settings) (t : Target) :
    Follows (protocol o) (Yields fun _ _ => True) log
      (setWeightOf o.rollout plan document desired destinations t).run := by
  unfold setWeightOf
  refine follows_bind (follows_request (.getRoute _ _ _)) ?_
  rintro _ route rfl
  refine follows_bind (m := fun log' _ => log' = log ++ _) (follows_ofExcept fun _ _ => rfl) ?_
  rintro _ skip rfl
  refine follows_bind (m := fun log' reweighed => log' = log ++ _ ∧
      reweigh o.rollout plan.settings desired destinations skip route = .ok reweighed)
    (follows_ofExcept fun _ h => ⟨rfl, h⟩) ?_
  rintro _ reweighed ⟨rfl, hweigh⟩
  exact follows_bind (follows_request (.replace (k := t.keyIn plan.space) rfl
    (.weights hop hsettings hweigh))) fun _ _ _ => follows_pure trivial

theorem follows_verifyWeightOf {plan : Plan} {document : Option Document} {desired : Int}
    {destinations : List WeightDestination} (t : Target) :
    Follows (protocol o) (Yields fun _ _ => True) log
      (verifyWeightOf o.rollout plan document desired destinations t).run := by
  unfold verifyWeightOf
  refine follows_bind (follows_request (.getRoute _ _ _)) fun _ _ _ => ?_
  exact follows_bind (m := fun _ _ => True) (follows_ofExcept fun _ _ => trivial) fun _ _ _ =>
    follows_ofExcept fun _ _ => trivial

/-- An operation about header routes accounts for its writes. -/
theorem follows_headerChange {change? : Except RoutingError HeaderChange}
    (hop : o.operation.headerChange? o.rollout = some change?) :
    Follows (protocol o) (Yields fun _ _ => True) [] (perform o.rollout o.operation).run := by
  rw [perform_headerChange hop]
  refine follows_bind (follows_resolve o.rollout) fun log plan _ => ?_
  refine follows_bind (m := fun _ change => change? = .ok change) (follows_ofExcept fun _ h => h) ?_
  rintro log change rfl
  unfold changeTargets
  refine follows_bind (m := fun _ _ => True) (follows_bind (m := fun _ _ => True)
    (.lock (follows_pure trivial)) fun log _ _ => ?_) fun _ _ _ => follows_pure trivial
  refine follows_bind (follows_getOrCreateDocument plan) fun log document hdocument => ?_
  exact follows_bind (m := Holds plan.space)
    (Follows.foldlM _ (fun _ d _ _ h => follows_changeTarget hop (h d rfl))
      fun _ e => by cases e; exact hdocument)
    fun _ _ _ => follows_pure trivial

/-- Operations about weights read the document, and then go through the targets. -/
theorem follows_withDocument (check : Except RoutingError Unit)
    {rest : Plan → Option Document → Call α}
    (hrest : ∀ log plan document, Settings.ofJson o.rollout.trafficRouting = .ok plan.settings →
      Follows (protocol o) (Yields fun _ _ => True) log (rest plan document).run) :
    Follows (protocol o) (Yields fun _ _ => True) log
      (do Call.ofExcept check
          let plan ← resolve o.rollout
          let document ← Call.ofStore (Store.getDocument plan.space plan.document)
          rest plan document : Call α).run := by
  refine follows_bind (m := fun _ _ => True) (follows_ofExcept fun _ _ => trivial) fun log _ _ => ?_
  refine follows_bind (follows_resolve o.rollout) fun log plan hsettings => ?_
  exact follows_bind (follows_getDocument ⟨plan.space, plan.document⟩) fun log document _ =>
    hrest log plan document hsettings

theorem follows_setWeight {desired : Int} {destinations : List WeightDestination}
    (hop : o.operation = .setWeight desired destinations) :
    Follows (protocol o) (Yields fun _ _ => True) log
      (setWeight o.rollout desired destinations).run :=
  follows_withDocument _ fun _ _ _ hsettings =>
    Follows.forM _ (fun _ t _ _ => follows_setWeightOf hop hsettings t) fun _ _ => trivial

theorem follows_verifyWeight (desired : Int) (destinations : List WeightDestination) :
    Follows (protocol o) (Yields fun _ _ => True) log
      (verifyWeight o.rollout desired destinations).run :=
  follows_withDocument _ fun _ _ _ _ =>
    Follows.allM _ (fun _ t _ _ => follows_verifyWeightOf t) fun _ _ => trivial

/-- Every operation accounts for its writes. -/
theorem follows_perform (o : Order) :
    Follows (protocol o) (Yields fun _ _ => True) [] o.program := by
  unfold Order.program
  cases hop : o.operation with
  | setHeaderRoute header =>
    rw [← hop]
    exact follows_headerChange (hop ▸ Operation.headerChange?_setHeaderRoute o.rollout header)
  | removeManagedRoutes =>
    rw [← hop]
    exact follows_headerChange (by rw [hop]; rfl)
  | setWeight desired destinations =>
    exact follows_bind (follows_setWeight hop) fun _ _ _ => follows_pure trivial
  | verifyWeight desired destinations =>
    exact follows_bind (follows_verifyWeight desired destinations) fun _ _ _ => follows_pure trivial
  | updateHash => exact follows_pure trivial

end Ledger

end CanaryRouting
