import CanaryRouting.Proofs.Registry.Text
import CanaryRouting.Proofs.Router.Runs
import CanaryRouting.Router.Traffic

/-!
# The discipline of writes

All operations of the router write by one protocol, `Discipline`. A route is written in two ways:
in the shape in which it was read, or with a change of rules and positions together, and then the
registry document is written next, from the state in which the positions were read. If the
document is refused, the earlier route is written again. Nothing else is written in between, and
an operation that could not undo a change says so (`Discipline.follows_perform`).
-/

namespace CanaryRouting

open Program Router

/-- A change whose route has been written and whose document has not. -/
structure Pending where
  /-- The route. -/
  key : RouteKey
  /-- The change. -/
  change : RouteChange
  /-- The registry document as it was read. -/
  base : Document
  /-- The version that the server gave the route. -/
  version : Option String

/-- The document that is to be written. -/
def Pending.forward (p : Pending) : Document :=
  p.change.registryAfter.store p.base p.key.kind.registryKey

/-- The route that undoes the change. -/
def Pending.back (p : Pending) : Route := p.change.before.withVersion p.version

/-- How far a caller is with its writes. -/
inductive Phase where
  /-- Nothing is half done. -/
  | settled
  /-- A route has been written, and the document is next. -/
  | writing (p : Pending)
  /-- The document has been refused, and the earlier route is next. -/
  | undoing (p : Pending)
  /-- The earlier route has been refused. -/
  | failed

/-- The change that is half done. -/
def Phase.pending? : Phase → Option Pending
  | .writing p | .undoing p => some p
  | .settled | .failed => none

/-- What a caller knows: what it has read, and how far it is. -/
structure Knowledge where
  /-- The registry documents that it has read. -/
  documents : List Document := []
  /-- The routes that it has read. -/
  routes : List (RouteKey × Route) := []
  /-- How far it is. -/
  phase : Phase := .settled

namespace Knowledge

/-- What is known once a route has been asked for. -/
def sawRoute (g : Knowledge) (key : RouteKey) : Except ApiFailure Route → Knowledge
  | .ok r => { g with routes := (key, r) :: g.routes }
  | .error _ => g

/-- What is known once a document has been asked for. -/
def sawDocument (g : Knowledge) : Except ApiFailure Document → Knowledge
  | .ok d => { g with documents := d :: g.documents }
  | .error _ => g

/-- What is known once the route of a change has been written. -/
def wroteRoute (g : Knowledge) (key : RouteKey) (change : RouteChange) (base : Document) :
    Except ApiFailure Route → Knowledge
  | .ok stored => { g with phase := .writing ⟨key, change, base, stored.version⟩ }
  | .error _ => g

/-- What is known once the document of a change has been written. -/
def wroteDocument (g : Knowledge) (p : Pending) : Except ApiFailure Document → Knowledge
  | .ok written => { g with phase := .settled, documents := written :: g.documents }
  | .error _ => { g with phase := .undoing p }

/-- What is known once the earlier route has been written again. -/
def wroteBack (g : Knowledge) : Except ApiFailure Route → Knowledge
  | .ok _ => { g with phase := .settled }
  | .error _ => { g with phase := .failed }

end Knowledge

/-- The requests of a caller that works with the registry document `key` and adds rules only as
`may` says. -/
inductive Discipline (key : DocumentKey) (may : RouteChange → String → Rule → Prop) :
    Protocol Knowledge where
  /-- It lists routes. -/
  | list {g : Knowledge} (space : String) (kind : RouteKind) (selector : LabelSelector) :
    Discipline key may g (.listRoutes space kind selector) fun _ => g
  /-- It reads a route. -/
  | readRoute {g : Knowledge} (k : RouteKey) :
    Discipline key may g (.getRoute k.space k.kind k.name) (g.sawRoute k)
  /-- It reads the document. -/
  | readDocument {g : Knowledge} :
    Discipline key may g (.getDocument key.space key.name) g.sawDocument
  /-- It creates the document. -/
  | createDocument {g : Knowledge} :
    Discipline key may g (.createDocument key.space key.name) g.sawDocument
  /-- It writes a route in the shape in which it read it. -/
  | weigh {g : Knowledge} {k : RouteKey} {r r' : Route} : (k, r) ∈ g.routes → r.SameShape r' →
    Discipline key may g (.updateRoute k.space r') fun _ => g
  /-- It writes the route of a change. -/
  | change {g : Knowledge} {k : RouteKey} {change : RouteChange} {base : Document} :
    g.phase = .settled → k.space = key.space → (k, change.before) ∈ g.routes →
    base ∈ g.documents →
    ManagedRoutes.load base k.kind.registryKey = .ok change.registryBefore →
    change.Proper k (may change) →
    Discipline key may g (.updateRoute k.space change.after) (g.wroteRoute k change base)
  /-- It writes the document of a change. -/
  | record {g : Knowledge} {p : Pending} : g.phase = .writing p →
    Discipline key may g (.updateDocument key.space p.forward) (g.wroteDocument p)
  /-- It undoes a change. -/
  | undo {g : Knowledge} {p : Pending} : g.phase = .undoing p →
    Discipline key may g (.updateRoute p.key.space p.back) g.wroteBack

/-- What is known when a part of an operation ends: after success what is stated; after an error
that nothing is half done, unless the error says so. -/
def Leaves {α : Type} (post : Knowledge → α → Prop) (g : Knowledge) : Except RoutingError α → Prop
  | .ok a => post g a
  | .error e => g.phase = .settled ∨ g.phase = .failed ∧ e.isInconsistent

namespace Discipline

variable {α β : Type} {key : DocumentKey} {may : RouteChange → String → Rule → Prop}
  {post : Knowledge → β → Prop} {g : Knowledge}

/-! ### Parts -/

theorem follows_bind {m : Knowledge → α → Prop} {p : Call α} {f : α → Call β}
    (hp : Follows (Discipline key may) (Leaves m) g p.run)
    (hf : ∀ g a, m g a → Follows (Discipline key may) (Leaves post) g (f a).run) :
    Follows (Discipline key may) (Leaves post) g (p >>= f).run :=
  Follows.bindCall hp (fun _ _ h => h) hf

theorem follows_ofExcept {x : Except RoutingError β} (hg : g.phase = .settled)
    (h : ∀ a, x = .ok a → post g a) :
    Follows (Discipline key may) (Leaves post) g (Call.ofExcept x).run := by
  refine Follows.done ?_
  cases x with
  | ok a => exact h a rfl
  | error e => exact .inl hg

theorem follows_pure {a : β} (h : post g a) :
    Follows (Discipline key may) (Leaves post) g (pure a : Call β).run := .done h

theorem follows_acquire {space document : String} {post : Knowledge → Unit → Prop}
    (h : post g ()) :
    Follows (Discipline key may) (Leaves post) g (Call.acquire space document).run :=
  .lock (.done h)

/-- A request that does not change how far the caller is. -/
theorem follows_request {r : Request} {learn : Except ApiFailure r.Answer → Knowledge}
    {post : Knowledge → r.Answer → Prop} (hg : g.phase = .settled)
    (hask : Discipline key may g r learn) (herror : ∀ failure, learn (.error failure) = g)
    (hok : ∀ a, post (learn (.ok a)) a) :
    Follows (Discipline key may) (Leaves post) g (Call.ofStore (Store.perform r)).run := by
  rw [Call.run_ofStore_perform]
  refine .ask hask fun answer => .done ?_
  cases answer with
  | ok a => exact hok a
  | error failure =>
    rw [herror]
    exact .inl hg

theorem follows_getRoute (hg : g.phase = .settled) (k : RouteKey) :
    Follows (Discipline key may)
      (Leaves fun g' r => g' = { g with routes := (k, r) :: g.routes }) g
      (Call.ofStore (Store.getRoute k.space k.kind k.name)).run :=
  follows_request hg (.readRoute k) (fun _ => rfl) fun _ => rfl

theorem follows_getDocument (hg : g.phase = .settled) :
    Follows (Discipline key may)
      (Leaves fun g' d => g'.phase = .settled ∧ ∀ x ∈ d, x ∈ g'.documents) g
      (Call.ofStore (Store.getDocument key.space key.name)).run := by
  refine .ask .readDocument fun answer => .done ?_
  cases answer with
  | ok d =>
    refine ⟨hg, fun x hx => ?_⟩
    cases hx
    exact List.mem_cons_self ..
  | error failure =>
    simp only [Knowledge.sawDocument, Except.mapError]
    cases hf : StoreError.ofFailure (Request.getDocument key.space key.name).what failure with
    | notFound what => exact ⟨hg, fun x hx => nomatch hx⟩
    | conflict what => exact .inl hg
    | failed what => exact .inl hg

theorem follows_createDocument (hg : g.phase = .settled) :
    Follows (Discipline key may)
      (Leaves fun g' d => g'.phase = .settled ∧ d ∈ g'.documents) g
      (Call.ofStore (Store.createDocument key.space key.name)).run :=
  follows_request hg .createDocument (fun _ => rfl) fun _ => ⟨hg, List.mem_cons_self ..⟩

/-- A commit is a change, and either its record or its undoing. -/
theorem follows_commit {plan : Plan} (hplan : plan.space = key.space) {k : RouteKey}
    {change : RouteChange} {base : Document} (hg : g.phase = .settled) (hk : k.space = key.space)
    (hread : (k, change.before) ∈ g.routes) (hbase : base ∈ g.documents)
    (hload : ManagedRoutes.load base k.kind.registryKey = .ok change.registryBefore)
    (hproper : change.Proper k (may change)) :
    Follows (Discipline key may)
      (Leaves fun g' d => g'.phase = .settled ∧ d ∈ g'.documents) g
      (commit plan base k.kind.registryKey change).run := by
  rw [run_commit, hplan, ← hk]
  refine .ask (.change hg hk hread hbase hload hproper) fun answer => ?_
  cases answer with
  | error failure => exact .done (.inl hg)
  | ok stored =>
    rw [hk]
    refine .ask (.record (p := ⟨k, change, base, stored.version⟩) rfl) fun answer => ?_
    cases answer with
    | ok written => exact .done ⟨rfl, List.mem_cons_self ..⟩
    | error failure =>
      rw [← hk]
      refine .ask (.undo (p := ⟨k, change, base, stored.version⟩) rfl) fun answer => ?_
      cases answer with
      | ok _ => exact .done (.inl rfl)
      | error failure' => exact .done (.inr ⟨rfl, rfl⟩)

/-! ### Operations -/

/-- Between two requests nothing is half done, and the document that is passed on has been
read. -/
def Between (g : Knowledge) (document : Document) : Prop :=
  g.phase = .settled ∧ document ∈ g.documents

theorem follows_resolve {rollout : Rollout}
    (hworks : ∀ s, Settings.ofJson rollout.trafficRouting = .ok s →
      s.namespaceOr rollout.space = key.space ∧ s.documentName = key.name)
    (hg : g.phase = .settled) :
    Follows (Discipline key may)
      (Leaves fun g plan => g.phase = .settled ∧ plan.space = key.space ∧ plan.document = key.name)
      g (resolve rollout).run := by
  refine ((lists_resolve rollout).follows (m := fun g => g.phase = .settled)
    (fun g _ _ _ hg => ⟨_, .list _ _ _, fun _ => hg⟩) hg).mono fun g x hx => ?_
  cases x with
  | ok plan =>
    have hplan := hx.2 plan rfl
    obtain ⟨hspace, hdocument⟩ := hworks _ hplan.settings
    exact ⟨hx.1, hplan.space.trans hspace, hplan.document.trans hdocument⟩
  | error e => exact .inl hx.1

section Plan

variable {plan : Plan} (hspace : plan.space = key.space) (hdocument : plan.document = key.name)
include hspace hdocument

theorem follows_getOrCreateDocument (hg : g.phase = .settled) :
    Follows (Discipline key may) (Leaves Between) g (getOrCreateDocument plan).run := by
  unfold getOrCreateDocument
  rw [hspace, hdocument]
  refine follows_bind (follows_getDocument hg) fun g document hd => ?_
  cases document with
  | some d => exact follows_pure ⟨hd.1, hd.2 d rfl⟩
  | none => exact follows_createDocument hd.1

omit hdocument in
theorem follows_setWeightOf {rollout : Rollout} {document : Option Document} {desired : Int}
    {destinations : List WeightDestination} {target : Target} (hg : g.phase = .settled) :
    Follows (Discipline key may) (Leaves fun g _ => g.phase = .settled) g
      (setWeightOf rollout plan document desired destinations target).run := by
  unfold setWeightOf
  rw [hspace]
  refine follows_bind (follows_getRoute hg ⟨target.kind, key.space, target.name⟩) ?_
  rintro g route rfl
  refine follows_bind (m := fun g' _ => g' = _) (follows_ofExcept hg fun _ _ => rfl) ?_
  rintro g skip rfl
  refine follows_bind (m := fun g' r => g' = _ ∧ route.SameShape r)
    (follows_ofExcept hg fun r hr => ⟨rfl, sameShape_of_reweigh hr⟩) ?_
  rintro g reweighed ⟨rfl, hshape⟩
  exact follows_bind (m := fun g _ => g.phase = .settled)
    (follows_request (r := .updateRoute key.space reweighed) hg
      (.weigh (k := ⟨target.kind, key.space, target.name⟩) (List.mem_cons_self ..) hshape)
      (fun _ => rfl) fun _ => hg)
    fun _ _ hg => follows_pure hg

omit hdocument in
theorem follows_verifyWeightOf {rollout : Rollout} {document : Option Document} {desired : Int}
    {destinations : List WeightDestination} {target : Target} (hg : g.phase = .settled) :
    Follows (Discipline key may) (Leaves fun g _ => g.phase = .settled) g
      (verifyWeightOf rollout plan document desired destinations target).run := by
  unfold verifyWeightOf
  rw [hspace]
  refine follows_bind (follows_getRoute hg ⟨target.kind, key.space, target.name⟩) ?_
  rintro g route rfl
  exact follows_bind (m := fun g _ => g.phase = .settled) (follows_ofExcept hg fun _ _ => hg)
    fun _ _ hg => follows_ofExcept hg fun _ _ => hg

omit hdocument in
theorem follows_changeTarget {rollout : Rollout} {change : HeaderChange}
    (hmay : ∀ (routeChange : RouteChange) name rule,
      change.Adds rollout routeChange.before routeChange.after name rule →
        may routeChange name rule)
    {document : Document} {target : Target} (hg : Between g document) :
    Follows (Discipline key may) (Leaves Between) g
      (changeTarget rollout plan change document target).run := by
  unfold changeTarget
  refine follows_bind (m := fun g' m => g' = g ∧
      ManagedRoutes.load document target.kind.registryKey = .ok m)
    (follows_ofExcept hg.1 fun m hm => ⟨rfl, hm⟩) ?_
  rintro _ registry ⟨rfl, hload⟩
  rw [hspace]
  refine follows_bind (follows_getRoute hg.1 (target.keyIn key.space)) ?_
  rintro _ route rfl
  refine follows_bind (m := fun g' x => g' = _ ∧ change.on rollout target registry route = .ok x)
    (follows_ofExcept hg.1 fun x hx => ⟨rfl, hx⟩) ?_
  rintro _ routeChange? ⟨rfl, hon⟩
  cases routeChange? with
  | none => exact follows_pure hg
  | some routeChange =>
    obtain ⟨rfl, rfl, hproper⟩ := proper_of_on hon key.space
    exact follows_commit hspace (k := target.keyIn key.space) hg.1 rfl (List.mem_cons_self ..)
      hg.2 hload (hproper.mono (hmay routeChange))

theorem follows_changeTargets {rollout : Rollout} {change : HeaderChange}
    (hmay : ∀ (routeChange : RouteChange) name rule,
      change.Adds rollout routeChange.before routeChange.after name rule →
        may routeChange name rule)
    (hg : g.phase = .settled) :
    Follows (Discipline key may) (Leaves fun g _ => g.phase = .settled) g
      (changeTargets rollout plan change).run := by
  unfold changeTargets
  refine follows_bind (m := fun g _ => g.phase = .settled) (follows_acquire hg) fun g _ hg => ?_
  refine follows_bind (follows_getOrCreateDocument hspace hdocument hg) fun g document hg => ?_
  exact follows_bind (m := Between)
    (Follows.foldlM _ (fun g d t _ hg => follows_changeTarget hspace hmay hg) hg)
    fun g _ hg => follows_pure hg.1

end Plan

end Discipline

/-- The rules that an operation adds when it makes a change. -/
def Order.MayAdd (o : Order) (change : RouteChange) (name : String) (rule : Rule) : Prop :=
  ∃ header, o.operation = .setHeaderRoute header ∧
    Injects o.rollout header change.before change.after name rule

namespace Discipline

variable {α : Type} {o : Order} {key : DocumentKey} {may : RouteChange → String → Rule → Prop}

/-- Operations about weights read the document, and then go through the targets. -/
theorem follows_withDocument (hworks : o.WorksOn key) (check : Except RoutingError Unit)
    {rest : Plan → Option Document → Call α} {g : Knowledge} (hg : g.phase = .settled)
    (hrest : ∀ g plan document, plan.space = key.space → g.phase = .settled →
      Follows (Discipline key may) (Leaves fun g _ => g.phase = .settled) g
        (rest plan document).run) :
    Follows (Discipline key may) (Leaves fun g _ => g.phase = .settled) g
      (do Call.ofExcept check
          let plan ← resolve o.rollout
          let document ← Call.ofStore (Store.getDocument plan.space plan.document)
          rest plan document : Call α).run := by
  refine follows_bind (m := fun g _ => g.phase = .settled) (follows_ofExcept hg fun _ _ => hg)
    fun g _ hg => ?_
  refine follows_bind (follows_resolve hworks hg) ?_
  rintro g plan ⟨hg, hspace, hdocument⟩
  rw [hspace, hdocument]
  exact follows_bind (follows_getDocument hg) fun g document hd => hrest g plan document hspace hd.1

theorem follows_setWeight (hworks : o.WorksOn key) (desired : Int)
    (destinations : List WeightDestination) {g : Knowledge} (hg : g.phase = .settled) :
    Follows (Discipline key may) (Leaves fun g _ => g.phase = .settled) g
      (setWeight o.rollout desired destinations).run :=
  follows_withDocument hworks _ hg fun _ _ _ hspace hg =>
    Follows.forM _ (fun _ _ _ hg => follows_setWeightOf hspace hg) hg

theorem follows_verifyWeight (hworks : o.WorksOn key) (desired : Int)
    (destinations : List WeightDestination) {g : Knowledge} (hg : g.phase = .settled) :
    Follows (Discipline key may) (Leaves fun g _ => g.phase = .settled) g
      (verifyWeight o.rollout desired destinations).run :=
  follows_withDocument hworks _ hg fun _ _ _ hspace hg =>
    Follows.allM _ (fun _ _ _ hg => follows_verifyWeightOf hspace hg) hg

theorem follows_headerChange (hworks : o.WorksOn key)
    (hmay : ∀ change name rule, o.MayAdd change name rule → may change name rule)
    {change? : Except RoutingError HeaderChange}
    (hop : o.operation.headerChange? o.rollout = some change?) {g : Knowledge}
    (hg : g.phase = .settled) :
    Follows (Discipline key may) (Leaves fun g _ => g.phase = .settled) g
      (perform o.rollout o.operation).run := by
  rw [perform_headerChange hop]
  refine follows_bind (follows_resolve hworks hg) ?_
  rintro g plan ⟨hg, hspace, hdocument⟩
  refine follows_bind (m := fun g change => g.phase = .settled ∧ change? = .ok change)
    (follows_ofExcept hg fun _ h => ⟨hg, h⟩) ?_
  rintro g change ⟨hg, rfl⟩
  exact follows_bind (follows_changeTargets hspace hdocument
    (fun routeChange name rule h => hmay _ _ _ (injects_of_adds hop h)) hg)
    fun _ _ hg => follows_pure hg

/-- Every operation follows the discipline. When it ends, nothing is half done, unless the result
says so. -/
theorem follows_perform (hworks : o.WorksOn key)
    (hmay : ∀ change name rule, o.MayAdd change name rule → may change name rule) :
    Follows (Discipline key may) (Leaves fun g _ => g.phase = .settled) {} o.program := by
  have hsettled : ({} : Knowledge).phase = .settled := rfl
  unfold Order.program
  cases hop : o.operation with
  | setWeight desired destinations =>
    exact follows_bind (follows_setWeight hworks desired destinations hsettled)
      fun _ _ hg => follows_pure hg
  | verifyWeight desired destinations =>
    exact follows_bind (follows_verifyWeight hworks desired destinations hsettled)
      fun _ _ hg => follows_pure hg
  | setHeaderRoute header =>
    rw [← hop]
    exact follows_headerChange hworks hmay
      (hop ▸ Operation.headerChange?_setHeaderRoute o.rollout header) hsettled
  | removeManagedRoutes =>
    rw [← hop]
    exact follows_headerChange hworks hmay (by rw [hop]; rfl) hsettled
  | updateHash => exact follows_pure hsettled

end Discipline

end CanaryRouting
