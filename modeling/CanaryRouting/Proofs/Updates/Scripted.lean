import CanaryRouting.Proofs.Router.Written
import CanaryRouting.Proofs.Updates.Ledger
import CanaryRouting.Proofs.Updates.Naming

/-!
# Operations on clusters that store JSON

An operation writes what it makes of objects that it has read (`Ledger`), under names that it has
read (`Naming`). So if the objects of a cluster can be written again (`Cluster.Ready`), then this
stays so, and all requests of the operation are faithful (`Order.faithful_requests`). The operation
then does the same to a cluster that stores JSON, such as the objects of the first one
(`Cluster.Ready.agree_written`), as to one that stores objects as they are
(`ScriptedCluster.program_agree`), also if requests fail (`ScriptedCluster.exists_failures_program`).
-/

namespace CanaryRouting

open Program

/-! ### Objects that can be written -/

/-- The metadata says where its object is stored, and in which version. -/
structure Metadata.Stored (m : Metadata) (space name : String) : Prop where
  /-- The namespace. -/
  space : m.space = some space
  /-- The name. -/
  name : m.name = some name
  /-- There is a version. -/
  versioned : m.resourceVersion ≠ none

/-- The route says where it is stored, and is settled. -/
structure Route.Ready (r : Route) (key : RouteKey) : Prop where
  /-- The kind. -/
  kind : r.kind = key.kind
  /-- The metadata. -/
  stored : r.metadata.Stored key.space key.name
  /-- It is settled. -/
  settled : r.Settled

/-- The document says where it is stored, and is settled. -/
structure Document.Ready (d : Document) (key : DocumentKey) : Prop where
  /-- The metadata. -/
  stored : d.metadata.Stored key.space key.name
  /-- It is settled. -/
  settled : d.Settled

namespace Metadata.Stored

variable {m : Metadata} {space name : String} (h : m.Stored space name)
include h

theorem placed : m.Placed space name :=
  ⟨h.space, h.name, fun hnone => absurd hnone h.versioned⟩

theorem objectName : m.objectName = name := by
  rw [Metadata.objectName, h.name]
  rfl

theorem withVersion {version : Option String} (hversion : version ≠ none) :
    (m.withVersion version).Stored space name := ⟨h.space, h.name, hversion⟩

end Metadata.Stored

namespace Route.Ready

variable {r : Route} {key : RouteKey} (h : r.Ready key)
include h

theorem isAt : r.IsAt key := ⟨h.kind, h.stored.space, h.stored.objectName⟩

theorem withVersion {version : Option String} (hversion : version ≠ none) :
    (r.withVersion version).Ready key :=
  ⟨h.kind, h.stored.withVersion hversion, h.settled.withVersion version⟩

end Route.Ready

namespace Document.Ready

variable {d : Document} {key : DocumentKey} (h : d.Ready key)
include h

theorem isAt : d.IsAt key := ⟨h.stored.space, h.stored.objectName⟩

theorem withVersion {version : Option String} (hversion : version ≠ none) :
    (d.withVersion version).Ready key :=
  ⟨h.stored.withVersion hversion, h.settled.withVersion version⟩

end Document.Ready

/-! ### Clusters -/

/-- The objects of the cluster can be written again where they are stored, and routes have names
that are segments of a path. -/
structure Cluster.Ready (c : Cluster) : Prop where
  /-- The routes. -/
  routes : ∀ {key r}, c.routes.get? key = some r → r.Ready key
  /-- The documents. -/
  documents : ∀ {key d}, c.documents.get? key = some d → d.Ready key
  /-- The names of routes. -/
  names : ∀ {key r}, c.routes.get? key = some r → Path.IsSegment key.name

namespace Request

/-- What the request sends can be written where it is sent to. -/
def IsReady : Request → Prop
  | .updateRoute space route => route.Ready ⟨route.kind, space, route.name⟩
  | .updateDocument space document => document.Ready ⟨space, document.name⟩
  | .getRoute .. | .listRoutes .. | .getDocument .. | .createDocument .. => True

/-- What the answer shows can be written where it is stored, or is a list of names that are segments
of a path. -/
def ShowsReady : (r : Request) → r.Answer → Prop
  | .getRoute space kind name, route => route.Ready ⟨kind, space, name⟩
  | .updateRoute space sent, route => route.Ready ⟨sent.kind, space, sent.name⟩
  | .getDocument space name, document => document.Ready ⟨space, name⟩
  | .createDocument space name, document => document.Ready ⟨space, name⟩
  | .updateDocument space sent, document => document.Ready ⟨space, sent.name⟩
  | .listRoutes .., (names : List String) => ∀ name ∈ names, Path.IsSegment name

theorem IsReady.isSettled {r : Request} (h : r.IsReady) : r.IsSettled := by
  cases r with
  | updateRoute space route => exact ⟨h.settled, h.stored.placed⟩
  | updateDocument space document => exact ⟨h.settled, h.stored.placed⟩
  | getRoute => trivial
  | listRoutes => trivial
  | getDocument => trivial
  | createDocument => trivial

theorem ShowsReady.showsNames {r : Request} {a : r.Answer} (h : r.ShowsReady a) :
    r.ShowsNames a := by
  cases r with
  | getRoute => exact h.isAt.name
  | updateRoute => trivial
  | listRoutes => exact h
  | getDocument => exact h.isAt.name
  | createDocument => exact h.isAt.name
  | updateDocument => exact h.isAt.name

end Request

namespace Cluster

variable {c : Cluster}

theorem Ready.putRoute (h : c.Ready) {key : RouteKey} {r : Route}
    (hr : (r.withVersion c.fresh).Ready key) (hname : Path.IsSegment key.name) :
    (c.putRoute key r).Ready where
  routes {key' r'} hget := by
    rw [get?_putRoute] at hget
    split at hget
    · next e => cases hget; exact e ▸ hr
    · exact h.routes hget
  documents hget := h.documents hget
  names {key' r'} hget := by
    rw [get?_putRoute] at hget
    split at hget
    · next e => exact e ▸ hname
    · exact h.names hget

theorem Ready.putDocument (h : c.Ready) {key : DocumentKey} {d : Document}
    (hd : (d.withVersion c.fresh).Ready key) : (c.putDocument key d).Ready where
  routes hget := h.routes hget
  documents {key' d'} hget := by
    rw [get?_putDocument] at hget
    split at hget
    · next e => cases hget; exact e ▸ hd
    · exact h.documents hget
  names hget := h.names hget

/-- An empty document can be written once it has a version. -/
theorem ready_created (key : DocumentKey) : ((created key).withVersion c.fresh).Ready key where
  stored := ⟨rfl, rfl, Option.some_ne_none _⟩
  settled := Document.settled_of_others_eq_nil rfl rfl

/-- The names that are listed are those of routes. -/
theorem Ready.listed (h : c.Ready) {space : String} {kind : RouteKind} {selector : LabelSelector}
    {names : List String}
    (hnames : (Cluster.respond (.listRoutes space kind selector) c).1 = .ok names) :
    ∀ name ∈ names, Path.IsSegment name := by
  rw [respond_eq_answer (by simp [Request.isNamed, Request.hasNameInPath])] at hnames
  simp only [Holdings.answer] at hnames
  split at hnames
  · rw [listRoutes_eq] at hnames
    cases hnames
    refine List.forall_mem_map.2 fun e he => ?_
    have hget := KeyMap.mem_entries.1 (List.mem_of_mem_filter he)
    rw [(h.routes hget).isAt.name]
    exact h.names hget
  · cases hnames

/-- A request that sends what can be written leaves behind, and shows, what can be written. -/
theorem Ready.respond (h : c.Ready) {r : Request} (hr : r.IsReady) :
    (Cluster.respond r c).2.Ready ∧ ∀ a, (Cluster.respond r c).1 = .ok a → r.ShowsReady a := by
  have hfailed (e : ApiFailure) :
      c.Ready ∧ ∀ a : r.Answer, (Except.error e : Except ApiFailure r.Answer) = .ok a →
        r.ShowsReady a := ⟨h, fun _ he => nomatch he⟩
  cases r with
  | getRoute space kind name =>
    rcases respond_getRoute_cases c ⟨kind, space, name⟩ with ⟨e, he⟩ | ⟨route, -, hget, he⟩
    · exact he ▸ hfailed e
    · exact he ▸ ⟨h, by rintro _ ⟨⟩; exact h.routes hget⟩
  | listRoutes space kind selector =>
    exact ⟨(respond_listRoutes c space kind selector).symm ▸ h, fun _ he => h.listed he⟩
  | getDocument space name =>
    rcases respond_getDocument_cases c ⟨space, name⟩ with ⟨e, he⟩ | ⟨document, hget, he⟩
    · exact he ▸ hfailed e
    · exact he ▸ ⟨h, by rintro _ ⟨⟩; exact h.documents hget⟩
  | createDocument space name =>
    rcases respond_createDocument_cases c ⟨space, name⟩ with ⟨e, he⟩ | ⟨-, he⟩
    · exact he ▸ hfailed e
    · have hcreated : ((created ⟨space, name⟩).withVersion c.fresh).Ready ⟨space, name⟩ :=
        ready_created _
      exact he ▸ ⟨h.putDocument hcreated, by rintro _ ⟨⟩; exact hcreated⟩
  | updateRoute space route =>
    have hstored : (route.withVersion c.fresh).Ready ⟨route.kind, space, route.name⟩ :=
      hr.withVersion (Option.some_ne_none _)
    rcases respond_updateRoute_cases c hr.isAt hr.stored.versioned with
      ⟨e, he⟩ | ⟨x, hget, -, -, he⟩
    · exact he ▸ hfailed e
    · exact he ▸ ⟨h.putRoute hstored (h.names hget), by rintro _ ⟨⟩; exact hstored⟩
  | updateDocument space document =>
    have hstored : (document.withVersion c.fresh).Ready ⟨space, document.name⟩ :=
      hr.withVersion (Option.some_ne_none _)
    rcases respond_updateDocument_cases c hr.isAt hr.stored.versioned with
      ⟨e, he⟩ | ⟨x, -, -, -, he⟩
    · exact he ▸ hfailed e
    · exact he ▸ ⟨h.putDocument hstored, by rintro _ ⟨⟩; exact hstored⟩

/-- What a server holds that stores the objects of the cluster as JSON. -/
def written (c : Cluster) : Holdings Json Json where
  routes := c.routes.mapValues fun _ r => r.toJson
  documents := c.documents.mapValues fun _ d => d.toJson
  versions := c.versions

theorem Ready.agree_written (h : c.Ready) : Holdings.Agree .json .plain c.written c where
  routes := KeyMap.related_mapValues fun _ _ hget =>
    Route.agree_toJson (h.routes hget).settled (h.routes hget).kind
  documents := KeyMap.related_mapValues fun _ _ hget =>
    Document.agree_toJson (h.documents hget).settled _
  versions := rfl

end Cluster

/-! ### What operations send -/

/-- What the exchange shows can be written. -/
def Exchange.IsReady (x : Exchange) : Prop := ∀ a, x.answer = .ok a → x.request.ShowsReady a

theorem Exchange.Shows.ready {k : DocumentKey} {d : Document} {x : Exchange} (h : x.Shows k d)
    (hx : x.IsReady) : d.Ready k := by
  cases h with
  | read => exact hx d rfl
  | created => exact hx d rfl
  | @written d₀ hname =>
    have hd : d.Ready ⟨k.space, d₀.name⟩ := hx d rfl
    rwa [hname] at hd

theorem Route.Ready.isReady_updateRoute {r : Route} {key : RouteKey} (h : r.Ready key) :
    (Request.updateRoute key.space r).IsReady := by
  rw [Request.IsReady, h.kind, h.isAt.name]
  exact h

theorem Document.Ready.isReady_updateDocument {d : Document} {key : DocumentKey}
    (h : d.Ready key) : (Request.updateDocument key.space d).IsReady := by
  rw [Request.IsReady, h.isAt.name]
  exact h

/-- The weights of the further services fit into 32 bits. -/
def Operation.Fits : Operation → Prop
  | .setWeight _ destinations => ∀ d ∈ destinations, IsInt32 d.weight
  | .verifyWeight .. | .setHeaderRoute _ | .removeManagedRoutes | .updateHash => True

namespace Order

variable {o : Order}

/-- The weight that the operation asks for, if it sets weights, is a percentage. -/
def AsksPercentage (o : Order) : Prop :=
  ∀ desired destinations, o.operation = .setWeight desired destinations → IsPercentage desired

theorem Makes.ready {r r' : Route} {key : RouteKey} (h : o.Makes r r')
    (hpercentage : o.AsksPercentage) (hfits : o.operation.Fits) (hr : r.Ready key) :
    r'.Ready key := by
  cases h with
  | @weights desired destinations settings skip _ hop _ hweigh =>
    have hdestinations : ∀ d ∈ destinations, IsInt32 d.weight := by
      rw [hop] at hfits
      exact hfits
    have hsettled := hr.settled.reweigh (hpercentage _ _ hop) hdestinations hweigh
    obtain ⟨rules, -, rfl⟩ := Router.reweigh_eq_ok.1 hweigh
    obtain ⟨labels, hlabels⟩ := r.metadata.ensureLabel_eq desired settings
    refine ⟨hr.kind, ?_, hsettled⟩
    rw [hlabels]
    exact ⟨hr.stored.space, hr.stored.name, hr.stored.versioned⟩
  | headers _ hon =>
    have hsettled := hr.settled.after_of_on hon
    obtain ⟨rfl, -, hproper⟩ := Router.proper_of_on hon ""
    obtain ⟨rules, hafter⟩ := hproper.after_eq
    rw [hafter] at hsettled ⊢
    exact ⟨hr.kind, hr.stored, hsettled⟩

theorem Records.ready {d d' : Document} {key : DocumentKey} (h : o.Records d d')
    (hd : d.Ready key) : d'.Ready key := by
  cases h with
  | headers => exact ⟨hd.stored, hd.settled.store _ _⟩

end Order

/-- An operation that has been shown what can be written sends what can be written. -/
theorem Ledger.isReady {o : Order} {log : List Exchange} {r : Request} (h : Ledger o log r)
    (hpercentage : o.AsksPercentage) (hfits : o.operation.Fits) (hlog : ∀ x ∈ log, x.IsReady) :
    r.IsReady := by
  cases h with
  | getRoute => trivial
  | listRoutes => trivial
  | getDocument => trivial
  | createDocument => trivial
  | @replace earlier k r r' hsplit hmakes =>
    have hread := hlog ⟨.getRoute k.space k.kind k.name, .ok r⟩ (by simp [hsplit])
    exact (hmakes.ready hpercentage hfits (hread r rfl)).isReady_updateRoute
  | @restore earlier k r r' stored d failure hsplit hmakes =>
    have hread := hlog ⟨.getRoute k.space k.kind k.name, .ok r⟩ (by simp [hsplit])
    have hwritten := hlog ⟨.updateRoute k.space r', .ok stored⟩ (by simp [hsplit])
    exact (Route.Ready.withVersion (hread r rfl)
      (hwritten stored rfl).stored.versioned).isReady_updateRoute
  | @record earlier later x k d d' hsplit hshows hrecords =>
    have hx := hlog x (by simp [hsplit])
    exact (hrecords.ready (hshows.ready hx)).isReady_updateDocument

/-! ### Requests -/

namespace Order

variable {o : Order}

/-- A weight that is no percentage is refused at once. -/
theorem program_of_not_asksPercentage (h : ¬ o.AsksPercentage) :
    ∃ e, o.program = .done (.error e) := by
  simp only [AsksPercentage, not_forall] at h
  obtain ⟨desired, destinations, hop, hdesired⟩ := h
  refine ⟨.weightOutOfRange desired, ?_⟩
  have hcheck : Router.checkWeight desired = .error (.weightOutOfRange desired) := if_neg hdesired
  simp only [program, hop, Router.perform, Router.setWeight, hcheck]
  rfl

/-- An operation asks only faithful requests if the server holds and shows what can be written. -/
theorem faithful_requests {σ : Type} {server : Server σ} {I : σ → Prop}
    (hserver : ∀ r s, I s → r.IsReady →
      I (server r s).2 ∧ ∀ a, (server r s).1 = .ok a → r.ShowsReady a)
    (haddressed : o.rollout.IsAddressed) (hfits : o.operation.Fits) {s : σ} (hs : I s) :
    ∀ r ∈ o.program.requests server s, r.Faithful := by
  by_cases hpercentage : o.AsksPercentage
  · have hstart : I s ∧ (∀ x ∈ ([] : List Exchange), x.IsReady) ∧ True :=
      ⟨hs, List.forall_mem_nil _, trivial⟩
    refine ((Ledger.follows_perform o).both (Naming.follows_perform haddressed)).requests
      (I := fun s known => I s ∧ (∀ x ∈ known.1, x.IsReady) ∧ known.2) ?_ hstart
    rintro s ⟨log, g⟩ r learn ⟨hI, hlog, hg⟩ ⟨⟨hledger, hlearn⟩, hnames, hlearn'⟩
    have hr := hledger.isReady hpercentage hfits hlog
    obtain ⟨hI', hshows⟩ := hserver r s hI hr
    have hlogged : (learn (server r s).1).1 = log ++ [⟨r, (server r s).1⟩] := hlearn _
    have hshown : (learn (server r s).1).2 =
        (g ∧ ∀ a, (server r s).1 = .ok a → r.ShowsNames a) := hlearn' _
    refine ⟨⟨hnames hg, hr.isSettled⟩, hI', ?_, ?_⟩
    · rw [hlogged]
      exact List.forall_mem_append.2 ⟨hlog, List.forall_mem_singleton.2 hshows⟩
    · rw [hshown]
      exact ⟨hg, fun a ha => (hshows a ha).showsNames⟩
  · obtain ⟨e, he⟩ := program_of_not_asksPercentage hpercentage
    rw [he]
    exact List.forall_mem_nil _

end Order

/-! ### Operations -/

namespace ScriptedCluster

variable {s : ScriptedCluster} {c : Cluster} {o : Order}

/-- An operation does the same to a cluster that stores JSON as to one that stores objects as they
are. -/
theorem program_agree (hagree : Holdings.Agree .json .plain s.holdings c)
    (hscript : s.disturbances = []) (hready : c.Ready) (haddressed : o.rollout.IsAddressed)
    (hfits : o.operation.Fits) :
    (o.program.run respond s).1 = (o.program.run Cluster.respond c).1 ∧
      Holdings.Agree .json .plain (o.program.run respond s).2.holdings
        (o.program.run Cluster.respond c).2 :=
  run_agree o.program hagree hscript <|
    Order.faithful_requests (I := Cluster.Ready) (fun _ _ h hr => h.respond hr) haddressed hfits
      hready

/-- If its script lets requests fail, it does the same as to a cluster in which these fail. -/
theorem exists_failures_program (hagree : Holdings.Agree .json .plain s.holdings c)
    (honly : ∀ d ∈ s.disturbances, d.OnlyFails) (hready : c.Ready)
    (haddressed : o.rollout.IsAddressed) (hfits : o.operation.Fits) :
    ∃ failures,
      (o.program.run respond s).1 = (o.program.run FaultyCluster.respond ⟨c, failures⟩).1 ∧
      Holdings.Agree .json .plain (o.program.run respond s).2.holdings
        (o.program.run FaultyCluster.respond ⟨c, failures⟩).2.cluster := by
  have hserver : ∀ (r : Request) (s : FaultyCluster), s.cluster.Ready → r.IsReady →
      (FaultyCluster.respond r s).2.cluster.Ready ∧
        ∀ a, (FaultyCluster.respond r s).1 = .ok a → r.ShowsReady a := by
    intro r s h hr
    unfold FaultyCluster.respond
    cases s.failure? with
    | none => exact h.respond hr
    | some failure => exact ⟨h, fun _ he => nomatch he⟩
  exact exists_failures o.program hagree honly fun failures =>
    Order.faithful_requests (I := fun s => s.cluster.Ready) hserver haddressed hfits hready

end ScriptedCluster

end CanaryRouting
