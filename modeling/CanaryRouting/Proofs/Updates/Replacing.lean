import CanaryRouting.Proofs.Updates.Accepted
import CanaryRouting.Proofs.Updates.Ledger

/-!
# No update is lost

Whatever operations of whatever routers work with one cluster, in whatever order their requests are
answered and whichever of them fail: an accepted write is made from exactly what it replaces
(`founded_of_run`). The route or document that it replaces is the one that the caller has read, and
nobody has written it in between. An earlier route that is stored again replaces the route that the
same change has stored, and is the route that this had replaced.
-/

namespace CanaryRouting

open Program

namespace Event

/-- The request and its answer. -/
def exchange (e : Event) : Exchange := ⟨e.request, e.answer⟩

/-- Whether the request is to write something. -/
def isWrite (e : Event) : Bool := e.request.routeKey?.isSome || e.request.documentKey?.isSome

/-- After these events, the event writes what the operation has made of just what it replaces. What
is stored then is what was written, with a new version. -/
inductive Founded (o : Order) : List Event → Event → Prop where
  /-- The route is what the operation makes of the stored route, which the caller has read by the
  request before. -/
  | replacesRoute {es₁ es₂ : List Event} {i : Nat} {k : RouteKey} {r r' : Route}
    {c₁ c₂ : Cluster} :
    c₂.routes.get? k = some r → o.Makes r r' → r'.IsAt k → eventsOf i es₂ = [] →
    RouteUntouched k es₂ →
    Founded o (es₁ ++ ⟨i, .getRoute k.space k.kind k.name, .ok r, c₁⟩ :: es₂)
      ⟨i, .updateRoute k.space r', .ok (r'.withVersion c₂.fresh), c₂⟩
  /-- The route is the one that the caller has replaced by the stored route, and since then its
  document has been refused. -/
  | restoresRoute {es₁ es₂ : List Event} {i : Nat} {k : RouteKey} {r r' : Route}
    {d : Document} {failure : ApiFailure} {c₁ c₂ c₃ : Cluster} :
    c₁.routes.get? k = some r → o.Makes r r' → r.IsAt k →
    c₂.routes.get? k = some (r'.withVersion c₁.fresh) →
    eventsOf i es₂ = [⟨i, .updateDocument k.space d, .error failure, c₃⟩] → RouteUntouched k es₂ →
    Founded o (es₁ ++ ⟨i, .updateRoute k.space r', .ok (r'.withVersion c₁.fresh), c₁⟩ :: es₂)
      ⟨i, .updateRoute k.space (r.withVersion c₁.fresh), .ok (r.withVersion c₂.fresh), c₂⟩
  /-- The document is what the operation makes of the stored document, which the caller has read or
  written. -/
  | replacesDocument {es₁ es₂ : List Event} {e : Event} {k : DocumentKey} {d d' : Document}
    {c₂ : Cluster} :
    e.exchange.Shows k d → c₂.documents.get? k = some d → o.Records d d' → d'.IsAt k →
    DocumentUntouched k es₂ →
    Founded o (es₁ ++ e :: es₂)
      ⟨e.caller, .updateDocument k.space d', .ok (d'.withVersion c₂.fresh), c₂⟩
  /-- The document is created, and there was none. -/
  | createsDocument {es : List Event} {i : Nat} {k : DocumentKey} {c₂ : Cluster} :
    c₂.documents.get? k = none →
    Founded o es ⟨i, .createDocument k.space k.name,
      .ok ((Cluster.created k).withVersion c₂.fresh), c₂⟩

end Event

/-! ### What is made from what -/

theorem Order.Makes.isAt {o : Order} {r r' : Route} (h : o.Makes r r') {k : RouteKey}
    (hr : r.IsAt k) : r'.IsAt k := by
  cases h with
  | weights _ _ hweigh => exact hr.of_sameShape (Router.sameShape_of_reweigh hweigh)
  | headers _ hon =>
    obtain ⟨hbefore, -, hproper⟩ := Router.proper_of_on hon k.space
    obtain ⟨rules, hafter⟩ := hproper.after_eq
    rw [hafter, hbefore]
    exact ⟨hr.kind, hr.space, hr.name⟩

theorem Order.Makes.version {o : Order} {r r' : Route} (h : o.Makes r r') :
    r'.version = r.version := by
  cases h with
  | weights _ _ hweigh => exact (Router.sameShape_of_reweigh hweigh).version
  | headers _ hon =>
    obtain ⟨hbefore, -, hproper⟩ := Router.proper_of_on hon ""
    exact hbefore ▸ hproper.version_after

theorem Order.Records.isAt {o : Order} {d d' : Document} (h : o.Records d d') {k : DocumentKey}
    (hd : d.IsAt k) : d'.IsAt k := by
  cases h
  exact ⟨hd.space, hd.name⟩

theorem Order.Records.version {o : Order} {d d' : Document} (h : o.Records d d') :
    d'.version = d.version := by
  cases h
  rfl

/-! ### Before and after an event -/

/-- The part of a log that is about one caller splits the log. -/
theorem split_of_log {i : Nat} {es : List Event} {x : Exchange} {earlier later : List Exchange}
    (h : (eventsOf i es).map Event.exchange = earlier ++ x :: later) :
    ∃ es₁ e es₂, es = es₁ ++ e :: es₂ ∧ e.caller = i ∧ e.exchange = x ∧
      (eventsOf i es₁).map Event.exchange = earlier ∧
      (eventsOf i es₂).map Event.exchange = later := by
  obtain ⟨own₁, own₂, hown, rfl, hlater⟩ := List.map_eq_append_iff.1 h
  obtain ⟨e, own₃, rfl, rfl, rfl⟩ := List.map_eq_cons_iff.1 hlater
  have hmem : e ∈ eventsOf i es := hown ▸ List.mem_append_right _ (List.mem_cons_self ..)
  obtain ⟨es₁, es₂, rfl, hes₁, hes₂⟩ := eventsOf_split hown
  exact ⟨es₁, e, es₂, rfl, (mem_eventsOf.1 hmem).2, rfl, by rw [hes₁], by rw [hes₂]⟩

theorem RouteUntouched.of_accepted {k : RouteKey} {es : List Event}
    (h : RouteUntouched k (acceptedOf es)) : RouteUntouched k es := fun e he haccepted =>
  h e (List.mem_filter.2 ⟨he, haccepted⟩) haccepted

theorem DocumentUntouched.of_accepted {k : DocumentKey} {es : List Event}
    (h : DocumentUntouched k (acceptedOf es)) : DocumentUntouched k es := fun e he haccepted =>
  h e (List.mem_filter.2 ⟨he, haccepted⟩) haccepted

namespace Cluster

variable {c c' c₁ start : Cluster} {es : List Event}

/-- A route that was seen, and is replaced by one that carries its version, is what is replaced. -/
theorem History.routeReplaced (h : History c₁ es c) {k : RouteKey} {r r' stored : Route}
    (hc₁ : c₁.WellFormed) (hr : c₁.routes.get? k = some r) (hat : r'.IsAt k)
    (hversion : r'.version = r.version)
    (hok : (Cluster.respond (.updateRoute k.space r') c).1 = .ok stored) :
    c.routes.get? k = some r ∧ stored = r'.withVersion c.fresh ∧
      (Cluster.respond (.updateRoute k.space r') c).2 = c.putRoute k r' ∧ RouteUntouched k es := by
  obtain ⟨hfound, hstored, hput⟩ := h.updated hc₁ hr hat hversion hok
  exact ⟨hfound, hstored, hput, h.routeUntouched (hc₁.saw hr) hfound⟩

/-- A document that was seen, and is replaced by one that carries its version, is what is
replaced. -/
theorem History.documentReplaced (h : History c₁ es c) {k : DocumentKey} {d d' stored : Document}
    (hc₁ : c₁.WellFormed) (hd : c₁.documents.get? k = some d) (hat : d'.IsAt k)
    (hversion : d'.version = d.version)
    (hok : (Cluster.respond (.updateDocument k.space d') c).1 = .ok stored) :
    c.documents.get? k = some d ∧ stored = d'.withVersion c.fresh ∧
      (Cluster.respond (.updateDocument k.space d') c).2 = c.putDocument k d' ∧
      DocumentUntouched k es := by
  have hsaw := h.sawDocument (hc₁.sawDocument hd)
  rcases respond_updateDocument_cases c hat (hversion ▸ hsaw.issued.ne_none) with
    ⟨e, he⟩ | ⟨x, hx, hv, -, he⟩
  · rw [he] at hok
    cases hok
  · have hstored : c.documents.get? k = some d := hsaw.eq hx (hv.trans hversion) ▸ hx
    rw [he] at hok ⊢
    cases hok
    exact ⟨hstored, rfl, rfl, h.documentUntouched (hc₁.sawDocument hd) hstored⟩

/-- What an answer shows is stored then. -/
theorem get?_of_shows {e : Event} {k : DocumentKey} {d : Document} (hshows : e.exchange.Shows k d)
    (hanswer : e.answer = (Cluster.respond e.request e.before).1) :
    (Cluster.respond e.request e.before).2.documents.get? k = some d := by
  obtain ⟨i, r, answer, before⟩ := e
  simp only [Event.exchange] at hshows hanswer ⊢
  cases hshows with
  | read =>
    have haccepted := Acceptance.of_respond hanswer.symm
    generalize (Cluster.respond _ before).2 = c' at haccepted ⊢
    cases haccepted with
    | getDocument hd => exact hd
  | created =>
    have haccepted := Acceptance.of_respond hanswer.symm
    generalize (Cluster.respond _ before).2 = c' at haccepted ⊢
    cases haccepted with
    | createDocument _ _ => exact KeyMap.get?_insert_self _ _ _
  | written hname =>
    have haccepted := Acceptance.of_respond hanswer.symm
    generalize (Cluster.respond _ before).2 = c' at haccepted ⊢
    cases haccepted with
    | updateDocument _ _ _ =>
      rw [hname]
      exact KeyMap.get?_insert_self _ _ _

end Cluster

/-! ### The past of a run -/

/-- The accepted requests lead from one cluster to another, and leave well-formed clusters. -/
structure Past (start : Cluster) (events : List Event) (c : Cluster) : Prop where
  /-- The accepted requests are the history. -/
  history : start.History (acceptedOf events) c
  /-- The clusters are well formed. -/
  wellFormed : ∀ e ∈ acceptedOf events, (Cluster.respond e.request e.before).2.WellFormed

namespace Past

variable {start c : Cluster} {events : List Event} {i : Nat}

/-- An accepted event has a past, and what comes behind it is the history from then on. -/
theorem of_middle {es₁ es₂ : List Event} {e : Event} (he : e.isAccepted)
    (h : Past start (es₁ ++ e :: es₂) c) :
    Past start es₁ e.before ∧ e.answer = (Cluster.respond e.request e.before).1 ∧
      (Cluster.respond e.request e.before).2.WellFormed ∧
      (Cluster.respond e.request e.before).2.History (acceptedOf es₂) c := by
  have hsplit : acceptedOf (es₁ ++ e :: es₂) = acceptedOf es₁ ++ e :: acceptedOf es₂ := by
    rw [acceptedOf_append, acceptedOf_cons he]
  obtain ⟨hbefore, hanswer, hafter⟩ := (hsplit ▸ h.history).of_middle
  have hwell := fun e' he' => h.wellFormed e' (hsplit ▸ he')
  exact ⟨⟨hbefore, fun e' he' => hwell e' (List.mem_append_left _ he')⟩, hanswer,
    hwell e (by simp), hafter⟩

/-- A route that the caller has just read, and replaces, is what is stored. -/
theorem replace (h : Past start events c) {o : Order} {earlier : List Exchange} {k : RouteKey}
    {r r' stored : Route} (hlog : (eventsOf i events).map Event.exchange =
      earlier ++ [⟨.getRoute k.space k.kind k.name, .ok r⟩]) (hmakes : o.Makes r r')
    (hok : (Cluster.respond (.updateRoute k.space r') c).1 = .ok stored) :
    r.IsAt k ∧ c.routes.get? k = some r ∧ stored = r'.withVersion c.fresh ∧
      (Cluster.respond (.updateRoute k.space r') c).2 = c.putRoute k r' ∧
      Event.Founded o events ⟨i, .updateRoute k.space r', .ok stored, c⟩ := by
  obtain ⟨es₁, ⟨j, request, answer, before⟩, es₂, rfl, rfl, hexchange, -, hown⟩ :=
    split_of_log hlog
  cases hexchange
  obtain ⟨-, hanswer, hwell, hrest⟩ := h.of_middle rfl
  have haccepted := Cluster.Acceptance.of_respond hanswer.symm
  generalize (Cluster.respond _ before).2 = c₁ at haccepted hwell hrest
  cases haccepted with
  | getRoute hr =>
    have hat := hwell.route_isAt hr
    obtain ⟨hstored, hanswered, hput, huntouched⟩ :=
      hrest.routeReplaced hwell hr (hmakes.isAt hat) hmakes.version hok
    subst hanswered
    exact ⟨hat, hstored, rfl, hput, .replacesRoute hstored hmakes (hmakes.isAt hat)
      (List.map_eq_nil_iff.1 hown) huntouched.of_accepted⟩

/-- A route that is stored again replaces what the caller has written. -/
theorem restore (h : Past start events c) {o : Order} {earlier : List Exchange} {k : RouteKey}
    {r r' written stored : Route} {d : Document} {failure : ApiFailure}
    (hlog : (eventsOf i events).map Event.exchange =
      earlier ++ [⟨.getRoute k.space k.kind k.name, .ok r⟩,
        ⟨.updateRoute k.space r', .ok written⟩, ⟨.updateDocument k.space d, .error failure⟩])
    (hmakes : o.Makes r r') (hok : (Cluster.respond (.updateRoute k.space
      (r.withVersion written.version)) c).1 = .ok stored) :
    r.IsAt k ∧ (Cluster.respond (.updateRoute k.space (r.withVersion written.version)) c).2 =
        c.putRoute k (r.withVersion written.version) ∧
      Event.Founded o events
        ⟨i, .updateRoute k.space (r.withVersion written.version), .ok stored, c⟩ := by
  have hsplit : earlier ++ [⟨.getRoute k.space k.kind k.name, .ok r⟩,
      ⟨.updateRoute k.space r', .ok written⟩, ⟨.updateDocument k.space d, .error failure⟩] =
      (earlier ++ [⟨.getRoute k.space k.kind k.name, .ok r⟩]) ++
        (⟨.updateRoute k.space r', .ok written⟩ : Exchange) ::
          [⟨.updateDocument k.space d, .error failure⟩] := by
    rw [List.append_assoc]
    rfl
  obtain ⟨es₁, ⟨j, request, answer, before⟩, es₂, rfl, rfl, hexchange, hread, hown⟩ :=
    split_of_log (hlog.trans hsplit)
  cases hexchange
  obtain ⟨hpast, hanswer, hwell, hrest⟩ := h.of_middle rfl
  obtain ⟨hat, hr, hwritten, hput, -⟩ := hpast.replace hread hmakes hanswer.symm
  simp only at hwell hrest
  rw [hput] at hwell hrest
  have hget : (before.putRoute k r').routes.get? k = some written := by
    rw [Cluster.get?_putRoute_self, hwritten]
  obtain ⟨hstored, rfl, hput', huntouched⟩ := hrest.routeReplaced hwell hget
    (hat.withVersion written.version) rfl hok
  obtain ⟨e, hrefused, hexchange⟩ := List.map_eq_singleton_iff.1 hown
  have hcaller : e.caller = j := by
    have hmem : e ∈ eventsOf j es₂ := by rw [hrefused]; exact List.mem_singleton_self _
    exact of_decide_eq_true (List.mem_filter.1 hmem).2
  obtain ⟨j', request, answer, c₃⟩ := e
  cases hexchange
  cases hcaller
  simp only at hwritten
  subst hwritten
  exact ⟨hat, hput', .restoresRoute hr hmakes hat hstored hrefused huntouched.of_accepted⟩

/-- A document that the caller has got hold of, and replaces, is what is stored. -/
theorem record (h : Past start events c) {o : Order} {earlier later : List Exchange} {x : Exchange}
    {k : DocumentKey} {d d' stored : Document}
    (hlog : (eventsOf i events).map Event.exchange = earlier ++ x :: later)
    (hshows : x.Shows k d) (hrecords : o.Records d d')
    (hok : (Cluster.respond (.updateDocument k.space d') c).1 = .ok stored) :
    d'.IsAt k ∧ (Cluster.respond (.updateDocument k.space d') c).2 = c.putDocument k d' ∧
      Event.Founded o events ⟨i, .updateDocument k.space d', .ok stored, c⟩ := by
  obtain ⟨es₁, e, es₂, rfl, rfl, rfl, -, -⟩ := split_of_log hlog
  have haccepted : e.isAccepted := by
    obtain ⟨j, request, answer, before⟩ := e
    cases hshows <;> rfl
  obtain ⟨-, hanswer, hwell, hrest⟩ := h.of_middle haccepted
  have hget := Cluster.get?_of_shows hshows hanswer
  have hat := hrecords.isAt (hwell.document_isAt hget)
  obtain ⟨hstored, rfl, hput, huntouched⟩ :=
    hrest.documentReplaced hwell hget hat hrecords.version hok
  exact ⟨hat, hput, .replacesDocument hshows hstored hrecords hat huntouched.of_accepted⟩

end Past

/-! ### The invariant -/

/-- The invariant of a run: what the callers remember is what has happened to them, and every
accepted write was founded. -/
structure Account (start : Cluster) (orders : List Order) (c : Cluster) (events : List Event)
    (known : Nat → List Exchange) : Prop where
  /-- The run has a past. -/
  past : Past start events c
  /-- The callers remember their requests and the answers. -/
  known : ∀ i, known i = (eventsOf i events).map Event.exchange
  /-- The cluster is well formed. -/
  wellFormed : c.WellFormed
  /-- The accepted writes are founded. -/
  founded : ∀ es₁ e es₂, events = es₁ ++ e :: es₂ → e.isAccepted → e.isWrite →
    ∃ o, orders[e.caller]? = some o ∧ e.Founded o es₁

/-- The requests of the operation of a caller. -/
def accounts (orders : List Order) (i : Nat) : Protocol (List Exchange) := fun log r learn =>
  ∃ o, orders[i]? = some o ∧ Ledger.protocol o log r learn

namespace Account

variable {start c : Cluster} {orders : List Order} {events : List Event}
  {known : Nat → List Exchange} {i : Nat} {o : Order}

/-- An accepted request leaves a well-formed cluster, and a write is founded. -/
theorem accepted (h : Account start orders c events known) {r : Request} {a : r.Answer}
    (hr : Ledger o (known i) r) (ha : (Cluster.respond r c).1 = .ok a) :
    (Cluster.respond r c).2.WellFormed ∧
      ((⟨i, r, .ok a, c⟩ : Event).isWrite → Event.Founded o events ⟨i, r, .ok a, c⟩) := by
  have haccepted := Cluster.Acceptance.of_respond ha
  rw [h.known] at hr
  cases hr with
  | getRoute space kind name =>
    generalize (Cluster.respond _ c).2 = c' at haccepted ⊢
    cases haccepted
    exact ⟨h.wellFormed, fun hwrite => nomatch hwrite⟩
  | listRoutes space kind selector =>
    generalize (Cluster.respond _ c).2 = c' at haccepted ⊢
    cases haccepted
    exact ⟨h.wellFormed, fun hwrite => nomatch hwrite⟩
  | getDocument space name =>
    generalize (Cluster.respond _ c).2 = c' at haccepted ⊢
    cases haccepted
    exact ⟨h.wellFormed, fun hwrite => nomatch hwrite⟩
  | createDocument space name =>
    rcases Cluster.respond_createDocument_cases c ⟨space, name⟩ with ⟨e, he⟩ | ⟨hnone, he⟩
    · simp only at he
      rw [he] at ha
      cases ha
    · simp only at he
      rw [he] at ha ⊢
      cases ha
      exact ⟨h.wellFormed.putDocument (Cluster.created_isAt _),
        fun _ => .createsDocument (k := ⟨space, name⟩) hnone⟩
  | replace hlog hmakes =>
    obtain ⟨hat, -, -, hput, hfounded⟩ := h.past.replace hlog hmakes ha
    rw [hput]
    exact ⟨h.wellFormed.putRoute (hmakes.isAt hat), fun _ => hfounded⟩
  | restore hlog hmakes =>
    obtain ⟨hat, hput, hfounded⟩ := h.past.restore hlog hmakes ha
    rw [hput]
    exact ⟨h.wellFormed.putRoute (hat.withVersion _), fun _ => hfounded⟩
  | record hlog hshows hrecords =>
    obtain ⟨hat, hput, hfounded⟩ := h.past.record hlog hshows hrecords ha
    rw [hput]
    exact ⟨h.wellFormed.putDocument hat, fun _ => hfounded⟩

/-- The invariant goes on with one more event. -/
theorem concat (h : Account start orders c events known) (e : Event) {c' : Cluster}
    (hpast : Past start (events ++ [e]) c') (hwell : c'.WellFormed)
    (hfounded : e.isAccepted → e.isWrite →
      ∃ o, orders[e.caller]? = some o ∧ e.Founded o events) :
    Account start orders c' (events ++ [e])
      (Function.update known e.caller (known e.caller ++ [e.exchange])) where
  past := hpast
  known i := by
    by_cases hi : i = e.caller
    · subst hi
      rw [Function.update_self, eventsOf_append, List.map_append, h.known, eventsOf, eventsOf,
        List.filter_cons_of_pos (by simp)]
      rfl
    · rw [Function.update_of_ne hi, eventsOf_append, eventsOf, eventsOf,
        List.filter_cons_of_neg (by simpa using Ne.symm hi), List.filter_nil, List.append_nil]
      exact h.known i
  wellFormed := hwell
  founded es₁ e' es₂ hsplit haccepted hwrite := by
    rcases List.eq_nil_or_concat es₂ with rfl | ⟨es₃, e'', rfl⟩
    · obtain ⟨rfl, he⟩ := List.append_inj' hsplit rfl
      cases he
      exact hfounded haccepted hwrite
    · rw [List.concat_eq_append, ← List.cons_append, ← List.append_assoc] at hsplit
      exact h.founded es₁ e' es₃ (List.append_inj' hsplit rfl).1 haccepted hwrite

/-- Every request of an operation keeps the invariant. -/
theorem keeps : Traffic.Keeps (accounts orders) (fun _ => True) (Account start orders) := by
  intro c events known i r learn failure h hask _
  obtain ⟨o, ho, hr, hlearn⟩ := hask
  rw [hlearn]
  cases hanswer : (c.respondUnless failure r).1 with
  | error e =>
    have hsame : (c.respondUnless failure r).2 = c := by
      rcases Cluster.respondUnless_cases c failure r with ⟨e', he'⟩ | he'
      · rw [he']
      · rw [he'] at hanswer ⊢
        exact Cluster.respond_of_error hanswer
    rw [hsame]
    have hnone : acceptedOf (events ++ [⟨i, r, .error e, c⟩]) = acceptedOf events := by
      rw [acceptedOf_append]
      exact List.append_nil _
    exact h.concat ⟨i, r, .error e, c⟩ ⟨hnone ▸ h.past.history, hnone ▸ h.past.wellFormed⟩
      h.wellFormed fun haccepted => nomatch haccepted
  | ok a =>
    have hcarried : c.respondUnless failure r = Cluster.respond r c := by
      rcases Cluster.respondUnless_cases c failure r with ⟨e', he'⟩ | he'
      · rw [he'] at hanswer
        cases hanswer
      · exact he'
    rw [hcarried] at hanswer ⊢
    obtain ⟨hwell, hfounded⟩ := h.accepted hr hanswer
    have hone : acceptedOf (events ++ [⟨i, r, .ok a, c⟩]) =
        acceptedOf events ++ [⟨i, r, (Cluster.respond r c).1, c⟩] := by
      rw [acceptedOf_append, acceptedOf_cons rfl, hanswer]
      rfl
    refine h.concat ⟨i, r, .ok a, c⟩ ⟨hone ▸ h.past.history.concat i r, ?_⟩ hwell
      fun _ hwrite => ⟨o, ho, hfounded hwrite⟩
    rw [hone]
    intro e he
    rcases List.mem_append.1 he with he | he
    · exact h.past.wellFormed e he
    · rw [List.mem_singleton.1 he]
      exact hwell

end Account

/-! ### Runs -/

/-- The invariant holds of every run. -/
theorem account_of_run {c : Cluster} (hc : c.WellFormed) (orders : List Order) (turns : List Turn) :
    ∃ known, Account c orders ((Traffic.start c orders).run turns).cluster
      ((Traffic.start c orders).run turns).events known := by
  have hbegin : Account c orders c [] fun _ => [] :=
    ⟨⟨.nil, fun _ he => nomatch he⟩, fun _ => rfl, hc, fun es₁ e es₂ h => by cases es₁ <;> cases h⟩
  have hfollow : (Traffic.start c orders).Follow (accounts orders)
      (fun _ => Yields fun _ _ => True) fun _ => [] := by
    intro i p hp
    simp only [Traffic.start, List.getElem?_map, Option.map_eq_some_iff] at hp
    obtain ⟨o, ho, rfl⟩ := hp
    exact (Ledger.follows_perform o).permit fun _ _ _ hask => ⟨o, ho, hask⟩
  obtain ⟨known, hinv, -⟩ :=
    Traffic.run_follows Account.keeps hbegin hfollow turns fun _ _ => trivial
  exact ⟨known, hinv⟩

/-- However the requests of the operations are interleaved, and whichever of them fail: every
accepted write is made from exactly what it replaces. -/
theorem founded_of_run {c : Cluster} (hc : c.WellFormed) (orders : List Order) (turns : List Turn)
    {es₁ es₂ : List Event} {e : Event}
    (hevents : ((Traffic.start c orders).run turns).events = es₁ ++ e :: es₂)
    (haccepted : e.isAccepted) (hwrite : e.isWrite) :
    ∃ o, orders[e.caller]? = some o ∧ e.Founded o es₁ := by
  obtain ⟨known, haccount⟩ := account_of_run hc orders turns
  exact haccount.founded es₁ e es₂ hevents haccepted hwrite

/-- The events of the run in which three routers work with one route. -/
def shopEvents : List Event := ((Traffic.start shopCluster shopOrders).run shopTurns).events

/-- The second router, whose document has been refused, stores the earlier route again. -/
def shopUndoing : Event := shopEvents.get ⟨8, by decide +kernel⟩

theorem founded_of_run_shop : shopUndoing.caller = 1 ∧
    ∃ o, shopOrders[shopUndoing.caller]? = some o ∧ shopUndoing.Founded o (shopEvents.take 8) := by
  have hsplit : shopEvents = shopEvents.take 8 ++ shopUndoing :: shopEvents.drop 9 := by
    rw [shopUndoing, List.get_eq_getElem, List.getElem_cons_drop, List.take_append_drop]
  exact ⟨by decide +kernel, founded_of_run wellFormed_shopCluster shopOrders shopTurns hsplit
    (by decide +kernel) (by decide +kernel)⟩

end CanaryRouting
