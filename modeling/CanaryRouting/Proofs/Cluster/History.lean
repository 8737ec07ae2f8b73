import CanaryRouting.Proofs.Cluster.Versions
import CanaryRouting.Proofs.Store.Transcript

/-!
# Histories

The events of a run without failures lead from one cluster to another (`Cluster.History`), and the
events of each program are its transcript (`Traffic.leads_run`, `Traffic.Leads.transcript`).

What is stored under a key depends on the events that write it (`History.routes`,
`History.documents`). A caller that has read a route and then replaces it has replaced what it
read, whatever happened in between: otherwise the server refuses (`History.replaced`).
-/

namespace CanaryRouting

/-- Requests that were carried out one after the other lead from one cluster to another. -/
inductive Cluster.History : Cluster → List Event → Cluster → Prop where
  /-- Nothing happens. -/
  | nil {c : Cluster} : History c [] c
  /-- A request is carried out, and then others. -/
  | cons {c c' : Cluster} {i : Nat} {r : Request} {es : List Event} :
    History (Cluster.respond r c).2 es c' →
      History c (⟨i, r, (Cluster.respond r c).1, c⟩ :: es) c'

/-- The route that a request is to replace. -/
def Request.routeKey? : Request → Option RouteKey
  | .updateRoute space route => some ⟨route.kind, space, route.name⟩
  | _ => none

/-- The document that a request is to create or to replace. -/
def Request.documentKey? : Request → Option DocumentKey
  | .createDocument space name => some ⟨space, name⟩
  | .updateDocument space document => some ⟨space, document.name⟩
  | _ => none

/-- Whether an event writes the route under a key. -/
def Event.writes (key : RouteKey) (e : Event) : Bool := e.request.routeKey? = some key

/-- Whether an event writes the document under a key. -/
def Event.writesDocument (key : DocumentKey) (e : Event) : Bool :=
  e.request.documentKey? = some key

namespace Cluster

variable {c c' c₁ : Cluster}

/-! ### One request -/

/-- What a request can do to the cluster: nothing, or store one object with a new version. -/
inductive Effect (c : Cluster) (r : Request) : Cluster → Prop where
  /-- Nothing is stored. -/
  | none : Effect c r c
  /-- A route is stored. -/
  | route {k : RouteKey} {x : Route} : r.routeKey? = some k → x.version = c.fresh →
    Effect c r { c with routes := c.routes.insert k x, versions := c.versions + 1 }
  /-- A document is stored. -/
  | document {k : DocumentKey} {d : Document} : r.documentKey? = some k → d.version = c.fresh →
    Effect c r { c with documents := c.documents.insert k d, versions := c.versions + 1 }

theorem effect_respond (r : Request) (c : Cluster) : Effect c r (Cluster.respond r c).2 := by
  by_cases hnamed : r.isNamed
  · rw [respond_eq_answer hnamed]
    cases r with
    | getRoute space kind name => exact .none
    | getDocument space name => exact .none
    | listRoutes space kind selector =>
      simp only [Holdings.answer]
      split <;> exact .none
    | updateRoute space route =>
      simp only [Holdings.answer, Holdings.updateRoute]
      split
      · exact .none
      · exact .route rfl rfl
    | createDocument space name =>
      simp only [Holdings.answer, Holdings.createDocument]
      split
      · exact .none
      · exact .document rfl rfl
    | updateDocument space document =>
      simp only [Holdings.answer, Holdings.updateDocument]
      split
      · exact .none
      · exact .document rfl rfl
  · rw [respond_unnamed (by simpa using hnamed)]
    exact .none

/-- A request that does not write a route leaves it as it is. -/
theorem get?_respond_of_ne {r : Request} {k : RouteKey} (h : r.routeKey? ≠ some k) (c : Cluster) :
    (Cluster.respond r c).2.routes.get? k = c.routes.get? k := by
  have heffect := effect_respond r c
  generalize (Cluster.respond r c).2 = c' at heffect ⊢
  cases heffect with
  | none => rfl
  | route hk => exact (KeyMap.get?_insert _ _ _ _).trans (if_neg fun e => h (hk.trans (congrArg _ e)))
  | document hk => rfl

/-- A request that does not write a document leaves it as it is. -/
theorem get?_respond_document_of_ne {r : Request} {k : DocumentKey} (h : r.documentKey? ≠ some k)
    (c : Cluster) : (Cluster.respond r c).2.documents.get? k = c.documents.get? k := by
  have heffect := effect_respond r c
  generalize (Cluster.respond r c).2 = c' at heffect ⊢
  cases heffect with
  | none => rfl
  | route hk => rfl
  | document hk =>
    exact (KeyMap.get?_insert _ _ _ _).trans (if_neg fun e => h (hk.trans (congrArg _ e)))

/-- What a caller has read is what is stored as long as the version is the same. -/
theorem Saw.respond {k : RouteKey} {x : Route} (h : c.Saw k x) (r : Request) :
    (Cluster.respond r c).2.Saw k x := by
  have heffect := effect_respond r c
  generalize (Cluster.respond r c).2 = c' at heffect ⊢
  cases heffect with
  | none => exact h
  | @route k' x' hk hv =>
    refine ⟨h.isAt, h.issued.mono (Nat.le_succ _), fun {y} hy hversion => ?_⟩
    rw [KeyMap.get?_insert] at hy
    split at hy
    · cases hy
      exact absurd (hversion.symm.trans hv) h.issued.ne_fresh
    · exact h.eq hy hversion
  | document hk hv => exact ⟨h.isAt, h.issued.mono (Nat.le_succ _), fun hy => h.eq hy⟩

/-- A route that was read was stored. -/
theorem get?_of_respond_getRoute {k : RouteKey} {r : Route}
    (h : (Cluster.respond (.getRoute k.space k.kind k.name) c).1 = .ok r) :
    c.routes.get? k = some r := by
  rcases respond_getRoute_cases c k with ⟨e, he⟩ | ⟨r', -, hr', he⟩ <;> rw [he] at h <;> cases h
  exact hr'

namespace History

variable {es es₁ es₂ : List Event} {e : Event}

theorem of_append (h : History c (es₁ ++ es₂) c') :
    ∃ c₁, History c es₁ c₁ ∧ History c₁ es₂ c' := by
  induction es₁ generalizing c with
  | nil => exact ⟨c, .nil, h⟩
  | cons e es₁ ih =>
    cases h with
    | cons h =>
      obtain ⟨c₁, h₁, h₂⟩ := ih h
      exact ⟨c₁, .cons h₁, h₂⟩

theorem append (h : History c es₁ c₁) (h' : History c₁ es₂ c') : History c (es₁ ++ es₂) c' := by
  induction h with
  | nil => exact h'
  | cons _ ih => exact .cons (ih h')

/-- What happened before an event, the event itself, and what happened afterwards. -/
theorem of_middle (h : History c (es₁ ++ e :: es₂) c') :
    History c es₁ e.before ∧ e.answer = (Cluster.respond e.request e.before).1 ∧
      History (Cluster.respond e.request e.before).2 es₂ c' := by
  obtain ⟨c₁, h₁, h₂⟩ := h.of_append
  cases h₂ with
  | cons h₂ => exact ⟨h₁, rfl, h₂⟩

theorem answer_eq (h : History c es c') (he : e ∈ es) :
    e.answer = (Cluster.respond e.request e.before).1 := by
  obtain ⟨es₁, es₂, rfl⟩ := List.append_of_mem he
  exact h.of_middle.2.1

/-- Events that only read find the cluster as it was. -/
theorem before_eq (h : History c es c')
    (hes : ∀ e ∈ es, ∀ c, (Cluster.respond e.request c).2 = c) : ∀ e ∈ es, e.before = c := by
  induction h with
  | nil => exact fun _ he => nomatch he
  | @cons c c' i r es _ ih =>
    intro e he
    rcases List.mem_cons.1 he with rfl | he
    · rfl
    · have hsame : (Cluster.respond r c).2 = c := hes _ (List.mem_cons_self ..) c
      exact (ih (fun e he => hes e (List.mem_cons_of_mem _ he)) e he).trans hsame

/-- A route that no event writes stays as it is. -/
theorem routes (h : History c es c') {k : RouteKey} (hk : ∀ e ∈ es, ¬ e.writes k) :
    c'.routes.get? k = c.routes.get? k := by
  induction h with
  | nil => rfl
  | @cons c c' i r es _ ih =>
    rw [ih fun e he => hk e (List.mem_cons_of_mem _ he)]
    exact get?_respond_of_ne (fun hr => hk _ (List.mem_cons_self ..) (decide_eq_true hr)) c

/-- A document that no event writes stays as it is. -/
theorem documents (h : History c es c') {k : DocumentKey} (hk : ∀ e ∈ es, ¬ e.writesDocument k) :
    c'.documents.get? k = c.documents.get? k := by
  induction h with
  | nil => rfl
  | @cons c c' i r es _ ih =>
    rw [ih fun e he => hk e (List.mem_cons_of_mem _ he)]
    exact get?_respond_document_of_ne
      (fun hr => hk _ (List.mem_cons_self ..) (decide_eq_true hr)) c

theorem saw (h : History c es c') {k : RouteKey} {x : Route} (hx : c.Saw k x) : c'.Saw k x := by
  induction h with
  | nil => exact hx
  | @cons c c' i r es _ ih => exact ih (hx.respond r)

/-- A route that was read was stored. -/
theorem read (h : History c es c') {i : Nat} {k : RouteKey} {r : Route} {before : Cluster}
    (he : ⟨i, .getRoute k.space k.kind k.name, .ok r, before⟩ ∈ es) :
    before.routes.get? k = some r :=
  get?_of_respond_getRoute (h.answer_eq he).symm

/-- A route that was seen, and is replaced by one that carries its version, is what is replaced. -/
theorem updated (h : History c es c') (hc : c.WellFormed) {k : RouteKey} {r r' stored : Route}
    (hr : c.routes.get? k = some r) (hat : r'.IsAt k) (hversion : r'.version = r.version)
    (hok : (Cluster.respond (.updateRoute k.space r') c').1 = .ok stored) :
    c'.routes.get? k = some r ∧ stored = r'.withVersion c'.fresh ∧
      (Cluster.respond (.updateRoute k.space r') c').2 = c'.putRoute k r' := by
  have hsaw := h.saw (hc.saw hr)
  rcases respond_updateRoute_cases c' hat (hversion ▸ hsaw.issued.ne_none) with
    ⟨e, he⟩ | ⟨x, hx, hv, -, he⟩
  · rw [he] at hok
    cases hok
  · rw [he] at hok ⊢
    cases hok
    exact ⟨hsaw.eq hx (hv.trans hversion) ▸ hx, rfl, rfl⟩

/-- A route that was read and later replaced was still the same, and is replaced. -/
theorem replaced {i j : Nat} {k : RouteKey} {r r' stored : Route} {c₂ : Cluster}
    {es₃ : List Event}
    (h : History c (es₁ ++ ⟨i, .getRoute k.space k.kind k.name, .ok r, c₁⟩ ::
      (es₂ ++ ⟨j, .updateRoute k.space r', .ok stored, c₂⟩ :: es₃)) c')
    (hc₁ : c₁.WellFormed) (hat : r'.IsAt k) (hversion : r'.version = r.version) :
    c₂.routes.get? k = some r ∧
      (Cluster.respond (.updateRoute k.space r') c₂).2 = c₂.putRoute k r' := by
  obtain ⟨-, hread, hrest⟩ := h.of_middle
  have hr := get?_of_respond_getRoute (c := c₁) hread.symm
  obtain ⟨hbetween, hwrite, -⟩ := hrest.of_middle
  obtain ⟨hfound, -, hleft⟩ :=
    (History.cons (i := i) hbetween).updated hc₁ hr hat hversion hwrite.symm
  exact ⟨hfound, hleft⟩

end History

end Cluster

/-! ### Runs -/

/-- The events of one program. -/
def eventsOf (i : Nat) (es : List Event) : List Event := es.filter fun e => e.caller = i

theorem eventsOf_append (i : Nat) (es₁ es₂ : List Event) :
    eventsOf i (es₁ ++ es₂) = eventsOf i es₁ ++ eventsOf i es₂ := List.filter_append ..

theorem mem_eventsOf {i : Nat} {es : List Event} {e : Event} :
    e ∈ eventsOf i es ↔ e ∈ es ∧ e.caller = i := by
  rw [eventsOf, List.mem_filter, decide_eq_true_iff]

/-- The events before one of an operation, and those behind it. -/
theorem eventsOf_split {i : Nat} {es front back : List Event} {e : Event}
    (h : eventsOf i es = front ++ e :: back) :
    ∃ es₁ es₂, es = es₁ ++ e :: es₂ ∧ eventsOf i es₁ = front ∧ eventsOf i es₂ = back := by
  obtain ⟨es₁, rest, rfl, hfront, hrest⟩ := List.filter_eq_append_iff.1 h
  obtain ⟨es₂, es₃, rfl, hnone, -, hback⟩ := List.filter_eq_cons_iff.1 hrest
  refine ⟨es₁ ++ es₂, es₃, by rw [List.append_assoc], ?_, hback⟩
  rw [eventsOf_append, eventsOf, hfront, eventsOf,
    List.filter_eq_nil_iff.2 fun e he => by simpa using hnone e he, List.append_nil]

namespace Traffic

open Program

variable {α : Type}

/-- One state leads to another through some events. Whatever a program does later on, it does after
its part in these events. -/
structure Leads (t : Traffic α) (new : List Event) (t' : Traffic α) : Prop where
  /-- The events are remembered. -/
  events : t'.events = t.events ++ new
  /-- The events lead from cluster to cluster. -/
  history : t.cluster.History new t'.cluster
  /-- There are as many programs as before. -/
  length : t'.callers.length = t.callers.length
  /-- Every event is that of a program. -/
  caller : ∀ e ∈ new, e.caller < t.callers.length
  /-- The events of a program are what it does. -/
  ends : ∀ (i : Nat) (p : Caller α), t.callers[i]? = some p → ∃ q : Caller α,
    t'.callers[i]? = some q ∧
      ∀ es a, q.rest.Ends es a → p.rest.Ends (eventsOf i new ++ es) a

namespace Leads

variable {t t₁ t' : Traffic α} {new new' : List Event}

theorem refl (t : Traffic α) : t.Leads [] t where
  events := (List.append_nil _).symm
  history := .nil
  length := rfl
  caller _ he := nomatch he
  ends _ p hp := ⟨p, hp, fun _ _ h => h⟩

theorem trans (h : t.Leads new t₁) (h' : t₁.Leads new' t') : t.Leads (new ++ new') t' where
  events := by rw [h'.events, h.events, List.append_assoc]
  history := h.history.append h'.history
  length := h'.length.trans h.length
  caller e he := (List.mem_append.1 he).elim (h.caller e) fun he => h.length ▸ h'.caller e he
  ends i p hp := by
    obtain ⟨q, hq, hends⟩ := h.ends i p hp
    obtain ⟨q', hq', hends'⟩ := h'.ends i q hq
    refine ⟨q', hq', fun es a hes => ?_⟩
    rw [eventsOf_append, List.append_assoc]
    exact hends _ a (hends' es a hes)

end Leads

/-- A step without a failure adds at most one event. -/
theorem leads_step (t : Traffic α) {turn : Turn} (hturn : turn.failure = none) :
    ∃ new, t.Leads new (t.step turn) := by
  unfold step
  cases hp : t.callers[turn.caller]? with
  | none => exact ⟨[], .refl t⟩
  | some p =>
    have hlt : turn.caller < t.callers.length := (List.getElem?_eq_some_iff.1 hp).1
    simp only
    cases hrest : p.rest with
    | done a => exact ⟨[], .refl t⟩
    | lock space document next =>
      simp only
      split
      · exact ⟨[], .refl t⟩
      · refine ⟨[], (List.append_nil _).symm, .nil, List.length_set .., fun _ he => (nomatch he),
          fun i q hq => ?_⟩
        rw [List.getElem?_set]
        split
        · next e =>
          subst e
          cases hp.symm.trans hq
          exact ⟨_, rfl, fun es a h => hrest ▸ .lock h⟩
        · exact ⟨q, hq, fun _ _ h => h⟩
    | ask r next =>
      simp only [hturn]
      refine ⟨[⟨turn.caller, r, (Cluster.respond r t.cluster).1, t.cluster⟩], rfl, .cons .nil,
        List.length_set .., fun e he => ?_, fun i q hq => ?_⟩
      · rw [List.mem_singleton.1 he]
        exact hlt
      · rw [List.getElem?_set]
        split
        · next e =>
          subst e
          cases hp.symm.trans hq
          refine ⟨_, rfl, fun es a h => ?_⟩
          rw [eventsOf, List.filter_cons_of_pos (by simp), hrest]
          exact .ask h
        · next hne =>
          refine ⟨q, hq, fun es a h => ?_⟩
          rw [eventsOf, List.filter_cons_of_neg (by simpa using hne)]
          exact h

theorem leads_run (t : Traffic α) {turns : List Turn}
    (hturns : ∀ turn ∈ turns, turn.failure = none) : ∃ new, t.Leads new (t.run turns) := by
  induction turns generalizing t with
  | nil => exact ⟨[], .refl t⟩
  | cons turn turns ih =>
    obtain ⟨new, h⟩ := t.leads_step (hturns turn (List.mem_cons_self ..))
    obtain ⟨new', h'⟩ := ih (t.step turn) fun u hu => hturns u (List.mem_cons_of_mem _ hu)
    exact ⟨new ++ new', h.trans h'⟩

/-- A program that has ended has a transcript: its events. -/
theorem Leads.transcript {t t' : Traffic α} {new : List Event} (h : t.Leads new t') {i : Nat}
    {p q : Caller α} {a : α} (hp : t.callers[i]? = some p) (hq : t'.callers[i]? = some q)
    (ha : q.result? = some a) : p.rest.Ends (eventsOf i new) a := by
  obtain ⟨q', hq', hends⟩ := h.ends i p hp
  cases hq.symm.trans hq'
  unfold Caller.result? at ha
  split at ha
  · next hrest =>
    cases ha
    have := hends [] a (hrest ▸ .done)
    rwa [List.append_nil] at this
  · cases ha

/-- Every event of a run finds the cluster of an earlier state of the run. -/
theorem before_of_run (t : Traffic α) {turns : List Turn} {e : Event} (he : e ∈ (t.run turns).events) :
    e ∈ t.events ∨ ∃ turns₁ turns₂, turns = turns₁ ++ turns₂ ∧ e.before = (t.run turns₁).cluster := by
  induction turns generalizing t with
  | nil => exact .inl he
  | cons turn turns ih =>
    rcases ih (t.step turn) he with hstep | ⟨turns₁, turns₂, rfl, hbefore⟩
    · unfold step at hstep
      split at hstep
      · exact .inl hstep
      · split at hstep
        · exact .inl hstep
        · split at hstep <;> exact .inl hstep
        · rcases List.mem_append.1 hstep with hold | hnew
          · exact .inl hold
          · rw [List.mem_singleton.1 hnew]
            exact .inr ⟨[], turn :: turns, rfl, rfl⟩
    · exact .inr ⟨turn :: turns₁, turns₂, rfl, hbefore⟩

end Traffic

end CanaryRouting
