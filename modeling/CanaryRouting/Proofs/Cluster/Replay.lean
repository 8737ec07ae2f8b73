import CanaryRouting.Proofs.Cluster.History
import CanaryRouting.Proofs.Cluster.Registry

/-!
# What is stored under one key

Of all the events of a history, those that write a route decide what is stored under its key: the
first one finds what was stored before, and each further one what the one before it has left
(`History.rewritten`). Of the registry document the last one that was stored is what is there
(`History.document`).
-/

namespace CanaryRouting

/-- Events that write a route, one after the other. -/
inductive Rewritten (k : RouteKey) : Option Route → List Event → Option Route → Prop where
  /-- Nothing is written. -/
  | nil {x : Option Route} : Rewritten k x [] x
  /-- The first event finds what was there, and leaves what the others find. -/
  | cons {e : Event} {es : List Event} {y : Option Route} :
    Rewritten k ((Cluster.respond e.request e.before).2.routes.get? k) es y →
      Rewritten k (e.before.routes.get? k) (e :: es) y

/-- The document that an event has stored. -/
def Event.document? : Event → Option Document
  | ⟨_, .createDocument _ _, .ok d, _⟩ => some d
  | ⟨_, .updateDocument _ _, .ok d, _⟩ => some d
  | _ => none

/-- The document that is stored after some events. -/
def lastDocument (d : Document) (es : List Event) : Document :=
  es.foldl (fun d e => e.document?.getD d) d

/-- The request was answered by the server, and what is stored there is well formed. -/
structure Event.Genuine (e : Event) : Prop where
  /-- The answer is that of the server. -/
  answer : e.answer = (Cluster.respond e.request e.before).1
  /-- What is stored is well formed. -/
  wellFormed : e.before.WellFormed

theorem rewritten_nil_iff {k : RouteKey} {x y : Option Route} : Rewritten k x [] y ↔ x = y :=
  ⟨fun h => by cases h; rfl, fun h => h ▸ .nil⟩

theorem rewritten_cons_iff {k : RouteKey} {x y : Option Route} {e : Event} {es : List Event} :
    Rewritten k x (e :: es) y ↔ x = e.before.routes.get? k ∧
      Rewritten k ((Cluster.respond e.request e.before).2.routes.get? k) es y :=
  ⟨fun h => by cases h with | cons h => exact ⟨rfl, h⟩, fun ⟨hx, h⟩ => hx ▸ .cons h⟩

/-! ### Documents -/

theorem lastDocument_cons (d : Document) (e : Event) (es : List Event) :
    lastDocument d (e :: es) = lastDocument (e.document?.getD d) es := rfl

theorem lastDocument_append (d : Document) (es es' : List Event) :
    lastDocument d (es ++ es') = lastDocument (lastDocument d es) es' := List.foldl_append ..

/-- What is true of every document that is stored is true in the end. -/
theorem lastDocument_induction {R : Document → Prop} {d : Document} {es : List Event} (hd : R d)
    (hes : ∀ e ∈ es, ∀ d', e.document? = some d' → R d') : R (lastDocument d es) := by
  induction es generalizing d with
  | nil => exact hd
  | cons e es ih =>
    rw [lastDocument_cons]
    refine ih ?_ fun e' he' => hes e' (List.mem_cons_of_mem _ he')
    cases he : e.document? with
    | none => exact hd
    | some d' => exact hes e (List.mem_cons_self ..) d' he

/-- Versions do not matter. -/
theorem lastDocument_congr {d d' : Document} (h : d'.withVersion none = d.withVersion none)
    (es : List Event) :
    (lastDocument d' es).withVersion none = (lastDocument d es).withVersion none := by
  induction es generalizing d d' with
  | nil => exact h
  | cons e es ih =>
    rw [lastDocument_cons, lastDocument_cons]
    refine ih ?_
    cases e.document? with
    | none => exact h
    | some d => rfl

/-- Only the events of one program matter if the others store no documents. -/
theorem lastDocument_eventsOf {i : Nat} {es : List Event}
    (h : ∀ e ∈ es, e.caller ≠ i → e.document? = none) (d : Document) :
    lastDocument d (eventsOf i es) = lastDocument d es := by
  induction es generalizing d with
  | nil => rfl
  | cons e es ih =>
    have ih := ih fun e he => h e (List.mem_cons_of_mem _ he)
    by_cases hi : e.caller = i
    · rw [eventsOf, List.filter_cons_of_pos (by simpa using hi)]
      exact ih _
    · rw [eventsOf, List.filter_cons_of_neg (by simpa using hi), lastDocument_cons,
        h e (List.mem_cons_self ..) hi]
      exact ih d

namespace Cluster

variable {c c' : Cluster}

/-- A request stores the document that it is answered with, or leaves the document as it is. -/
theorem get?_respond_document {r : Request} {key : DocumentKey}
    (hr : ∀ k, r.documentKey? = some k → k = key) (i : Nat) (c : Cluster) :
    (Cluster.respond r c).2.documents.get? key =
      (Event.document? ⟨i, r, (Cluster.respond r c).1, c⟩).or (c.documents.get? key) := by
  by_cases hnamed : r.isNamed
  · rw [respond_eq_answer hnamed]
    cases r with
    | createDocument space name =>
      obtain rfl := hr ⟨space, name⟩ rfl
      simp only [Holdings.answer, Holdings.createDocument]
      split
      · rfl
      · simp [Holdings.storeDocument, Form.plain, Storage.answer, Event.document?, Request.name]
    | updateDocument space document =>
      obtain rfl := hr ⟨space, document.name⟩ rfl
      simp only [Holdings.answer, Holdings.updateDocument]
      split
      · rfl
      · simp [Holdings.storeDocument, Form.plain, Storage.answer, Event.document?, Request.name]
    | getRoute space kind name => rfl
    | getDocument space name => rfl
    | listRoutes space kind selector =>
      simp only [Holdings.answer]
      split <;> rfl
    | updateRoute space route =>
      simp only [Holdings.answer, Holdings.updateRoute]
      split <;> rfl
  · rw [respond_unnamed (by simpa using hnamed)]
    cases r <;> rfl

/-- A document that was updated is stored as it was sent, with a new version. -/
theorem eq_of_respond_updateDocument {key : DocumentKey} {d stored : Document} (hd : d.IsAt key)
    (hv : d.version ≠ none) (h : (Cluster.respond (.updateDocument key.space d) c).1 = .ok stored) :
    stored = d.withVersion c.fresh := by
  rcases respond_updateDocument_cases c hd hv with ⟨e, he⟩ | ⟨x, -, -, -, he⟩ <;> rw [he] at h <;>
    cases h
  rfl

namespace History

variable {es es₁ es₂ : List Event} {e : Event}

theorem rewritten (h : History c es c') (k : RouteKey) :
    Rewritten k (c.routes.get? k) (es.filter (Event.writes k)) (c'.routes.get? k) := by
  induction h with
  | nil => exact .nil
  | @cons c c' i r es _ ih =>
    by_cases hwrites : Event.writes k ⟨i, r, (Cluster.respond r c).1, c⟩
    · rw [List.filter_cons_of_pos hwrites]
      exact .cons (e := ⟨i, r, (Cluster.respond r c).1, c⟩) ih
    · rw [List.filter_cons_of_neg hwrites]
      have hsame : (Cluster.respond r c).2.routes.get? k = c.routes.get? k :=
        get?_respond_of_ne (fun hr => hwrites (decide_eq_true hr)) c
      rwa [hsame] at ih

/-- The last document that was stored is what is there in the end. -/
theorem document (h : History c es c') {key : DocumentKey}
    (hes : ∀ e ∈ es, ∀ k, e.request.documentKey? = some k → k = key) :
    c'.document key = (lastDocument (c.document key) es).withVersion none := by
  induction h with
  | nil => rfl
  | @cons c c' i r es _ ih =>
    rw [ih fun e he => hes e (List.mem_cons_of_mem _ he), lastDocument_cons]
    refine lastDocument_congr ?_ es
    rw [Cluster.document, get?_respond_document (i := i) (hes _ (List.mem_cons_self ..))]
    cases Event.document? ⟨i, r, (Cluster.respond r c).1, c⟩ <;> rfl

end History

end Cluster

/-! ### Genuine events -/

namespace Event.Genuine

variable {i : Nat} {c : Cluster}

/-- A route that was read was stored, under a name that can be asked for. -/
theorem read {k : RouteKey} {r : Route}
    (h : Genuine ⟨i, .getRoute k.space k.kind k.name, .ok r, c⟩) :
    k.name ≠ "" ∧ c.routes.get? k = some r ∧ r.IsAt k := by
  have hr := Cluster.get?_of_respond_getRoute h.answer.symm
  refine ⟨fun hname => ?_, hr, h.wellFormed.route_isAt hr⟩
  have hanswer := h.answer
  simp only at hanswer
  rw [Cluster.respond_unnamed
    (by simp [Request.isNamed, Request.hasNameInPath, Request.name, hname])] at hanswer
  cases hanswer

/-- A document that was updated is stored as it was sent, with a new version. -/
theorem updated {k : DocumentKey} {d stored : Document}
    (h : Genuine ⟨i, .updateDocument k.space d, .ok stored, c⟩) (hd : d.IsAt k)
    (hv : d.version ≠ none) : stored = d.withVersion c.fresh :=
  Cluster.eq_of_respond_updateDocument hd hv h.answer.symm

/-- What is answered for a document is what is stored. -/
theorem document {k : DocumentKey} {answer : Except ApiFailure Document}
    (h : Genuine ⟨i, .getDocument k.space k.name, answer, c⟩) (hname : k.name ≠ "") :
    answer.toOption = c.documents.get? k := by
  have hanswer := h.answer
  simp only at hanswer
  rw [Cluster.respond_getDocument hname] at hanswer
  rw [hanswer]
  cases c.documents.get? k <;> rfl

/-- A document that was created was not there, and has no texts. -/
theorem created {k : DocumentKey} {d : Document}
    (h : Genuine ⟨i, .createDocument k.space k.name, .ok d, c⟩) :
    c.documents.get? k = none ∧ d = (Cluster.created k).withVersion c.fresh := by
  have hanswer := h.answer
  simp only at hanswer
  rcases Cluster.respond_createDocument_cases c k with ⟨e, he⟩ | ⟨hnone, he⟩ <;>
    rw [he] at hanswer <;> cases hanswer
  exact ⟨hnone, rfl⟩

end Event.Genuine

end CanaryRouting
