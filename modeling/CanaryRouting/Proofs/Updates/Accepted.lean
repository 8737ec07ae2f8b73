import CanaryRouting.Proofs.Agreement.Runs
import CanaryRouting.Proofs.Cluster.History

/-!
# Accepted requests

What an accepted request finds and what it leaves is said by `Cluster.Acceptance`; any other request
changes nothing (`Cluster.respond_cases`). So the accepted requests of a run are its history, whether
or not others fail (`Traffic.history_run`).

An accepted write gives its object a version that was never given out before. If an object is the
same at two moments, then no write of it was accepted in between (`History.routeUntouched`,
`History.documentUntouched`).
-/

namespace CanaryRouting

open Program

/-- The requests among these that were accepted. -/
def acceptedOf (es : List Event) : List Event := es.filter Event.isAccepted

/-- No write of the route was accepted. -/
def RouteUntouched (k : RouteKey) (es : List Event) : Prop :=
  ∀ e ∈ es, e.isAccepted → ¬ e.writes k

/-- No write of the document was accepted. -/
def DocumentUntouched (k : DocumentKey) (es : List Event) : Prop :=
  ∀ e ∈ es, e.isAccepted → ¬ e.writesDocument k

theorem acceptedOf_append (es₁ es₂ : List Event) :
    acceptedOf (es₁ ++ es₂) = acceptedOf es₁ ++ acceptedOf es₂ := List.filter_append ..

theorem acceptedOf_cons {e : Event} (he : e.isAccepted) (es : List Event) :
    acceptedOf (e :: es) = e :: acceptedOf es := List.filter_cons_of_pos he

namespace Cluster

variable {c c' : Cluster}

/-! ### One request -/

/-- The server accepts a request, and this is its answer and what it leaves. -/
inductive Acceptance (c : Cluster) : (r : Request) → r.Answer → Cluster → Prop where
  /-- A stored route is read. -/
  | getRoute {space : String} {kind : RouteKind} {name : String} {r : Route} :
    c.routes.get? ⟨kind, space, name⟩ = some r → Acceptance c (.getRoute space kind name) r c
  /-- Routes are listed. -/
  | listRoutes {space : String} {kind : RouteKind} {selector : LabelSelector}
    {names : List String} : Acceptance c (.listRoutes space kind selector) names c
  /-- A stored document is read. -/
  | getDocument {space name : String} {d : Document} :
    c.documents.get? ⟨space, name⟩ = some d → Acceptance c (.getDocument space name) d c
  /-- A route that is stored is replaced. -/
  | updateRoute {space : String} {r stored x : Route} :
    c.routes.get? ⟨r.kind, space, r.name⟩ = some x → r.version = none ∨ r.version = x.version →
    stored.version = c.fresh → Acceptance c (.updateRoute space r) stored
      { c with
        routes := c.routes.insert ⟨r.kind, space, r.name⟩ stored, versions := c.versions + 1 }
  /-- A document is created where there is none. -/
  | createDocument {space name : String} {stored : Document} :
    c.documents.get? ⟨space, name⟩ = none → stored.version = c.fresh →
    Acceptance c (.createDocument space name) stored
      { c with documents := c.documents.insert ⟨space, name⟩ stored, versions := c.versions + 1 }
  /-- A document that is stored is replaced. -/
  | updateDocument {space : String} {d stored x : Document} :
    c.documents.get? ⟨space, d.name⟩ = some x → d.version = none ∨ d.version = x.version →
    stored.version = c.fresh → Acceptance c (.updateDocument space d) stored
      { c with
        documents := c.documents.insert ⟨space, d.name⟩ stored, versions := c.versions + 1 }

/-- An update that is not refused replaces something, and carries its version or none. -/
theorem of_refusal?_eq_none {κ α σ : Type} {f : Storage κ α σ} {sent : Metadata} {x? : Option σ}
    (h : f.refusal? sent x? = none) : ∃ x, x? = some x ∧
      (sent.resourceVersion = none ∨ sent.resourceVersion = f.version? x) := by
  cases x? with
  | none => cases h
  | some x =>
    refine ⟨x, rfl, ?_⟩
    simp only [Storage.refusal?] at h
    split at h
    · next hv => simpa using hv
    · cases h

/-- A request is refused and changes nothing, or it is accepted. -/
theorem respond_cases (r : Request) (c : Cluster) :
    (∃ e, Cluster.respond r c = (.error e, c)) ∨
      ∃ a c', Cluster.respond r c = (.ok a, c') ∧ Acceptance c r a c' := by
  by_cases hnamed : r.isNamed
  · cases r with
    | getRoute space kind name =>
      rcases respond_getRoute_cases c ⟨kind, space, name⟩ with hrefused | ⟨r, -, hr, haccepted⟩
      · exact .inl hrefused
      · exact .inr ⟨r, c, haccepted, .getRoute hr⟩
    | getDocument space name =>
      rcases respond_getDocument_cases c ⟨space, name⟩ with hrefused | ⟨d, hd, haccepted⟩
      · exact .inl hrefused
      · exact .inr ⟨d, c, haccepted, .getDocument hd⟩
    | listRoutes space kind selector =>
      rw [respond_eq_answer hnamed]
      simp only [Holdings.answer]
      split
      · simp only [Holdings.listRoutes]
        split
        · exact .inr ⟨_, c, rfl, .listRoutes⟩
        · exact .inl ⟨_, rfl⟩
      · exact .inl ⟨_, rfl⟩
    | createDocument space name =>
      rcases respond_createDocument_cases c ⟨space, name⟩ with hrefused | ⟨hnone, haccepted⟩
      · exact .inl hrefused
      · exact .inr ⟨_, _, haccepted, .createDocument hnone rfl⟩
    | updateRoute space route =>
      rw [respond_eq_answer hnamed]
      simp only [Holdings.answer, Holdings.updateRoute, Request.name]
      split
      · exact .inl ⟨_, rfl⟩
      · next hrefusal =>
        obtain ⟨x, hx, hv⟩ := of_refusal?_eq_none hrefusal
        refine .inr ⟨{ route with metadata := route.metadata.stamp c.nextVersion }, _, ?_,
          .updateRoute hx hv rfl⟩
        simp only [Holdings.storeRoute, Storage.answer, Form.plain, KeyMap.get?_insert_self]
        rfl
    | updateDocument space document =>
      rw [respond_eq_answer hnamed]
      simp only [Holdings.answer, Holdings.updateDocument, Request.name]
      split
      · exact .inl ⟨_, rfl⟩
      · next hrefusal =>
        obtain ⟨x, hx, hv⟩ := of_refusal?_eq_none hrefusal
        refine .inr ⟨{ document with metadata := document.metadata.stamp c.nextVersion }, _, ?_,
          .updateDocument hx hv rfl⟩
        simp only [Holdings.storeDocument, Storage.answer, Form.plain, KeyMap.get?_insert_self]
        rfl
  · exact .inl ⟨_, respond_unnamed (by simpa using hnamed) c⟩

/-- What an accepted request leaves, and what it is answered with. -/
theorem Acceptance.of_respond {r : Request} {a : r.Answer} (h : (Cluster.respond r c).1 = .ok a) :
    Acceptance c r a (Cluster.respond r c).2 := by
  rcases respond_cases r c with ⟨e, he⟩ | ⟨a', c', he, haccepted⟩
  · rw [he] at h
    cases h
  · rw [he] at h ⊢
    cases h
    exact haccepted

theorem respond_of_error {r : Request} {e : ApiFailure} (h : (Cluster.respond r c).1 = .error e) :
    (Cluster.respond r c).2 = c := by
  rcases respond_cases r c with ⟨e', he⟩ | ⟨a', c', he, -⟩
  · rw [he]
  · rw [he] at h
    cases h

/-- After an accepted update the route is what was answered. -/
theorem get?_of_updateRoute {k : RouteKey} {r stored : Route} (hr : r.IsAt k)
    (h : (Cluster.respond (.updateRoute k.space r) c).1 = .ok stored) :
    (Cluster.respond (.updateRoute k.space r) c).2.routes.get? k = some stored := by
  have haccepted := Acceptance.of_respond h
  generalize (Cluster.respond _ c).2 = c' at haccepted ⊢
  cases haccepted with
  | updateRoute _ _ _ =>
    rw [hr.kind, hr.name]
    exact KeyMap.get?_insert_self _ _ _

/-! ### Versions that are out of date -/

/-- The version was given out, and the route does not have it. -/
def RouteOutdated (c : Cluster) (k : RouteKey) (v : Option String) : Prop :=
  c.Issued v ∧ c.routeVersion k ≠ v

/-- The version was given out, and the document does not have it. -/
def DocumentOutdated (c : Cluster) (k : DocumentKey) (v : Option String) : Prop :=
  c.Issued v ∧ c.documentVersion k ≠ v

theorem RouteOutdated.respond {k : RouteKey} {v : Option String} (h : c.RouteOutdated k v)
    (r : Request) : (Cluster.respond r c).2.RouteOutdated k v := by
  obtain ⟨hissued, hne⟩ := h
  have heffect := effect_respond r c
  generalize (Cluster.respond r c).2 = c' at heffect ⊢
  cases heffect with
  | none => exact ⟨hissued, hne⟩
  | @route k' x hk hv =>
    refine ⟨hissued.mono (Nat.le_succ _), ?_⟩
    rw [routeVersion, KeyMap.get?_insert]
    split
    · exact fun e => hissued.ne_fresh (e.symm.trans hv)
    · exact hne
  | document hk hv => exact ⟨hissued.mono (Nat.le_succ _), hne⟩

theorem DocumentOutdated.respond {k : DocumentKey} {v : Option String} (h : c.DocumentOutdated k v)
    (r : Request) : (Cluster.respond r c).2.DocumentOutdated k v := by
  obtain ⟨hissued, hne⟩ := h
  have heffect := effect_respond r c
  generalize (Cluster.respond r c).2 = c' at heffect ⊢
  cases heffect with
  | none => exact ⟨hissued, hne⟩
  | route hk hv => exact ⟨hissued.mono (Nat.le_succ _), hne⟩
  | @document k' x hk hv =>
    refine ⟨hissued.mono (Nat.le_succ _), ?_⟩
    rw [documentVersion, KeyMap.get?_insert]
    split
    · exact fun e => hissued.ne_fresh (e.symm.trans hv)
    · exact hne

/-- An accepted write makes every version of its route out of date. -/
theorem RouteOutdated.of_accepted {k : RouteKey} {v : Option String} {r : Request} {a : r.Answer}
    (hv : c.Issued v) (hk : r.routeKey? = some k) (ha : (Cluster.respond r c).1 = .ok a) :
    (Cluster.respond r c).2.RouteOutdated k v := by
  have haccepted := Acceptance.of_respond ha
  generalize (Cluster.respond r c).2 = c' at haccepted ⊢
  cases haccepted with
  | updateRoute _ _ hfresh =>
    cases hk
    refine ⟨hv.mono (Nat.le_succ _), ?_⟩
    rw [routeVersion, KeyMap.get?_insert_self]
    exact fun e => hv.ne_fresh (e.symm.trans hfresh)
  | _ => cases hk

/-- An accepted write makes every version of its document out of date. -/
theorem DocumentOutdated.of_accepted {k : DocumentKey} {v : Option String} {r : Request}
    {a : r.Answer} (hv : c.Issued v) (hk : r.documentKey? = some k)
    (ha : (Cluster.respond r c).1 = .ok a) : (Cluster.respond r c).2.DocumentOutdated k v := by
  have haccepted := Acceptance.of_respond ha
  generalize (Cluster.respond r c).2 = c' at haccepted ⊢
  cases haccepted with
  | createDocument _ hfresh =>
    cases hk
    refine ⟨hv.mono (Nat.le_succ _), ?_⟩
    rw [documentVersion, KeyMap.get?_insert_self]
    exact fun e => hv.ne_fresh (e.symm.trans hfresh)
  | updateDocument _ _ hfresh =>
    cases hk
    refine ⟨hv.mono (Nat.le_succ _), ?_⟩
    rw [documentVersion, KeyMap.get?_insert_self]
    exact fun e => hv.ne_fresh (e.symm.trans hfresh)
  | _ => cases hk

theorem SawDocument.respond {k : DocumentKey} {d : Document} (h : c.SawDocument k d) (r : Request) :
    (Cluster.respond r c).2.SawDocument k d := by
  have heffect := effect_respond r c
  generalize (Cluster.respond r c).2 = c' at heffect ⊢
  cases heffect with
  | none => exact h
  | route hk hv => exact ⟨h.isAt, h.issued.mono (Nat.le_succ _), fun hx => h.eq hx⟩
  | @document k' d' hk hv =>
    refine ⟨h.isAt, h.issued.mono (Nat.le_succ _), fun {x} hx hversion => ?_⟩
    rw [KeyMap.get?_insert] at hx
    split at hx
    · cases hx
      exact absurd (hversion.symm.trans hv) h.issued.ne_fresh
    · exact h.eq hx hversion

namespace History

variable {es : List Event}

theorem concat (h : History c es c') (i : Nat) (r : Request) :
    History c (es ++ [⟨i, r, (Cluster.respond r c').1, c'⟩]) (Cluster.respond r c').2 :=
  h.append (.cons .nil)

theorem routeOutdated (h : History c es c') {k : RouteKey} {v : Option String}
    (hv : c.RouteOutdated k v) : c'.RouteOutdated k v := by
  induction h with
  | nil => exact hv
  | @cons c c' i r es _ ih => exact ih (hv.respond r)

theorem documentOutdated (h : History c es c') {k : DocumentKey} {v : Option String}
    (hv : c.DocumentOutdated k v) : c'.DocumentOutdated k v := by
  induction h with
  | nil => exact hv
  | @cons c c' i r es _ ih => exact ih (hv.respond r)

theorem sawDocument (h : History c es c') {k : DocumentKey} {d : Document}
    (hd : c.SawDocument k d) : c'.SawDocument k d := by
  induction h with
  | nil => exact hd
  | @cons c c' i r es _ ih => exact ih (hd.respond r)

/-- If what was seen is still stored, no write of the route has been accepted. -/
theorem routeUntouched (h : History c es c') {k : RouteKey} {x : Route} (hsaw : c.Saw k x)
    (hx : c'.routes.get? k = some x) : RouteUntouched k es := by
  induction h with
  | nil => exact fun _ he => nomatch he
  | @cons c c' i r es hrest ih =>
    intro e he haccepted hwrites
    rcases List.mem_cons.1 he with rfl | hmem
    · simp only [Event.isAccepted] at haccepted
      cases ha : (Cluster.respond r c).1 with
      | error failure =>
        rw [ha] at haccepted
        cases haccepted
      | ok a =>
        have houtdated := hrest.routeOutdated
          (.of_accepted hsaw.issued (of_decide_eq_true hwrites) ha)
        exact houtdated.2 (by rw [routeVersion, hx]; rfl)
    · exact ih (hsaw.respond r) hx e hmem haccepted hwrites

/-- If what was seen is still stored, no write of the document has been accepted. -/
theorem documentUntouched (h : History c es c') {k : DocumentKey} {d : Document}
    (hsaw : c.SawDocument k d) (hd : c'.documents.get? k = some d) : DocumentUntouched k es := by
  induction h with
  | nil => exact fun _ he => nomatch he
  | @cons c c' i r es hrest ih =>
    intro e he haccepted hwrites
    rcases List.mem_cons.1 he with rfl | hmem
    · simp only [Event.isAccepted] at haccepted
      cases ha : (Cluster.respond r c).1 with
      | error failure =>
        rw [ha] at haccepted
        cases haccepted
      | ok a =>
        have houtdated := hrest.documentOutdated
          (.of_accepted hsaw.issued (of_decide_eq_true hwrites) ha)
        exact houtdated.2 (by rw [documentVersion, hd]; rfl)
    · exact ih (hsaw.respond r) hd e hmem haccepted hwrites

end History

end Cluster

end CanaryRouting
