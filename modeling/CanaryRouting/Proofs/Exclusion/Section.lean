import CanaryRouting.Proofs.Router.Undisturbed
import CanaryRouting.Router.Traffic

/-!
# The critical section of a change of header routes

A change of header routes resolves its request, takes the lock of the registry document, and then
does all the rest (`approaches_program`). What it does there is never refused as a conflict if nobody
else writes in the meantime (`not_conflict_of_perform`): every write carries the version that has
just been read, and a document is created only where there is none.
-/

namespace CanaryRouting

open Program Router

/-- Whether the error says that the server has refused a write as a conflict. -/
def StoreError.isConflict : StoreError → Bool
  | .conflict _ => true
  | _ => false

/-- Whether the error says that the server has refused a write as a conflict, or the undoing of
one. -/
def RoutingError.isConflict : RoutingError → Bool
  | .store e => e.isConflict
  | .transaction f => f.source.isConflict || f.compensationFailures.any fun c => c.error.isConflict
  | _ => false

theorem RoutingError.isConflict_of_isLocal {e : RoutingError} (h : e.isLocal) :
    e.isConflict = false := by
  cases e with
  | store _ | transaction _ => cases h
  | _ => rfl

namespace Router

/-! ### The shape -/

theorem lockless_getOrCreateDocument (plan : Plan) : (getOrCreateDocument plan).run.Lockless := by
  unfold getOrCreateDocument
  refine Lockless.bindCall (.ask fun _ => .done) fun d? => ?_
  cases d? with
  | some d => exact .done
  | none => exact .ask fun _ => .done

theorem lockless_commit (plan : Plan) (document : Document) (key : String) (change : RouteChange) :
    (commit plan document key change).run.Lockless := by
  rw [run_commit]
  refine .ask fun answer => ?_
  cases answer with
  | error failure => exact .done
  | ok stored =>
    refine .ask fun answer => ?_
    cases answer with
    | ok written => exact .done
    | error failure =>
      refine .ask fun answer => ?_
      cases answer with
      | ok _ => exact .done
      | error failure' => exact .done

theorem lockless_changeTarget (rollout : Rollout) (plan : Plan) (change : HeaderChange)
    (document : Document) (t : Target) :
    (changeTarget rollout plan change document t).run.Lockless := by
  unfold changeTarget
  refine Lockless.bindCall .done fun registry => ?_
  refine Lockless.bindCall (.ask fun _ => .done) fun route => ?_
  refine Lockless.bindCall .done fun routeChange? => ?_
  cases routeChange? with
  | none => exact .done
  | some routeChange => exact lockless_commit ..

end Router

/-- A change of header routes resolves its request, and then takes the lock. -/
theorem Order.approaches_program {o : Order} {key : DocumentKey}
    (hchange : (o.operation.headerChange? o.rollout).isSome) (hworks : o.WorksOn key) :
    o.program.Approaches key := by
  obtain ⟨change?, hop⟩ := Option.isSome_iff_exists.1 hchange
  unfold program
  rw [perform_headerChange hop]
  refine Lists.approaches ((lists_resolve o.rollout).mono fun x hx => ?_)
  cases x with
  | error e => exact .done
  | ok plan =>
    have hresolved := hx plan rfl
    obtain ⟨hspace, hdocument⟩ := hworks plan.settings hresolved.settings
    obtain rfl : key = plan.key := by
      rw [Plan.key, hresolved.space, hresolved.document, hspace, hdocument]
    cases change? with
    | error e => exact .done
    | ok change =>
      have hsection := Lockless.bindCall (lockless_getOrCreateDocument plan) fun document =>
        Lockless.bindCall (.foldlM (lockless_changeTarget o.rollout plan change)
          plan.headerTargets document) fun _ => (Lockless.done : (pure () : Call Unit).run.Lockless)
      refine .lock (Lockless.bind hsection fun x => ?_)
      cases x <;> exact .done

/-! ### Conflicts -/

/-- The part of an operation, on a cluster that nobody else uses, ends as stated, or with an error
that is no conflict. -/
def Call.Undisputed {α : Type} (p : Call α) (c : Cluster) (post : α → Cluster → Prop) : Prop :=
  ∃ x c', p.runOn c.undisturbed = (x, Cluster.undisturbed c') ∧
    match x with
    | .ok a => post a c'
    | .error e => e.isConflict = false

namespace Call.Undisputed

variable {α β : Type} {c : Cluster}

theorem bind {p : Call α} {f : α → Call β} {m : α → Cluster → Prop} {post : β → Cluster → Prop}
    (hp : p.Undisputed c m) (hf : ∀ a c', m a c' → (f a).Undisputed c' post) :
    (p >>= f).Undisputed c post := by
  obtain ⟨x, c₁, hrun, hx⟩ := hp
  cases x with
  | error e => exact ⟨.error e, c₁, runOn_bind_error hrun f, hx⟩
  | ok a =>
    obtain ⟨y, c₂, hrun', hy⟩ := hf a c₁ hx
    exact ⟨y, c₂, (runOn_bind_ok hrun f).trans hrun', hy⟩

theorem pure {post : α → Cluster → Prop} {a : α} (h : post a c) :
    (Pure.pure a : Call α).Undisputed c post := ⟨.ok a, c, rfl, h⟩

theorem ofExcept {post : α → Cluster → Prop} {x : Except RoutingError α}
    (herror : ∀ e, x = .error e → e.isLocal) (hok : ∀ a, x = .ok a → post a c) :
    (Call.ofExcept x).Undisputed c post := by
  refine ⟨x, c, rfl, ?_⟩
  cases x with
  | ok a => exact hok a rfl
  | error e => exact RoutingError.isConflict_of_isLocal (herror e rfl)

theorem foldlM {p : β → α → Call β} {m : β → Cluster → Prop}
    (hp : ∀ b a c, m b c → (p b a).Undisputed c m) (as : List α) {b : β} (hb : m b c) :
    (as.foldlM p b).Undisputed c m := by
  induction as generalizing b c with
  | nil => exact pure hb
  | cons a as ih =>
    rw [List.foldlM_cons]
    exact (hp b a c hb).bind fun _ _ h => ih h

/-- A request that the server does not refuse as a conflict. -/
theorem request {r : Request} {post : r.Answer → Cluster → Prop}
    (herror : (Cluster.respond r c).1 ≠ .error (.status 409))
    (hok : ∀ a, (Cluster.respond r c).1 = .ok a → post a (Cluster.respond r c).2) :
    (Call.ofStore (Store.perform r)).Undisputed c post := by
  refine ⟨_, _, runOn_request r _, ?_⟩
  rw [respond_undisturbed]
  simp only
  cases ha : (Cluster.respond r c).1 with
  | ok a => exact hok a ha
  | error failure =>
    rw [ha] at herror
    cases failure with
    | status code =>
      simp only [Except.mapError, StoreError.ofFailure]
      split
      · rfl
      · next e => cases e; exact absurd rfl herror
      · rfl
    | unreadable => rfl
    | unsent => rfl

end Call.Undisputed

namespace Cluster

variable {c : Cluster}

theorem getRoute_ne_conflict (space : String) (kind : RouteKind) (name : String) :
    (Cluster.respond (.getRoute space kind name) c).1 ≠ .error (.status 409) := by
  by_cases hnamed : (Request.getRoute space kind name).isNamed
  · rw [respond_eq_answer hnamed]
    simp only [Holdings.answer]
    intro h
    cases hr : c.routes.get? ⟨kind, space, (Request.getRoute space kind name).name⟩ with
    | none => rw [hr] at h; cases h
    | some r => rw [hr] at h; cases h
  · rw [respond_unnamed (by simpa using hnamed)]
    intro h
    cases h

theorem listRoutes_ne_conflict (space : String) (kind : RouteKind) (selector : LabelSelector) :
    (Cluster.respond (.listRoutes space kind selector) c).1 ≠ .error (.status 409) := by
  by_cases hnamed : (Request.listRoutes space kind selector).isNamed
  · rw [respond_eq_answer hnamed]
    simp only [Holdings.answer, Holdings.listRoutes]
    intro h
    split at h
    · simp only at h
      split at h <;> cases h
    · cases h
  · rw [respond_unnamed (by simpa using hnamed)]
    intro h
    cases h

end Cluster

namespace Router

variable {c : Cluster}

theorem undisputed_resolve (rollout : Rollout) :
    (resolve rollout).Undisputed c fun plan c' => c' = c ∧ plan.Resolved rollout := by
  have hresolved := runOn_resolve rollout c.undisturbed
  have hundisputed : (resolve rollout).Undisputed c fun _ c' => c' = c := by
    unfold resolve
    refine .bind (m := fun _ c' => c' = c) (.ofExcept (fun e he => ?_) fun _ _ => rfl) ?_
    · obtain ⟨why, -, rfl⟩ := Except.mapError_eq_error.1 he
      rfl
    · rintro settings c rfl
      refine .bind (.foldlM (m := fun _ c' => c' = c) (fun targets kind c₁ hc₁ => ?_) _ rfl)
        fun targets c' hc' => .pure hc'
      unfold discover
      split
      · exact .pure hc₁
      · exact .bind (m := fun _ c' => c' = c) (.request (Cluster.listRoutes_ne_conflict _ _ _)
          fun _ _ => (Cluster.respond_listRoutes _ _ _ _).trans hc₁) fun names c' hc' => .pure hc'
  obtain ⟨x, c', hrun, hx⟩ := hundisputed
  rw [hrun] at hresolved
  cases x with
  | error e => exact ⟨_, c', hrun, hx⟩
  | ok plan => exact ⟨_, c', hrun, hx, hresolved.2 plan rfl⟩

theorem undisputed_getOrCreateDocument (hc : c.WellFormed) {rollout : Rollout} {plan : Plan}
    (hplan : plan.Resolved rollout) :
    (getOrCreateDocument plan).Undisputed c fun d c' =>
      c'.WellFormed ∧ c'.documents.get? plan.key = some d := by
  have hkey := hplan.document_ne
  unfold getOrCreateDocument
  refine .bind (m := fun d? c' => c' = c ∧ d? = c.documents.get? plan.key)
    ⟨_, _, runOn_getDocument_undisturbed (k := plan.key) hkey, rfl, rfl⟩ ?_
  rintro d? c ⟨rfl, rfl⟩
  cases hd : c.documents.get? plan.key with
  | some d => exact .pure ⟨hc, hd⟩
  | none =>
    have hcreate := Cluster.respond_createDocument hd
    simp only [Plan.key] at hcreate
    refine .request (r := .createDocument plan.space plan.document) ?_ fun d h => ?_
    · rw [hcreate]
      intro h
      cases h
    · rw [hcreate] at h ⊢
      cases h
      exact ⟨hc.putDocument (Cluster.created_isAt _), Cluster.get?_putDocument_self ..⟩

theorem undisputed_changeTarget (hc : c.WellFormed) {rollout : Rollout} {plan : Plan}
    {change : HeaderChange} {document : Document} (hplan : plan.Resolved rollout)
    (hd : c.documents.get? plan.key = some document) (t : Target) :
    (changeTarget rollout plan change document t).Undisputed c fun d c' =>
      c'.WellFormed ∧ c'.documents.get? plan.key = some d := by
  unfold changeTarget
  refine .bind (m := fun _ c' => c' = c)
    (.ofExcept (fun e he => local_of_load he) fun _ _ => rfl) ?_
  rintro registry c rfl
  refine .bind (m := fun route c' => c' = c ∧ c.routes.get? (t.keyIn plan.space) = some route ∧ t.name ≠ "")
    (.request (Cluster.getRoute_ne_conflict _ _ _) fun route hroute => ?_) ?_
  · have hname : t.name ≠ "" := fun hname => by
      rw [Cluster.respond_unnamed
        (by simp [Request.isNamed, Request.hasNameInPath, Request.name, hname])] at hroute
      cases hroute
    rcases Cluster.respond_getRoute_cases c (t.keyIn plan.space) with ⟨e, he⟩ | ⟨r, -, hr, he⟩ <;>
      simp only [Target.keyIn] at he <;> rw [he] at hroute ⊢ <;> cases hroute
    exact ⟨rfl, hr, hname⟩
  rintro route c ⟨rfl, hr, hname⟩
  refine .bind (m := fun routeChange? c' => c' = c ∧
      change.on rollout t registry route = .ok routeChange?)
    (.ofExcept (fun e he => local_of_on he) fun _ h => ⟨rfl, h⟩) ?_
  rintro routeChange? c ⟨rfl, hon⟩
  cases routeChange? with
  | none => exact .pure ⟨hc, hd⟩
  | some routeChange =>
    obtain ⟨rfl, -, hproper⟩ := proper_of_on hon plan.space
    have hrun := @runOn_commit_undisturbed c plan (t.keyIn plan.space) plan.key routeChange document
      _ hc rfl rfl hname hplan.document_ne hr hd hproper
    refine ⟨_, _, hrun, ?_, Cluster.get?_putDocument_self ..⟩
    have hforward := hc.document_isAt hd
    exact (hc.putRoute (hproper.after_isAt (hc.route_isAt hr))).putDocument
      ⟨hforward.space, hforward.name⟩

theorem local_of_headerPredicates {conditions : List HeaderCondition} {e : RoutingError}
    (h : headerPredicates conditions = .error e) : e.isLocal := by
  induction conditions with
  | nil => cases h
  | cons condition conditions ih =>
    simp only [headerPredicates] at h
    split at h
    · exact ih (Except.map_eq_error.1 h)
    · cases h; rfl

theorem local_of_headerChange {rollout : Rollout} {operation : Operation} {e : RoutingError}
    (h : operation.headerChange? rollout = some (.error e)) : e.isLocal := by
  cases operation with
  | setHeaderRoute header =>
    simp only [Operation.headerChange?] at h
    split at h
    · cases h
    · exact local_of_headerPredicates (Except.map_eq_error.1 (Option.some.inj h))
  | removeManagedRoutes => cases h
  | setWeight _ _ | verifyWeight _ _ | updateHash => cases h

/-- A change of header routes does not fail with a conflict if nobody else writes. -/
theorem not_conflict_of_perform (hc : c.WellFormed) {rollout : Rollout} {operation : Operation}
    (hchange : (operation.headerChange? rollout).isSome) {e : RoutingError}
    (h : ((perform rollout operation).runOn c.undisturbed).1 = .error e) : e.isConflict = false := by
  obtain ⟨change?, hop⟩ := Option.isSome_iff_exists.1 hchange
  have hundisputed : (perform rollout operation).Undisputed c fun _ _ => True := by
    rw [perform_headerChange hop]
    refine (undisputed_resolve rollout).bind ?_
    rintro plan c ⟨rfl, hplan⟩
    refine .bind (m := fun _ c' => c' = c)
      (.ofExcept (fun e he => local_of_headerChange (he ▸ hop)) fun _ _ => rfl) ?_
    rintro change c rfl
    refine .bind (m := fun _ _ => True) ?_ fun _ _ _ => .pure trivial
    refine .bind (m := fun _ c' => c' = c) ⟨_, _, Call.runOn_acquire .., rfl⟩ ?_
    rintro _ c rfl
    refine (undisputed_getOrCreateDocument hc hplan).bind fun document c' hstart => ?_
    exact .bind (.foldlM (fun d t c h => undisputed_changeTarget h.1 hplan h.2 t) _ hstart)
      fun _ _ _ => .pure trivial
  obtain ⟨x, c', hrun, hx⟩ := hundisputed
  rw [hrun] at h
  cases h
  exact hx

end Router

end CanaryRouting
