import CanaryRouting.Proofs.Atomicity.Split

/-!
# Operations that nothing disturbs

Without failures, and on a cluster that nobody else uses, every write goes through, since nothing
has changed since the reads. Whether a target can be changed then depends only on what is stored
(`ok_changeTarget_iff`), and there is always a registry document to start from
(`runOn_getOrCreateDocument_undisturbed`).
-/

namespace CanaryRouting

open Program Router

/-- A cluster of which no request fails. -/
def Cluster.undisturbed (c : Cluster) : FaultyCluster := ⟨c, []⟩

@[simp] theorem Cluster.undisturbed_cluster (c : Cluster) : c.undisturbed.cluster = c := rfl

/-- Nothing disturbs what comes later, either. -/
theorem Call.snd_runOn_undisturbed {α : Type} (p : Call α) (c : Cluster) :
    (p.runOn c.undisturbed).2 = (p.runOn c.undisturbed).2.cluster.undisturbed := by
  have hfailures := failures_runOn p (s := c.undisturbed) rfl
  generalize (p.runOn c.undisturbed).2 = s at hfailures
  obtain ⟨c', failures⟩ := s
  cases hfailures
  rfl

theorem Call.undisturbed_of_runOn {α : Type} {p : Call α} {c : Cluster} {x : Except RoutingError α}
    {s : FaultyCluster} (h : p.runOn c.undisturbed = (x, s)) : ∃ c' : Cluster, s = c'.undisturbed := by
  have hs := snd_runOn_undisturbed p c
  rw [h] at hs
  exact ⟨_, hs⟩

/-- Whether the route of a target is stored, under a name that can be asked for. -/
def Target.IsStored (c : Cluster) (space : String) (t : Target) : Prop :=
  t.name ≠ "" ∧ ∃ r, c.routes.get? (t.keyIn space) = some r

theorem Settings.documentName_ne (s : Settings) : s.documentName ≠ "" := by
  unfold documentName orDefault
  cases h : s.document.filter fun v => v ≠ "" with
  | none => decide
  | some v =>
    have := (Option.filter_eq_some_iff.1 h).2
    simpa using this

/-- The registry document has a name. -/
theorem Plan.Resolved.document_ne {rollout : Rollout} {plan : Plan} (h : plan.Resolved rollout) :
    plan.document ≠ "" :=
  h.document ▸ plan.settings.documentName_ne

namespace Router

variable {c : Cluster}

theorem respond_undisturbed (r : Request) (c : Cluster) :
    FaultyCluster.respond r c.undisturbed =
      ((Cluster.respond r c).1, (Cluster.respond r c).2.undisturbed) := rfl

/-- Resolving a request leaves the cluster as it is. -/
theorem snd_resolve_undisturbed (rollout : Rollout) (c : Cluster) :
    ((resolve rollout).runOn c.undisturbed).2 = c.undisturbed := by
  rw [Call.snd_runOn_undisturbed, (runOn_resolve rollout c.undisturbed).1]
  rfl

/-- A stored route is read. -/
theorem runOn_getRoute_undisturbed {k : RouteKey} {r : Route} (hk : k.name ≠ "")
    (hr : c.routes.get? k = some r) :
    (Call.ofStore (Store.getRoute k.space k.kind k.name)).runOn c.undisturbed =
      (.ok r, c.undisturbed) := by
  have hrun : (Call.ofStore (Store.getRoute k.space k.kind k.name)).runOn c.undisturbed = _ :=
    Call.runOn_request (.getRoute k.space k.kind k.name) _
  rw [hrun, respond_undisturbed, Cluster.respond_getRoute hk hr]
  rfl

/-- A route without a name is not. -/
theorem runOn_getRoute_unnamed {k : RouteKey} (hk : k.name = "") :
    ∃ e, (Call.ofStore (Store.getRoute k.space k.kind k.name)).runOn c.undisturbed =
      (.error e, c.undisturbed) := by
  have hrun : (Call.ofStore (Store.getRoute k.space k.kind k.name)).runOn c.undisturbed = _ :=
    Call.runOn_request (.getRoute k.space k.kind k.name) _
  rw [hrun, respond_undisturbed, Cluster.respond_unnamed
    (by simp [Request.isNamed, Request.hasNameInPath, Request.name, hk])]
  exact ⟨_, rfl⟩

/-- The document is read, if there is one. -/
theorem runOn_getDocument_undisturbed {k : DocumentKey} (hk : k.name ≠ "") :
    (Call.ofStore (Store.getDocument k.space k.name)).runOn c.undisturbed =
      (.ok (c.documents.get? k), c.undisturbed) := by
  rw [runOn_getDocument_eq, respond_undisturbed, Cluster.respond_getDocument hk]
  cases c.documents.get? k <;> rfl

/-- There is a document to start from, if need be a new one. -/
theorem ok_getOrCreateDocument (c : Cluster) {plan : Plan} (hname : plan.document ≠ "") :
    ∃ d, ((getOrCreateDocument plan).runOn c.undisturbed).1 = .ok d := by
  unfold getOrCreateDocument
  rw [Call.runOn_bind_ok (runOn_getDocument_undisturbed (k := ⟨plan.space, plan.document⟩) hname)]
  cases hd : c.documents.get? ⟨plan.space, plan.document⟩ with
  | some d => exact ⟨d, rfl⟩
  | none =>
    have hrun : (Call.ofStore (Store.createDocument plan.space plan.document)).runOn
        c.undisturbed = _ := Call.runOn_request (.createDocument plan.space plan.document) _
    rw [respond_undisturbed, Cluster.respond_createDocument hd] at hrun
    simp only [hrun]
    exact ⟨_, rfl⟩

/-- Opening the document changes nothing but that it is there. -/
theorem runOn_getOrCreateDocument_undisturbed (hc : c.WellFormed) {plan : Plan}
    (hname : plan.document ≠ "") :
    ∃ d, ∃ c' : Cluster, (getOrCreateDocument plan).runOn c.undisturbed = (.ok d, c'.undisturbed) ∧
      c'.WellFormed ∧ c'.documents.get? plan.key = some d ∧ c'.routes = c.routes ∧
      c'.document plan.key = c.document plan.key := by
  obtain ⟨d, hd⟩ := ok_getOrCreateDocument c hname
  rcases runOn_getOrCreateDocument (s := c.undisturbed) hc plan with
    ⟨e, he, -⟩ | ⟨d', s, hrun, hwell, hget, hroutes, hdocument, -⟩
  · cases hd.symm.trans he
  · obtain ⟨c', rfl⟩ := Call.undisturbed_of_runOn hrun
    exact ⟨d', c', hrun, hwell, hget, hroutes, hdocument⟩

/-- A commit on what is stored goes through. -/
theorem runOn_commit_undisturbed {plan : Plan} {k : RouteKey} {key : DocumentKey}
    {change : RouteChange} {document : Document} {mayAdd : String → Rule → Prop}
    (hc : c.WellFormed) (hspace : plan.space = key.space) (hk : k.space = key.space)
    (hkname : k.name ≠ "") (hkeyname : key.name ≠ "")
    (hr : c.routes.get? k = some change.before) (hd : c.documents.get? key = some document)
    (hproper : change.Proper k mayAdd) :
    ((commit plan document k.kind.registryKey change).runOn c.undisturbed) =
      (.ok ((change.registryAfter.store document k.kind.registryKey).withVersion
          (c.putRoute k change.after).fresh),
        ((c.putRoute k change.after).putDocument key
          (change.registryAfter.store document k.kind.registryKey)).undisturbed) := by
  have hat := hproper.after_isAt (hc.route_isAt hr)
  have hforward := hc.document_isAt hd
  have hwrite : Cluster.respond (.updateDocument key.space
      (change.registryAfter.store document k.kind.registryKey)) (c.putRoute k change.after) = _ :=
    Cluster.respond_updateDocument ⟨hforward.space, hforward.name⟩ hkeyname
      (x := document) hd rfl
  rw [Call.runOn, run_commit, hspace, ← hk]
  simp only [run_ask]
  rw [respond_undisturbed, Cluster.respond_updateRoute hat hkname hr hproper.version_after]
  simp only [run_ask]
  rw [hk, respond_undisturbed, hwrite]
  rfl

/-- A route without a name cannot be changed. -/
theorem not_ok_changeTarget_unnamed {rollout : Rollout} {plan : Plan} {change : HeaderChange}
    {document d : Document} {t : Target} (hname : t.name = "") :
    ((changeTarget rollout plan change document t).runOn c.undisturbed).1 ≠ .ok d := by
  intro hok
  obtain ⟨e, he⟩ := runOn_getRoute_unnamed (c := c) (k := t.keyIn plan.space) hname
  simp only [Target.keyIn] at he
  unfold changeTarget at hok
  cases hload : ManagedRoutes.load document t.kind.registryKey with
  | error e' =>
    rw [hload, Call.runOn_bind_error (Call.runOn_ofExcept _ _)] at hok
    cases hok
  | ok registry =>
    rw [hload, Call.runOn_bind_ok (Call.runOn_ofExcept _ _), Call.runOn_bind_error he] at hok
    cases hok

/-- A target is changed exactly if its route is stored, and it is known what the change makes of
it. -/
theorem ok_changeTarget_iff {rollout : Rollout} {plan : Plan} {change : HeaderChange}
    {key : DocumentKey} {document : Document} (hc : c.WellFormed) (hspace : plan.space = key.space)
    (hkey : key.name ≠ "") (hd : c.documents.get? key = some document) (t : Target) :
    (∃ d, ((changeTarget rollout plan change document t).runOn c.undisturbed).1 = .ok d) ↔
      t.name ≠ "" ∧ ∃ route registry x, c.routes.get? (t.keyIn key.space) = some route ∧
        ManagedRoutes.load document t.kind.registryKey = .ok registry ∧
        change.on rollout t registry route = .ok x := by
  constructor
  · rintro ⟨d, hok⟩
    refine ⟨fun hname => not_ok_changeTarget_unnamed hname hok, ?_⟩
    have houtcome : Outcome rollout change key document c t _ _ :=
      outcome_changeTarget (s := c.undisturbed) hc hspace hd t
    rw [hok] at houtcome
    generalize ((changeTarget rollout plan change document t).runOn c.undisturbed).2.cluster = c'
      at houtcome
    cases houtcome with
    | @unchanged route registry hr hload hon => exact ⟨route, registry, _, hr, hload, hon⟩
    | @tried route registry routeChange _ _ hr hload hon =>
      exact ⟨route, registry, _, hr, hload, hon⟩
  · rintro ⟨hname, route, registry, x, hr, hload, hon⟩
    unfold changeTarget
    have hget := runOn_getRoute_undisturbed (k := t.keyIn key.space) hname hr
    simp only [Target.keyIn] at hget
    rw [hload, Call.runOn_bind_ok (Call.runOn_ofExcept _ _), hspace, Call.runOn_bind_ok hget, hon,
      Call.runOn_bind_ok (Call.runOn_ofExcept _ _)]
    cases x with
    | none => exact ⟨document, rfl⟩
    | some routeChange =>
      obtain ⟨rfl, -, hproper⟩ := proper_of_on hon key.space
      have hcommit := runOn_commit_undisturbed hc hspace (k := t.keyIn key.space) rfl hname hkey hr
        hd hproper
      simp only [Target.keyIn] at hcommit
      rw [hcommit]
      exact ⟨_, rfl⟩

end Router

end CanaryRouting
