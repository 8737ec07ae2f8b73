import CanaryRouting.Proofs.Cluster.Replay
import CanaryRouting.Proofs.Router.Commit
import CanaryRouting.Proofs.Router.Listing

/-!
# Transcripts of operations

What an operation that succeeds has asked and was answered. Setting weights reads the registry
document once, and then reads and writes one route after the other (`Weighs`). A change of header
routes reads each route, and writes it and the document if there is something to change; the
document as it was stored is what it starts from at the next target (`Alters`).
-/

namespace CanaryRouting

open Program Router

/-! ### Setting weights -/

/-- Targets are weighed one after the other: the route is read, and written with the weights. -/
inductive Weighs (rollout : Rollout) (settings : Settings) (key : DocumentKey)
    (document : Option Document) (desired : Int) (destinations : List WeightDestination) :
    List Target → List Event → Prop where
  /-- No targets are left. -/
  | nil : Weighs rollout settings key document desired destinations [] []
  /-- One target is weighed, and then the others. -/
  | cons {t : Target} {ts : List Target} {es : List Event} {i j : Nat} {route weighed stored : Route}
    {skip : List Nat} {found before : Cluster} :
    t.name ≠ "" → route.IsAt (t.keyIn key.space) →
    injectedRules document t = .ok skip →
    reweigh rollout settings desired destinations skip route = .ok weighed →
    Weighs rollout settings key document desired destinations ts es →
    Weighs rollout settings key document desired destinations (t :: ts)
      (⟨i, .getRoute key.space t.kind t.name, .ok route, found⟩ ::
        ⟨j, .updateRoute key.space weighed, .ok stored, before⟩ :: es)

theorem weighs_of_ends {rollout : Rollout} {plan : Plan} {document : Option Document}
    {desired : Int} {destinations : List WeightDestination} {ts : List Target} {es : List Event}
    (h : (ts.forM (setWeightOf rollout plan document desired destinations)).run.Ends es (.ok ()))
    (hes : ∀ e ∈ es, e.Genuine) :
    Weighs rollout plan.settings plan.key document desired destinations ts es := by
  induction ts generalizing es with
  | nil =>
    rw [(Ends.of_pure h).1]
    exact .nil
  | cons t ts ih =>
    rw [List.forM_eq_forM, List.forM_cons] at h
    obtain ⟨_, es₁, es₂, rfl, hfirst, hrest⟩ := Ends.of_bindCall h
    obtain ⟨route, es₃, es₄, rfl, hread, hskips⟩ := Ends.of_bindCall hfirst
    obtain ⟨skip, es₅, es₆, rfl, hskip, hweighs⟩ := Ends.of_bindCall hskips
    obtain ⟨weighed, es₇, es₈, rfl, hweigh, hwrites⟩ := Ends.of_bindCall hweighs
    obtain ⟨stored, es₉, es₁₀, rfl, hwrite, hpure⟩ := Ends.of_bindCall hwrites
    obtain ⟨i, found, rfl⟩ := Ends.of_request hread
    obtain ⟨j, before, rfl⟩ := Ends.of_request hwrite
    obtain ⟨rfl, hskip'⟩ := Ends.of_ofExcept hskip
    obtain ⟨rfl, hweigh'⟩ := Ends.of_ofExcept hweigh
    obtain ⟨rfl, -⟩ := Ends.of_pure hpure
    obtain ⟨hname, -, hat⟩ := (hes _ (List.mem_cons_self ..)).read
      (k := t.keyIn plan.space)
    exact .cons hname hat hskip' hweigh' (ih hrest fun e he => hes e (List.mem_append_right _ he))

/-- The transcript of setting weights. -/
theorem ends_setWeight {rollout : Rollout} {desired : Int}
    {destinations : List WeightDestination} {es : List Event} {x : Option Bool}
    (h : (perform rollout (.setWeight desired destinations)).run.Ends es (.ok x))
    (hes : ∀ e ∈ es, e.Genuine) :
    checkWeight desired = .ok () ∧ ∃ plan lists i answer before rest,
      es = lists ++ ⟨i, .getDocument plan.space plan.document, answer, before⟩ :: rest ∧
      (resolve rollout).run.Ends lists (.ok plan) ∧
      Weighs rollout plan.settings plan.key answer.toOption desired destinations plan.targets
        rest := by
  obtain ⟨_, es₁, es₂, rfl, hset, hpure⟩ := Ends.of_bindCall h
  obtain ⟨_, es₃, es₄, rfl, hcheck, hresolves⟩ := Ends.of_bindCall hset
  obtain ⟨plan, lists, es₅, rfl, hplan, hreads⟩ := Ends.of_bindCall hresolves
  obtain ⟨d, es₆, es₇, rfl, hread, hweighs⟩ := Ends.of_bindCall hreads
  obtain ⟨i, answer, before, rfl, rfl⟩ := Ends.of_getDocument hread
  obtain ⟨rfl, hcheck'⟩ := Ends.of_ofExcept hcheck
  obtain ⟨rfl, -⟩ := Ends.of_pure hpure
  exact ⟨hcheck', plan, lists, i, answer, before, es₇, by simp, hplan,
    weighs_of_ends hweighs fun e he => hes e (by simp [he])⟩

/-! ### Changing header routes -/

/-- Targets are changed one after the other: the route is read, and if there is something to change,
it is written, and then the document. -/
inductive Alters (rollout : Rollout) (change : HeaderChange) (key : DocumentKey) :
    Document → List Target → List Event → Document → Prop where
  /-- No targets are left. -/
  | nil {d : Document} : Alters rollout change key d [] [] d
  /-- At one target there is nothing to change. -/
  | skip {d d' : Document} {t : Target} {ts : List Target} {es : List Event} {i : Nat}
    {route : Route} {registry : ManagedRoutes} {found : Cluster} :
    t.name ≠ "" → route.IsAt (t.keyIn key.space) →
    ManagedRoutes.load d t.kind.registryKey = .ok registry →
    change.on rollout t registry route = .ok none →
    Alters rollout change key d ts es d' →
    Alters rollout change key d (t :: ts)
      (⟨i, .getRoute key.space t.kind t.name, .ok route, found⟩ :: es) d'
  /-- One target is changed, and then the others. -/
  | change {d d' : Document} {t : Target} {ts : List Target} {es : List Event}
    {i j k : Nat} {route stored : Route} {registry : ManagedRoutes} {routeChange : RouteChange}
    {v : Option String} {found before before' : Cluster} :
    t.name ≠ "" → route.IsAt (t.keyIn key.space) →
    ManagedRoutes.load d t.kind.registryKey = .ok registry →
    change.on rollout t registry route = .ok (some routeChange) →
    Alters rollout change key
      ((routeChange.registryAfter.store d t.kind.registryKey).withVersion v) ts es d' →
    Alters rollout change key d (t :: ts)
      (⟨i, .getRoute key.space t.kind t.name, .ok route, found⟩ ::
        ⟨j, .updateRoute key.space routeChange.after, .ok stored, before⟩ ::
        ⟨k, .updateDocument key.space (routeChange.registryAfter.store d t.kind.registryKey),
          .ok ((routeChange.registryAfter.store d t.kind.registryKey).withVersion v), before'⟩ ::
        es) d'

theorem ends_commit {plan : Plan} {d d' : Document} {key : String} {change : RouteChange}
    {es : List Event} (h : (commit plan d key change).run.Ends es (.ok d')) :
    ∃ i j stored before before', es = [
      ⟨i, .updateRoute plan.space change.after, .ok stored, before⟩,
      ⟨j, .updateDocument plan.space (change.registryAfter.store d key), .ok d', before'⟩] := by
  rw [run_commit] at h
  cases h with
  | @ask i _ answer before _ _ _ h =>
    cases answer with
    | error e => cases h
    | ok stored =>
      cases h with
      | @ask j _ answer before' _ _ _ h =>
        cases answer with
        | ok written =>
          cases h
          exact ⟨i, j, stored, before, before', rfl⟩
        | error e =>
          cases h with
          | @ask _ _ answer _ _ _ _ h => cases answer <;> cases h

theorem alters_of_ends {rollout : Rollout} {plan : Plan} {change : HeaderChange} {d d' : Document}
    {ts : List Target} {es : List Event}
    (h : (ts.foldlM (changeTarget rollout plan change) d).run.Ends es (.ok d'))
    (hes : ∀ e ∈ es, e.Genuine) (hd : d.IsAt plan.key) (hv : d.version ≠ none) :
    Alters rollout change plan.key d ts es d' := by
  induction ts generalizing d es with
  | nil =>
    obtain ⟨rfl, rfl⟩ := Ends.of_pure h
    exact .nil
  | cons t ts ih =>
    rw [List.foldlM_cons] at h
    obtain ⟨d₁, es₁, es₂, rfl, hfirst, hrest⟩ := Ends.of_bindCall h
    obtain ⟨registry, es₃, es₄, rfl, hload, hreads⟩ := Ends.of_bindCall hfirst
    obtain ⟨route, es₅, es₆, rfl, hread, hchanges⟩ := Ends.of_bindCall hreads
    obtain ⟨x, es₇, es₈, rfl, hon, hcommit⟩ := Ends.of_bindCall hchanges
    obtain ⟨i, found, rfl⟩ := Ends.of_request hread
    obtain ⟨rfl, hload'⟩ := Ends.of_ofExcept hload
    obtain ⟨rfl, hon'⟩ := Ends.of_ofExcept hon
    obtain ⟨hname, -, hat⟩ := (hes _ (List.mem_cons_self ..)).read
      (k := t.keyIn plan.space)
    have hlater : ∀ e ∈ es₂, e.Genuine := fun e he => hes e (List.mem_append_right _ he)
    cases x with
    | none =>
      obtain ⟨rfl, rfl⟩ := Ends.of_pure hcommit
      exact .skip hname hat hload' hon' (ih hrest hlater hd hv)
    | some routeChange =>
      obtain ⟨j, k, stored, before, before', rfl⟩ := ends_commit hcommit
      have hwrite : Event.Genuine ⟨k, .updateDocument plan.space
          (routeChange.registryAfter.store d t.kind.registryKey), .ok d₁, before'⟩ :=
        hes _ (by simp)
      obtain rfl := hwrite.updated (k := plan.key) ⟨hd.space, hd.name⟩ hv
      exact .change hname hat hload' hon'
        (ih hrest hlater ⟨hd.space, hd.name⟩ (by simp [Cluster.fresh]))

/-- The document to start from is read, or created since there is none. -/
inductive Opens (key : DocumentKey) : List Event → Document → Prop where
  /-- It is read. -/
  | read {i : Nat} {d : Document} {before : Cluster} :
    before.documents.get? key = some d →
    Opens key [⟨i, .getDocument key.space key.name, .ok d, before⟩] d
  /-- It is created. -/
  | create {i j : Nat} {e : ApiFailure} {v : Option String} {before before' : Cluster} :
    before'.documents.get? key = none →
    Opens key [⟨i, .getDocument key.space key.name, .error e, before⟩,
      ⟨j, .createDocument key.space key.name,
        .ok ((Cluster.created key).withVersion v), before'⟩]
      ((Cluster.created key).withVersion v)

theorem opens_of_ends {plan : Plan} {d : Document} {es : List Event}
    (h : (getOrCreateDocument plan).run.Ends es (.ok d)) (hes : ∀ e ∈ es, e.Genuine)
    (hname : plan.document ≠ "") :
    Opens plan.key es d ∧ d.IsAt plan.key ∧ d.version ≠ none := by
  obtain ⟨d?, es₁, es₂, rfl, hread, hrest⟩ := Ends.of_bindCall h
  obtain ⟨i, answer, before, rfl, rfl⟩ := Ends.of_getDocument hread
  have hgenuine := hes _ (List.mem_cons_self ..)
  have hstored := hgenuine.document (k := plan.key) hname
  cases answer with
  | ok d' =>
    obtain ⟨rfl, rfl⟩ := Ends.of_pure hrest
    exact ⟨.read hstored.symm, hgenuine.wellFormed.document_isAt hstored.symm,
      (hgenuine.wellFormed.document_issued hstored.symm).ne_none⟩
  | error e =>
    obtain ⟨j, before', rfl⟩ := Ends.of_request hrest
    have hcreate : Event.Genuine ⟨j, .createDocument plan.space plan.document, .ok d, before'⟩ :=
      hes _ (by simp)
    obtain ⟨hnone, rfl⟩ := hcreate.created (k := plan.key)
    exact ⟨.create hnone, ⟨rfl, rfl⟩, by simp [Cluster.fresh]⟩

/-- The transcript of a change of header routes. -/
theorem ends_perform {rollout : Rollout} {operation : Operation} {change : HeaderChange}
    (hop : operation.headerChange? rollout = some (.ok change)) {es : List Event} {x : Option Bool}
    (h : (perform rollout operation).run.Ends es (.ok x)) (hes : ∀ e ∈ es, e.Genuine) :
    ∃ plan lists opening rest d d', es = lists ++ (opening ++ rest) ∧
      (resolve rollout).run.Ends lists (.ok plan) ∧ Opens plan.key opening d ∧ d.IsAt plan.key ∧
      Alters rollout change plan.key d plan.headerTargets rest d' := by
  rw [perform_headerChange hop] at h
  obtain ⟨plan, lists, es₁, rfl, hplan, hmeans⟩ := Ends.of_bindCall h
  obtain ⟨change', es₂, es₃, rfl, hchange, hchanges⟩ := Ends.of_bindCall hmeans
  obtain ⟨_, es₄, es₅, rfl, htargets, hpure⟩ := Ends.of_bindCall hchanges
  obtain ⟨rfl, hchange'⟩ := Ends.of_ofExcept hchange
  cases hchange'
  obtain ⟨rfl, -⟩ := Ends.of_pure hpure
  obtain ⟨_, es₆, es₇, rfl, hlock, hopens⟩ := Ends.of_bindCall htargets
  obtain ⟨d, opening, es₈, rfl, hopen, halters⟩ := Ends.of_bindCall hopens
  obtain ⟨d', rest, es₉, rfl, halter, hpure'⟩ := Ends.of_bindCall halters
  obtain ⟨rfl, -⟩ := Ends.of_pure hpure'
  rw [Ends.of_acquire hlock] at hes ⊢
  obtain ⟨-, hresolved⟩ := (follows_listing_resolve rollout).of_ends hplan
  obtain ⟨hopened, hat, hv⟩ := opens_of_ends hopen (fun e he => hes e (by simp [he]))
    (hresolved plan rfl).document_ne
  exact ⟨plan, lists, opening, rest, d, d', by simp, hplan, hopened, hat,
    alters_of_ends halter (fun e he => hes e (by simp [he])) hat hv⟩

end CanaryRouting
