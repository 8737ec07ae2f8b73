import CanaryRouting.Proofs.Atomicity.Outcome

/-!
# Targets that carry a change

Targets are worked through one after the other, and all of one kind share the managed routes in the
registry document: a change makes a `Chain` of documents. What it records for a route depends on the
change of this route alone (`Chain.placed`, `Chain.positions_of_notMem`).

`Carried` says of a list of targets that each route is what the change makes of it, and that the
document comes of storing the managed routes of one target after the other.
-/

namespace CanaryRouting

open Router

/-- The route that a change makes of a route. -/
def routeAfter (route : Route) (x : Option RouteChange) : Route :=
  (x.map RouteChange.after).getD route

/-- The managed routes that a change makes of managed routes. -/
def registryAfter (registry : ManagedRoutes) (x : Option RouteChange) : ManagedRoutes :=
  (x.map RouteChange.registryAfter).getD registry

/-- The document that a change makes of a document; it is not written if nothing changes. -/
def documentAfter (d : Document) (kind : RouteKind) (x : Option RouteChange) : Document :=
  x.elim d fun routeChange => routeChange.registryAfter.store d kind.registryKey

/-- Between two clusters the targets have been changed, and so has the document, from the first
one to the last. -/
inductive Carried (rollout : Rollout) (change : HeaderChange) (space : String) (c c' : Cluster) :
    Document → List Target → Document → Prop where
  /-- Without targets nothing changes. -/
  | nil {d : Document} : Carried rollout change space c c' d [] d
  /-- The first target has been changed, and then the others. -/
  | cons {d d' : Document} {t : Target} {ts : List Target} {route : Route}
    {registry : ManagedRoutes} {x : Option RouteChange} :
    c.routes.get? (t.keyIn space) = some route →
    ManagedRoutes.load d t.kind.registryKey = .ok registry →
    change.on rollout t registry route = .ok x →
    c'.Holds (t.keyIn space) (routeAfter route x) →
    Carried rollout change space c c' (documentAfter d t.kind x) ts d' →
    Carried rollout change space c c' d (t :: ts) d'

/-- What a change makes of targets one after the other, and of the document. Of every target this is
true: with the managed routes that it is reached with, its route, and what the change makes of
them. -/
inductive Chain (rollout : Rollout) (change : HeaderChange)
    (P : Target → ManagedRoutes → Route → Option RouteChange → Prop) :
    Document → List Target → Document → Prop where
  /-- Without targets nothing changes. -/
  | nil {d : Document} : Chain rollout change P d [] d
  /-- The first target is changed, and then the others. -/
  | cons {d d' : Document} {t : Target} {ts : List Target} {route : Route}
    {registry : ManagedRoutes} {x : Option RouteChange} :
    ManagedRoutes.load d t.kind.registryKey = .ok registry →
    change.on rollout t registry route = .ok x →
    P t registry route x →
    Chain rollout change P (documentAfter d t.kind x) ts d' →
    Chain rollout change P d (t :: ts) d'

theorem documentAfter_withVersion (d : Document) (kind : RouteKind) (x : Option RouteChange)
    (v : Option String) :
    (documentAfter d kind x).withVersion v = documentAfter (d.withVersion v) kind x := by
  cases x <;> rfl

/-- What is read from the document that a change leaves. -/
theorem eq_of_load_documentAfter {d : Document} {kind : RouteKind} {registry m : ManagedRoutes}
    {x : Option RouteChange} (hload : ManagedRoutes.load d kind.registryKey = .ok registry)
    (h : ManagedRoutes.load (documentAfter d kind x) kind.registryKey = .ok m) :
    m = registryAfter registry x := by
  cases x with
  | none => exact Except.ok.inj (h.symm.trans hload)
  | some routeChange => exact ManagedRoutes.eq_of_load_store h

theorem load_documentAfter_of_ne {kind kind' : RouteKind} (h : kind' ≠ kind) (d : Document)
    (x : Option RouteChange) :
    ManagedRoutes.load (documentAfter d kind x) kind'.registryKey =
      ManagedRoutes.load d kind'.registryKey := by
  cases x with
  | none => rfl
  | some routeChange =>
    exact ManagedRoutes.load_store_of_ne (fun e => h (RouteKind.registryKey_injective e)) _ d

theorem positions_registryAfter_of_ne {rollout : Rollout} {change : HeaderChange} {t : Target}
    {registry : ManagedRoutes} {route : Route} {x : Option RouteChange}
    (h : change.on rollout t registry route = .ok x) {name : String} (hname : name ≠ t.name) :
    (registryAfter registry x).positions name = registry.positions name := by
  cases x with
  | none => rfl
  | some routeChange =>
    obtain ⟨-, hregistry, hproper⟩ := proper_of_on h ""
    rw [← hregistry]
    exact hproper.others name hname

/-- Only the managed routes matter to the document. -/
theorem documentAfter_congr {x x' : Option RouteChange}
    (h : x'.map RouteChange.registryAfter = x.map RouteChange.registryAfter) (d : Document)
    (kind : RouteKind) : documentAfter d kind x' = documentAfter d kind x := by
  cases x <;> cases x' <;> simp_all [documentAfter]

/-- A change of one target does not concern the positions in the route of another. -/
theorem load_of_documentAfter {rollout : Rollout} {change : HeaderChange} {t t₁ : Target}
    {d : Document} {registry m₁ : ManagedRoutes} {route : Route} {x : Option RouteChange}
    (hne : t₁.identity ≠ t.identity)
    (hload : ManagedRoutes.load d t₁.kind.registryKey = .ok registry)
    (hon : change.on rollout t₁ registry route = .ok x)
    (hnext : ManagedRoutes.load (documentAfter d t₁.kind x) t.kind.registryKey = .ok m₁) :
    ∃ m, ManagedRoutes.load d t.kind.registryKey = .ok m ∧
      m₁.positions t.name = m.positions t.name := by
  by_cases hkind : t.kind = t₁.kind
  · have hname : t.name ≠ t₁.name := fun he => hne (by simp [Target.identity, hkind, he])
    rw [hkind] at hnext ⊢
    refine ⟨registry, hload, ?_⟩
    rw [eq_of_load_documentAfter hload hnext, positions_registryAfter_of_ne hon hname]
  · rw [load_documentAfter_of_ne hkind] at hnext
    exact ⟨m₁, hnext, rfl⟩

namespace Chain

variable {rollout : Rollout} {change : HeaderChange}
  {P Q : Target → ManagedRoutes → Route → Option RouteChange → Prop} {d d' d'' : Document}
  {ts : List Target} {t : Target}

theorem imp (h : Chain rollout change P d ts d')
    (hPQ : ∀ t ∈ ts, ∀ m r x, P t m r x → Q t m r x) : Chain rollout change Q d ts d' := by
  induction h with
  | nil => exact .nil
  | cons hload hon hP _ ih =>
    exact .cons hload hon (hPQ _ (List.mem_cons_self ..) _ _ _ hP)
      (ih fun t ht => hPQ t (List.mem_cons_of_mem _ ht))

/-- What is true of every target is true of each. -/
theorem of_mem (h : Chain rollout change P d ts d') (ht : t ∈ ts) :
    ∃ registry route x, change.on rollout t registry route = .ok x ∧ P t registry route x := by
  induction h with
  | nil => cases ht
  | cons _ hon hP _ ih =>
    rcases List.mem_cons.1 ht with rfl | hmem
    · exact ⟨_, _, _, hon, hP⟩
    · exact ih hmem

/-- What can be read in the end could be read in the beginning, and the positions in other routes
are the same. -/
theorem positions_of_notMem (h : Chain rollout change P d ts d')
    (ht : ∀ t' ∈ ts, t'.identity ≠ t.identity) {m' : ManagedRoutes}
    (hm' : ManagedRoutes.load d' t.kind.registryKey = .ok m') :
    ∃ m, ManagedRoutes.load d t.kind.registryKey = .ok m ∧
      m'.positions t.name = m.positions t.name := by
  induction h with
  | nil => exact ⟨m', hm', rfl⟩
  | @cons d _ t₁ _ _ _ _ hload hon _ _ ih =>
    obtain ⟨m₁, hm₁, he⟩ := ih (fun t' ht' => ht t' (List.mem_cons_of_mem _ ht')) hm'
    obtain ⟨m, hm, he'⟩ := load_of_documentAfter (ht t₁ (List.mem_cons_self ..)) hload hon hm₁
    exact ⟨m, hm, he.trans he'⟩

/-- A target is reached with the positions that it had in the beginning, and has in the end those
that its change leaves. -/
theorem placed (h : Chain rollout change P d ts d') (hnodup : (ts.map Target.identity).Nodup) :
    Chain rollout change (fun t registry route x => P t registry route x ∧
      (∃ m, ManagedRoutes.load d t.kind.registryKey = .ok m ∧
        registry.positions t.name = m.positions t.name) ∧
      ∀ m', ManagedRoutes.load d' t.kind.registryKey = .ok m' →
        m'.positions t.name = (registryAfter registry x).positions t.name) d ts d' := by
  induction h with
  | nil => exact .nil
  | @cons d d' t₁ ts route registry x hload hon hP hrest ih =>
    rw [List.map_cons, List.nodup_cons] at hnodup
    have hne : ∀ t ∈ ts, t₁.identity ≠ t.identity := fun t ht e =>
      hnodup.1 (e ▸ List.mem_map_of_mem ht)
    refine .cons hload hon ⟨hP, ⟨registry, hload, rfl⟩, fun m' hm' => ?_⟩
      ((ih hnodup.2).imp fun t ht m r y h => ⟨h.1, ?_, h.2.2⟩)
    · obtain ⟨m₁, hm₁, he⟩ := hrest.positions_of_notMem (fun t ht => (hne t ht).symm) hm'
      rw [he, eq_of_load_documentAfter hload hm₁]
    · obtain ⟨-, ⟨m₁, hm₁, he⟩, -⟩ := h
      obtain ⟨m, hm, he'⟩ := load_of_documentAfter (hne t ht) hload hon hm₁
      exact ⟨m, hm, he.trans he'⟩

/-- With other routes the documents are the same, if the change makes the same of the managed
routes. -/
theorem congr (h : Chain rollout change P d ts d')
    (hPQ : ∀ t ∈ ts, ∀ m r x, change.on rollout t m r = .ok x → P t m r x →
      ∃ r' x', change.on rollout t m r' = .ok x' ∧ Q t m r' x' ∧
        x'.map RouteChange.registryAfter = x.map RouteChange.registryAfter) :
    Chain rollout change Q d ts d' := by
  induction h with
  | nil => exact .nil
  | @cons d _ t _ _ _ _ hload hon hP _ ih =>
    obtain ⟨r', x', hon', hQ, hx⟩ := hPQ t (List.mem_cons_self ..) _ _ _ hon hP
    refine .cons hload hon' hQ ?_
    rw [documentAfter_congr hx]
    exact ih fun t ht => hPQ t (List.mem_cons_of_mem _ ht)

/-- With the same routes everything is the same. -/
theorem and (h : Chain rollout change P d ts d') (h' : Chain rollout change Q d ts d'')
    (hPQ : ∀ t ∈ ts, ∀ m r x r' x', P t m r x → Q t m r' x' → r' = r) :
    d'' = d' ∧ Chain rollout change (fun t m r x => P t m r x ∧ Q t m r x) d ts d' := by
  induction h with
  | nil =>
    cases h'
    exact ⟨rfl, .nil⟩
  | @cons d _ t _ _ _ _ hload hon hP _ ih =>
    cases h' with
    | cons hload' hon' hQ hrest' =>
      cases hload.symm.trans hload'
      cases hPQ t (List.mem_cons_self ..) _ _ _ _ _ hP hQ
      cases hon.symm.trans hon'
      obtain ⟨rfl, hrest⟩ := ih hrest' fun t ht => hPQ t (List.mem_cons_of_mem _ ht)
      exact ⟨rfl, .cons hload hon ⟨hP, hQ⟩ hrest⟩

end Chain

theorem carried_iff_chain {rollout : Rollout} {change : HeaderChange} {space : String}
    {c c' : Cluster} {d d' : Document} {ts : List Target} :
    Carried rollout change space c c' d ts d' ↔ Chain rollout change (fun t _ route x =>
      c.routes.get? (t.keyIn space) = some route ∧
        c'.Holds (t.keyIn space) (routeAfter route x)) d ts d' := by
  constructor
  · intro h
    induction h with
    | nil => exact .nil
    | cons hr hload hon hholds _ ih => exact .cons hload hon ⟨hr, hholds⟩ ih
  · intro h
    induction h with
    | nil => exact .nil
    | cons hload hon hP _ ih => exact .cons hP.1 hload hon hP.2 ih

namespace Carried

variable {rollout : Rollout} {change : HeaderChange} {space : String} {c c₁ c' : Cluster}
  {d d' : Document} {ts : List Target}

/-- Only the routes of the targets matter. -/
theorem congr (h : Carried rollout change space c₁ c' d ts d')
    (hroutes : ∀ t ∈ ts, c₁.routes.get? (t.keyIn space) = c.routes.get? (t.keyIn space)) :
    Carried rollout change space c c' d ts d' :=
  carried_iff_chain.2 ((carried_iff_chain.1 h).imp fun t ht _ _ _ hP =>
    ⟨(hroutes t ht).symm.trans hP.1, hP.2⟩)

/-- The positions in other routes stay as they are. -/
theorem positions_of_notMem (h : Carried rollout change space c c' d ts d') {t : Target}
    (ht : ∀ t' ∈ ts, t'.identity ≠ t.identity) {m m' : ManagedRoutes}
    (hm : ManagedRoutes.load d t.kind.registryKey = .ok m)
    (hm' : ManagedRoutes.load d' t.kind.registryKey = .ok m') :
    m'.positions t.name = m.positions t.name := by
  obtain ⟨m₀, hm₀, he⟩ := (carried_iff_chain.1 h).positions_of_notMem ht hm'
  cases hm.symm.trans hm₀
  exact he

/-- A target that carries the change: the route is what the change makes of the earlier one, and
the positions in the last document are those that it makes of the positions in the first. -/
theorem recorded (h : Carried rollout change space c c' d ts d')
    (hnodup : (ts.map Target.identity).Nodup) {t : Target} (ht : t ∈ ts) :
    ∃ route registry x, c.routes.get? (t.keyIn space) = some route ∧
      change.on rollout t registry route = .ok x ∧
      c'.Holds (t.keyIn space) (routeAfter route x) ∧
      (∀ m, ManagedRoutes.load d t.kind.registryKey = .ok m →
        registry.positions t.name = m.positions t.name) ∧
      ∀ m', ManagedRoutes.load d' t.kind.registryKey = .ok m' →
        m'.positions t.name = (registryAfter registry x).positions t.name := by
  obtain ⟨registry, route, x, hon, ⟨hr, hholds⟩, ⟨m₀, hm₀, he⟩, hafter⟩ :=
    ((carried_iff_chain.1 h).placed hnodup).of_mem ht
  refine ⟨route, registry, x, hr, hon, hholds, fun m hm => ?_, hafter⟩
  cases hm.symm.trans hm₀
  exact he

end Carried

end CanaryRouting
