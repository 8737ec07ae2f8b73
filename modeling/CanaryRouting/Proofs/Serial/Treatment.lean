import CanaryRouting.Proofs.Serial.Transcripts

/-!
# What an operation does to one route

Every target is there once, so an operation reads each route once, and writes it at most once, right
after it has read it (`Treats`). That is so for setting weights (`Weighs.treats`) and for a change of
header routes (`Alters.chain`). In a history of several operations the write replaces the route that
was read, whatever the others do in between (`Treats.replaces`).
-/

namespace CanaryRouting

open Router

/-- A caller reads a route, and writes another one instead, or none. It writes the route at no other
time. -/
inductive Treats (k : RouteKey) : List Event → Route → Option Route → Prop where
  /-- The route is read. -/
  | read {es₁ es₂ : List Event} {i : Nat} {route : Route} {found : Cluster} :
    (∀ e ∈ es₁ ++ es₂, ¬ e.writes k) →
    Treats k (es₁ ++ ⟨i, .getRoute k.space k.kind k.name, .ok route, found⟩ :: es₂) route none
  /-- The route is read, and then it is written. -/
  | write {es₁ es₂ : List Event} {i j : Nat} {route after stored : Route}
    {found before : Cluster} :
    (∀ e ∈ es₁ ++ es₂, ¬ e.writes k) → after.IsAt k → after.version = route.version →
    Treats k (es₁ ++ ⟨i, .getRoute k.space k.kind k.name, .ok route, found⟩ ::
      ⟨j, .updateRoute k.space after, .ok stored, before⟩ :: es₂) route (some after)

/-- Before that other routes are treated. -/
theorem Treats.prepend {k : RouteKey} {es : List Event} {route : Route} {after? : Option Route}
    (h : Treats k es route after?) (es' : List Event) (hes' : ∀ e ∈ es', ¬ e.writes k) :
    Treats k (es' ++ es) route after? := by
  have hall : ∀ {es₁ es₂ : List Event}, (∀ e ∈ es₁ ++ es₂, ¬ e.writes k) →
      ∀ e ∈ (es' ++ es₁) ++ es₂, ¬ e.writes k := by
    intro es₁ es₂ hes e he
    rw [List.append_assoc] at he
    exact (List.mem_append.1 he).elim (hes' e) (hes e)
  cases h with
  | read hes =>
    rw [← List.append_assoc]
    exact .read (hall hes)
  | write hes hat hversion =>
    rw [← List.append_assoc]
    exact .write (hall hes) hat hversion

theorem Event.writes_updateRoute {k k' : RouteKey} {i : Nat} {r : Route}
    {answer : Except ApiFailure Route} {c : Cluster} (hr : r.IsAt k) :
    Event.writes k' ⟨i, .updateRoute k.space r, answer, c⟩ ↔ k = k' := by
  simp [writes, Request.routeKey?, hr.kind, hr.name]

/-! ### Setting weights -/

namespace Weighs

variable {rollout : Rollout} {settings : Settings} {key : DocumentKey}
  {document : Option Document} {desired : Int} {destinations : List WeightDestination} {ts : List Target} {es : List Event}

/-- Only the routes of targets are written. -/
theorem writes (h : Weighs rollout settings key document desired destinations ts es) {e : Event}
    (he : e ∈ es) {k : RouteKey} (hk : e.writes k) : ∃ t ∈ ts, t.keyIn key.space = k := by
  induction h with
  | nil => cases he
  | @cons t ts _ _ _ route _ _ _ _ _ _ hat _ hweigh _ ih =>
    rcases List.mem_cons.1 he with rfl | he
    · cases hk
    rcases List.mem_cons.1 he with rfl | he
    · exact ⟨t, List.mem_cons_self .., (Event.writes_updateRoute (k := t.keyIn key.space)
        (hat.of_sameShape (sameShape_of_reweigh hweigh))).1 hk⟩
    · obtain ⟨t', ht', e⟩ := ih he
      exact ⟨t', List.mem_cons_of_mem _ ht', e⟩

/-- No documents are written. -/
theorem documentKey? (h : Weighs rollout settings key document desired destinations ts es) {e : Event}
    (he : e ∈ es) : e.request.documentKey? = none := by
  induction h with
  | nil => cases he
  | cons _ _ _ _ _ ih =>
    rcases List.mem_cons.1 he with rfl | he
    · rfl
    rcases List.mem_cons.1 he with rfl | he
    · rfl
    · exact ih he

/-- Every target is weighed. -/
theorem treats (h : Weighs rollout settings key document desired destinations ts es)
    (hnodup : (ts.map Target.identity).Nodup) {t : Target} (ht : t ∈ ts) :
    t.name ≠ "" ∧ ∃ route skip weighed, injectedRules document t = .ok skip ∧
      reweigh rollout settings desired destinations skip route = .ok weighed ∧
      Treats (t.keyIn key.space) es route (some weighed) := by
  induction h with
  | nil => cases ht
  | @cons t₁ ts es i j route weighed stored skip found before hname hat hskip hweigh hrest ih =>
    rw [List.map_cons, List.nodup_cons] at hnodup
    have hshape := sameShape_of_reweigh hweigh
    rcases List.mem_cons.1 ht with rfl | hmem
    · refine ⟨hname, route, skip, weighed, hskip, hweigh,
        @Treats.write (t.keyIn key.space) [] _ _ _ _ _ _ _ _ (fun e he hk => ?_)
          (hat.of_sameShape hshape) hshape.version⟩
      obtain ⟨t', ht', hkey⟩ := hrest.writes he hk
      exact hnodup.1 (Target.keyIn_injective hkey ▸ List.mem_map_of_mem ht')
    · obtain ⟨hname', route', skip', weighed', hskip', hweigh', htreats⟩ := ih hnodup.2 hmem
      refine ⟨hname', route', skip', weighed', hskip', hweigh',
        htreats.prepend [_, _] fun e he hk => ?_⟩
      simp only [List.mem_cons, List.not_mem_nil, or_false] at he
      rcases he with rfl | rfl
      · cases hk
      · have hkey := (Event.writes_updateRoute (k := t₁.keyIn key.space)
          (hat.of_sameShape hshape)).1 hk
        exact hnodup.1 (Target.keyIn_injective hkey ▸ List.mem_map_of_mem hmem)

end Weighs

/-! ### Changing header routes -/

/-- The positions of a target are those of an earlier document. -/
def Target.PlacedAs (t : Target) (d d' : Document) : Prop :=
  ∀ m', ManagedRoutes.load d' t.kind.registryKey = .ok m' →
    ∃ m, ManagedRoutes.load d t.kind.registryKey = .ok m ∧
      m'.positions t.name = m.positions t.name

theorem Target.PlacedAs.of_unversioned {t : Target} {d d' : Document}
    (h : d'.withVersion none = d.withVersion none) : t.PlacedAs d d' := by
  intro m' hm'
  rw [← Cluster.load_withVersion d' none, h, Cluster.load_withVersion] at hm'
  exact ⟨m', hm', rfl⟩

theorem Target.PlacedAs.trans {t : Target} {d d₁ d' : Document} (h : t.PlacedAs d d₁)
    (h' : t.PlacedAs d₁ d') : t.PlacedAs d d' := by
  intro m' hm'
  obtain ⟨m₁, hm₁, e⟩ := h' m' hm'
  obtain ⟨m, hm, e'⟩ := h m₁ hm₁
  exact ⟨m, hm, e.trans e'⟩

namespace Alters

variable {rollout : Rollout} {key : DocumentKey} {change : HeaderChange} {d d' : Document}
  {ts : List Target} {es : List Event}

/-- Only the routes of targets are written. -/
theorem writes (h : Alters rollout change key d ts es d') {e : Event} (he : e ∈ es) {k : RouteKey}
    (hk : e.writes k) : ∃ t ∈ ts, t.keyIn key.space = k := by
  have hlater : ∀ {t : Target} {ts : List Target}, (∃ t' ∈ ts, t'.keyIn key.space = k) →
      ∃ t' ∈ t :: ts, t'.keyIn key.space = k := fun ⟨t', ht', e⟩ =>
    ⟨t', List.mem_cons_of_mem _ ht', e⟩
  induction h with
  | nil => cases he
  | skip _ _ _ _ _ ih =>
    rcases List.mem_cons.1 he with rfl | he
    · cases hk
    · exact hlater (ih he)
  | @change _ _ t _ _ _ _ _ _ _ _ _ _ _ _ _ _ hat _ hon _ ih =>
    obtain ⟨rfl, -, hproper⟩ := proper_of_on hon key.space
    rcases List.mem_cons.1 he with rfl | he
    · cases hk
    rcases List.mem_cons.1 he with rfl | he
    · exact ⟨t, List.mem_cons_self .., (Event.writes_updateRoute (k := t.keyIn key.space)
        (hproper.after_isAt hat)).1 hk⟩
    rcases List.mem_cons.1 he with rfl | he
    · cases hk
    · exact hlater (ih he)

/-- Only the registry document is written. -/
theorem documentKey? (h : Alters rollout change key d ts es d') (hd : d.IsAt key) {e : Event}
    (he : e ∈ es) {k : DocumentKey} (hk : e.request.documentKey? = some k) : k = key := by
  induction h with
  | nil => cases he
  | skip _ _ _ _ _ ih =>
    rcases List.mem_cons.1 he with rfl | he
    · cases hk
    · exact ih hd he
  | change _ _ _ _ _ ih =>
    rcases List.mem_cons.1 he with rfl | he
    · cases hk
    rcases List.mem_cons.1 he with rfl | he
    · cases hk
    rcases List.mem_cons.1 he with rfl | he
    · cases hk
      exact congrArg (DocumentKey.mk key.space) hd.name
    · exact ih ⟨hd.space, hd.name⟩ he

/-- The last document is the one that is stored in the end. -/
theorem lastDocument_eq (h : Alters rollout change key d ts es d') {d₀ : Document}
    (hd : d₀.withVersion none = d.withVersion none) :
    (lastDocument d₀ es).withVersion none = d'.withVersion none := by
  induction h generalizing d₀ with
  | nil => exact hd
  | skip _ _ _ _ _ ih => exact ih hd
  | change _ _ _ _ _ ih => exact ih rfl

/-- Until the route of a target is written, no document is stored with other positions for it. -/
theorem placedAs (h : Alters rollout change key d ts es d') {t : Target} {es₁ es₂ : List Event}
    (hsplit : es = es₁ ++ es₂) (hes₁ : ∀ e ∈ es₁, ¬ e.writes (t.keyIn key.space)) {e : Event}
    (he : e ∈ es₁) {stored : Document} (hstored : e.document? = some stored) :
    t.PlacedAs d stored := by
  induction h generalizing es₁ with
  | nil =>
    obtain ⟨rfl, -⟩ := List.append_eq_nil_iff.1 hsplit.symm
    cases he
  | skip _ _ _ _ _ ih =>
    cases es₁ with
    | nil => cases he
    | cons e₁ es₁ =>
      obtain ⟨rfl, rfl⟩ := List.cons.inj hsplit
      rcases List.mem_cons.1 he with rfl | he
      · cases hstored
      · exact ih rfl (fun e he => hes₁ e (List.mem_cons_of_mem _ he)) he
  | @change d _ t₁ _ _ _ _ _ _ _ _ routeChange v _ _ _ _ hat hload hon _ ih =>
    obtain ⟨rfl, -, hproper⟩ := proper_of_on hon key.space
    cases es₁ with
    | nil => cases he
    | cons e₁ es₁ =>
    obtain ⟨rfl, hsplit₁⟩ := List.cons.inj hsplit
    rcases List.mem_cons.1 he with rfl | he
    · cases hstored
    cases es₁ with
    | nil => cases he
    | cons e₂ es₁ =>
    obtain ⟨rfl, hsplit₂⟩ := List.cons.inj hsplit₁
    rcases List.mem_cons.1 he with rfl | he
    · cases hstored
    have hother : t₁.identity ≠ t.identity := fun hid => by
      refine hes₁ _ (List.mem_cons_of_mem _ (List.mem_cons_self ..))
        ((Event.writes_updateRoute (k := t₁.keyIn key.space) (hproper.after_isAt hat)).2 ?_)
      simp only [Target.identity, Prod.mk.injEq] at hid
      simp only [Target.keyIn, hid]
    have hplaced : t.PlacedAs d
        ((routeChange.registryAfter.store d t₁.kind.registryKey).withVersion v) := by
      intro m₁ hm₁
      rw [Cluster.load_withVersion] at hm₁
      exact load_of_documentAfter hother hload hon hm₁
    cases es₁ with
    | nil => cases he
    | cons e₃ es₁ =>
    obtain ⟨rfl, rfl⟩ := List.cons.inj hsplit₂
    rcases List.mem_cons.1 he with rfl | he
    · cases hstored
      exact hplaced
    · refine hplaced.trans (ih rfl (fun e he => hes₁ e ?_) he)
      exact List.mem_cons_of_mem _ (List.mem_cons_of_mem _ (List.mem_cons_of_mem _ he))

/-- The targets are changed one after the other, and so is the document. -/
theorem chain (h : Alters rollout change key d ts es d')
    (hnodup : (ts.map Target.identity).Nodup) :
    Chain rollout change (fun t _ route x => t.name ≠ "" ∧
      Treats (t.keyIn key.space) es route (x.map RouteChange.after)) (d.withVersion none) ts
      (d'.withVersion none) := by
  induction h with
  | nil => exact .nil
  | @skip d d' t ts es i route registry found hname hat hload hon hrest ih =>
    rw [List.map_cons, List.nodup_cons] at hnodup
    refine .cons ((Cluster.load_withVersion ..).trans hload) hon
      ⟨hname, @Treats.read (t.keyIn key.space) [] _ _ _ _ fun e he hk => ?_⟩
      ((ih hnodup.2).imp fun t' _ _ _ _ h => ⟨h.1, h.2.prepend [_] fun e he hk => ?_⟩)
    · obtain ⟨t', ht', hkey⟩ := hrest.writes he hk
      exact hnodup.1 (Target.keyIn_injective hkey ▸ List.mem_map_of_mem ht')
    · rw [List.mem_singleton.1 he] at hk
      cases hk
  | @change d d' t ts es _ _ _ _ _ _ routeChange _ _ _ _ hname hat hload hon hrest ih =>
    rw [List.map_cons, List.nodup_cons] at hnodup
    obtain ⟨hbefore, -, hproper⟩ := proper_of_on hon key.space
    have hafter := hproper.after_isAt (hbefore ▸ hat)
    refine .cons ((Cluster.load_withVersion ..).trans hload) hon
      ⟨hname, @Treats.write (t.keyIn key.space) [] _ _ _ _ _ _ _ _ (fun e he hk => ?_) hafter
        (hbefore ▸ hproper.version_after)⟩ ?_
    · rcases List.mem_cons.1 he with rfl | he
      · cases hk
      · obtain ⟨t', ht', hkey⟩ := hrest.writes he hk
        exact hnodup.1 (Target.keyIn_injective hkey ▸ List.mem_map_of_mem ht')
    · rw [← documentAfter_withVersion]
      refine (ih hnodup.2).imp fun t' ht' _ _ _ h =>
        ⟨h.1, h.2.prepend [_, _, _] fun e he hk => ?_⟩
      simp only [List.mem_cons, List.not_mem_nil, or_false] at he
      rcases he with rfl | rfl | rfl
      · cases hk
      · have hkey := (Event.writes_updateRoute (k := t.keyIn key.space) hafter).1 hk
        exact hnodup.1 (Target.keyIn_injective hkey ▸ List.mem_map_of_mem ht')
      · cases hk

end Alters

end CanaryRouting
