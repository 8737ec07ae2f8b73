import CanaryRouting.Proofs.Agreement.Stack

/-!
# Agreement is kept

The invariant of all runs, `Agreement`: unless some caller is lost, the stored rules of every route
are ahead of the registry by a stack of open changes. Each kind of request that the discipline
permits keeps it: weighing a route (`Agreement.weigh`), the route of a change
(`Agreement.change`), its document (`Agreement.record`), the earlier route again
(`Agreement.undo`), and the refusals of these.
-/

namespace CanaryRouting

open Router

/-- The registry and the routes agree, apart from open changes, or some caller is lost. -/
structure Agreement (key : DocumentKey) (c : Cluster) (phases : Nat → Phase)
    (injected : RouteKey → String → Rule → Prop) : Prop where
  /-- The cluster is well formed. -/
  wellFormed : c.WellFormed
  /-- The open changes are valid. -/
  valid : ∀ i p, (phases i).pending? = some p → p.Valid key c injected
  /-- The stored rules are ahead of the registry by the open changes. -/
  stacked : (∃ i, (phases i).Lost key c) ∨
    ∀ kind m, c.registry key kind = .ok m → ∀ name,
      Stacked (m.positions name) ⟨kind, key.space, name⟩ c phases (injected ⟨kind, key.space, name⟩)

namespace Agreement

variable {key : DocumentKey} {c : Cluster} {phases : Nat → Phase}
  {injected injected' : RouteKey → String → Rule → Prop} {i : Nat} {p : Pending}

/-- Without an open change, and unless a caller is lost, the registry agrees with the routes. -/
theorem agrees (h : Agreement key c phases injected) (hphases : ∀ i, phases i = .settled) :
    c.Agrees key injected := by
  intro kind m hm name
  rcases h.stacked with ⟨i, hi⟩ | hstacked
  · rw [hphases i] at hi
    exact hi.elim
  · exact (hstacked kind m hm name).sound fun i => by rw [hphases i]; rfl

/-- At the beginning nothing is half done. -/
theorem of_agrees (hc : c.WellFormed) (h : c.Agrees key injected) :
    Agreement key c (fun _ => .settled) injected where
  wellFormed := hc
  valid _ _ hp := nomatch hp
  stacked := .inr fun kind m hm name =>
    ⟨_, [], h kind m hm name, ⟨fun _ _ => ⟨(nomatch ·), fun h => by cases h.1⟩, .nil,
      fun _ he => by cases he⟩, rfl⟩

theorem mono (h : Agreement key c phases injected)
    (hsub : ∀ k name rule, injected k name rule → injected' k name rule) :
    Agreement key c phases injected' where
  wellFormed := h.wellFormed
  valid i p hp := (h.valid i p hp).mono hsub
  stacked := h.stacked.imp id fun hs kind m hm name => (hs kind m hm name).mono (hsub _)

/-! ### Phases -/

theorem pending_update {phase : Phase} {j : Nat} {q : Pending}
    (h : (Function.update phases i phase j).pending? = some q) :
    j = i ∧ phase.pending? = some q ∨ j ≠ i ∧ (phases j).pending? = some q := by
  by_cases e : j = i
  · subst e
    rw [Function.update_self] at h
    exact .inl ⟨rfl, h⟩
  · rw [Function.update_of_ne e] at h
    exact .inr ⟨e, h⟩

/-- A caller that begins or ends a change affects one route. -/
theorem pending_update_of_key_ne {k : RouteKey} {phase : Phase}
    (hbefore : ∀ q, (phases i).pending? = some q → q.key ≠ k)
    (hafter : ∀ q, phase.pending? = some q → q.key ≠ k) (j : Nat) (q : Pending) (hq : q.key = k) :
    (Function.update phases i phase j).pending? = some q ↔ (phases j).pending? = some q := by
  by_cases e : j = i
  · subst e
    rw [Function.update_self]
    exact ⟨fun h => absurd hq (hafter q h), fun h => absurd hq (hbefore q h)⟩
  · rw [Function.update_of_ne e]

/-- A caller that ends its change affects one route. -/
theorem pending_update_settled {k : RouteKey} (hp : (phases i).pending? = some p) (hk : p.key ≠ k)
    (j : Nat) (q : Pending) (hq : q.key = k) :
    (Function.update phases i .settled j).pending? = some q ↔ (phases j).pending? = some q :=
  pending_update_of_key_ne (fun _ h => by rw [hp] at h; cases h; exact hk) (fun _ h => by cases h)
    j q hq

/-- A change of phase that leaves the change open. -/
theorem pending_update_of_eq {phase : Phase} (h : phase.pending? = (phases i).pending?) (j : Nat) :
    (Function.update phases i phase j).pending? = (phases j).pending? := by
  by_cases e : j = i
  · subst e
    rw [Function.update_self, h]
  · rw [Function.update_of_ne e]

/-! ### Routes -/

/-- Writing a route does not concern the others. -/
theorem stacked_putRoute_of_ne {positions : Positions} {k k' : RouteKey} {phases' : Nat → Phase}
    {injected : String → Rule → Prop} (h : Stacked positions k' c phases injected) (hk : k' ≠ k)
    (hpending : ∀ i p, p.key = k' → ((phases' i).pending? = some p ↔ (phases i).pending? = some p))
    (r : Route) : Stacked positions k' (c.putRoute k r) phases' injected :=
  h.of_pending hpending (Cluster.get?_putRoute_of_ne hk r)

/-- A route is written in the shape in which it is stored. -/
theorem weigh (h : Agreement key c phases injected) {k : RouteKey} {r r' : Route}
    (hr : c.routes.get? k = some r) (hat : r'.IsAt k)
    (hbare : r'.rules.map Rule.bare = r.rules.map Rule.bare) :
    Agreement key (c.putRoute k r') phases injected where
  wellFormed := h.wellFormed.putRoute hat
  valid i p hp := (h.valid i p hp).putRoute k r'
  stacked := by
    rcases h.stacked with ⟨i, hi⟩ | hstacked
    · exact .inl ⟨i, hi.putRoute (h.valid i) k r'⟩
    · refine .inr fun kind m hm name => ?_
      have hs := hstacked kind m hm name
      by_cases hk : ⟨kind, key.space, name⟩ = k
      · subst hk
        obtain ⟨first, stack, hsound, hstack, hlinked⟩ := hs
        have hrules : c.rules ⟨kind, key.space, name⟩ = r.rules := by rw [Cluster.rules, hr]; rfl
        refine ⟨first, stack, hsound, hstack.of_mem_iff (fun _ _ _ => Iff.rfl) fun e he =>
          hstack.overwritten_putRoute h.valid r' (List.mem_of_mem_tail he), ?_⟩
        rw [Cluster.rules_putRoute_self]
        exact hlinked.of_bare (hrules ▸ hbare.symm)
      · exact stacked_putRoute_of_ne hs hk (fun _ _ _ => Iff.rfl) r'

/-- The route of a change is written. -/
theorem change (h : Agreement key c phases injected) (hi : phases i = .settled)
    (hspace : p.key.space = key.space) (hr : c.routes.get? p.key = some p.change.before)
    (hbase : c.SawDocument key p.base)
    (hload : ManagedRoutes.load p.base p.key.kind.registryKey = .ok p.change.registryBefore)
    (hproper : p.change.Proper p.key (injected p.key)) (hversion : p.version = c.fresh) :
    Agreement key (c.putRoute p.key p.change.after) (Function.update phases i (.writing p))
      injected where
  wellFormed := h.wellFormed.putRoute (hproper.after_isAt (h.wellFormed.route_isAt hr))
  valid j q hq := by
    rcases pending_update hq with ⟨-, hq⟩ | ⟨-, hq⟩
    · cases hq
      exact ⟨hspace, (h.wellFormed.saw hr).putRoute _, hbase.putRoute _, hload, hproper,
        hversion ▸ Cluster.issued_fresh_putRoute _ _⟩
    · exact (h.valid j q hq).putRoute _ _
  stacked := by
    rcases h.stacked with ⟨j, hj⟩ | hstacked
    · have hne : j ≠ i := fun e => by rw [e, hi] at hj; exact hj
      refine .inl ⟨j, ?_⟩
      rw [Function.update_of_ne hne]
      exact hj.putRoute (h.valid j) _ _
    · refine .inr fun kind m hm name => ?_
      have hs := hstacked kind m hm name
      by_cases hk : ⟨kind, key.space, name⟩ = p.key
      · obtain ⟨first, stack, hsound, hstack, hlinked⟩ := hs
        rw [hk] at hsound hstack hlinked ⊢
        have hrules : c.rules p.key = p.change.before.rules := by rw [Cluster.rules, hr]; rfl
        refine ⟨first, (i, p) :: stack, hsound, hstack.push (by rw [hi]; rfl) rfl rfl fun e he =>
          hstack.overwritten_putRoute h.valid _ he, ?_, hrules ▸ hlinked⟩
        rw [Cluster.rules_putRoute_self]
      · exact stacked_putRoute_of_ne hs hk (pending_update_of_key_ne
          (fun _ hq => by rw [hi] at hq; cases hq) fun _ hq => by cases hq; exact Ne.symm hk) _

/-- The earlier route is written again. -/
theorem undo (h : Agreement key c phases injected) (hi : phases i = .undoing p)
    {x : Route} (hx : c.routes.get? p.key = some x) (hversion : x.version = p.version) :
    Agreement key (c.putRoute p.key p.back) (Function.update phases i .settled) injected := by
  have hpending : (phases i).pending? = some p := by rw [hi]; rfl
  have hstored : c.routeVersion p.key = p.version := by rw [Cluster.routeVersion, hx]; exact hversion
  refine ⟨h.wellFormed.putRoute (h.valid i p hpending).back_isAt, fun j q hq => ?_, ?_⟩
  · rcases pending_update hq with ⟨-, hq⟩ | ⟨-, hq⟩
    · cases hq
    · exact (h.valid j q hq).putRoute _ _
  rcases h.stacked with ⟨j, hj⟩ | hstacked
  · have hne : j ≠ i := fun e => by rw [e, hi] at hj; exact hj hstored
    refine .inl ⟨j, ?_⟩
    rw [Function.update_of_ne hne]
    exact hj.putRoute (h.valid j) _ _
  · refine .inr fun kind m hm name => ?_
    have hs := hstacked kind m hm name
    by_cases hk : ⟨kind, key.space, name⟩ = p.key
    · obtain ⟨first, stack, hsound, hstack, hlinked⟩ := hs
      rw [hk] at hsound hstack hlinked ⊢
      -- the change has not been overwritten, so it is the latest
      have hmem : (i, p) ∈ stack := (hstack.mem_iff i p).2 ⟨hpending, rfl⟩
      cases stack with
      | nil => cases hmem
      | cons e rest =>
        have he : e = (i, p) := by
          rcases List.mem_cons.1 hmem with he | he
          · exact he.symm
          · exact absurd hstored (hstack.overwritten _ he)
        subst he
        refine ⟨first, rest, hsound, hstack.erase (.refl _) rfl fun e he => ?_, ?_⟩
        · exact hstack.overwritten_putRoute h.valid _
            (List.mem_cons_of_mem _ (List.mem_of_mem_tail he))
        · rw [Cluster.rules_putRoute_self]
          exact hlinked.2
    · exact stacked_putRoute_of_ne hs hk (pending_update_settled hpending fun e => hk e.symm) _

/-! ### Documents -/

/-- When nobody is lost once the document has been written, the change that it was written for was
the earliest of its stack: all above it would be lost, except the latest of all. -/
theorem eq_append_of_not_lost {stack : List (Nat × Pending)}
    (h : Agreement key c phases injected) (hi : phases i = .writing p)
    (hstack : IsStack stack p.key c phases) {d : Document}
    (hlost : ∀ j, ¬ (Function.update phases i .settled j).Lost key (c.putDocument key d)) :
    ∃ later, stack = later ++ [(i, p)] := by
  have hmem : (i, p) ∈ stack := (hstack.mem_iff i p).2 ⟨by rw [hi]; rfl, rfl⟩
  have htail : ∀ e ∈ stack.tail, e = (i, p) := by
    rintro ⟨j, q⟩ he
    obtain ⟨hq, hk⟩ := (hstack.mem_iff j q).1 (List.mem_of_mem_tail he)
    by_cases hj : j = i
    · subst hj
      rw [hi] at hq
      cases hq
      rfl
    · have hroute : c.routeVersion q.key ≠ q.version := hk ▸ hstack.overwritten _ he
      refine absurd ?_ (hlost j)
      rw [Function.update_of_ne hj]
      cases hphase : phases j with
      | settled => rw [hphase] at hq; cases hq
      | failed => rw [hphase] at hq; cases hq
      | undoing q' => rw [hphase] at hq; cases hq; exact hroute
      | writing q' =>
        rw [hphase] at hq
        cases hq
        refine ⟨hroute, ?_⟩
        rw [Cluster.documentVersion_putDocument_self]
        exact (h.valid j q (by rw [hphase]; rfl)).base.issued.ne_fresh.symm
  cases stack with
  | nil => cases hmem
  | cons e rest =>
    cases rest with
    | nil => exact ⟨[], by rw [List.mem_singleton.1 hmem]; rfl⟩
    | cons e' rest =>
      have he' := htail e' (List.mem_cons_self ..)
      have hnil : rest = [] := List.eq_nil_iff_forall_not_mem.2 fun e'' he'' => by
        have := htail e'' (List.mem_cons_of_mem _ he'')
        exact (List.nodup_cons.1 (List.nodup_cons.1 hstack.nodup).2).1 (he' ▸ this ▸ he'')
      exact ⟨[e], by rw [he', hnil]; rfl⟩

/-- The earliest change of a stack ends when its document is written. -/
theorem stacked_record {positions : Positions} (h : Agreement key c phases injected)
    (hi : phases i = .writing p) {d : Document}
    (hlost : ∀ j, ¬ (Function.update phases i .settled j).Lost key (c.putDocument key d))
    (hs : Stacked (p.change.registryBefore.positions p.key.name) p.key c phases (injected p.key))
    (hpositions : p.change.registryAfter.positions p.key.name = positions) :
    Stacked positions p.key (c.putDocument key d) (Function.update phases i .settled)
      (injected p.key) := by
  obtain ⟨first, stack, hsound, hstack, hlinked⟩ := hs
  obtain ⟨later, rfl⟩ := h.eq_append_of_not_lost hi hstack hlost
  have hpending : (phases i).pending? = some p := by rw [hi]; rfl
  rw [List.map_append] at hlinked
  obtain ⟨hfirst, hlater⟩ := hlinked.of_append
  refine ⟨p.change.after.rules, later, ?_,
    hstack.erase (List.perm_append_singleton _ _) rfl fun e he => ?_, hlater⟩
  · have hbefore : Layout.Sound ⟨p.change.registryBefore.positions p.key.name,
        p.change.before.rules⟩ (injected p.key) := hsound.of_bare rfl hfirst.symm
    exact hpositions ▸
      hbefore.of_edits (h.valid i p hpending).proper.edits fun _ _ hadd => hadd
  · cases later with
    | nil => cases he
    | cons e' later => exact hstack.overwritten e (List.mem_append_left _ he)

/-- The document of a change is written. -/
theorem record (h : Agreement key c phases injected) (hi : phases i = .writing p) {x : Document}
    (hx : c.documents.get? key = some x) (hversion : x.version = p.base.version) :
    Agreement key (c.putDocument key p.forward) (Function.update phases i .settled) injected := by
  have hpending : (phases i).pending? = some p := by rw [hi]; rfl
  have hvalid := h.valid i p hpending
  have hbase : c.documents.get? key = some p.base := hvalid.base.eq hx hversion ▸ hx
  refine ⟨h.wellFormed.putDocument hvalid.forward_isAt, fun j q hq => ?_, ?_⟩
  · rcases pending_update hq with ⟨-, hq⟩ | ⟨-, hq⟩
    · cases hq
    · exact (h.valid j q hq).putDocument _ _
  by_cases hlost : ∃ j, (Function.update phases i .settled j).Lost key (c.putDocument key p.forward)
  · exact .inl hlost
  have hlost' := not_exists.1 hlost
  rcases h.stacked with ⟨j, hj⟩ | hstacked
  · have hne : j ≠ i := fun e => by
      rw [e, hi] at hj
      exact hj.2 (by rw [Cluster.documentVersion, hx]; exact hversion)
    refine absurd (hj.putDocument (h.valid j) p.forward) ?_
    have := hlost' j
    rwa [Function.update_of_ne hne] at this
  refine .inr fun kind m hm name => ?_
  by_cases hkind : kind = p.key.kind
  · have hload : c.registry key kind = .ok p.change.registryBefore := by
      rw [Cluster.registry_of_get? hbase, hkind]
      exact hvalid.load
    have hs := hstacked kind _ hload name
    rw [Cluster.registry_putDocument_self, hkind] at hm
    have hafter : m = p.change.registryAfter := ManagedRoutes.eq_of_load_store hm
    by_cases hname : name = p.key.name
    · have hk : p.key = ⟨kind, key.space, name⟩ := by rw [hkind, hname, ← hvalid.space]
      rw [hname, ← hname, ← hk] at hs
      rw [← hk]
      exact h.stacked_record hi hlost' (hname ▸ hs) (by rw [hafter, hname])
    · have hne : p.key ≠ ⟨kind, key.space, name⟩ := fun e => hname (by rw [e])
      rw [hafter, hvalid.proper.others name hname]
      exact hs.of_pending (pending_update_settled hpending hne) rfl
  · have hne : p.key ≠ ⟨kind, key.space, name⟩ := fun e => hkind (by rw [e])
    have hm' : c.registry key kind = .ok m :=
      (Cluster.registry_putDocument_store hbase hkind p.change.registryAfter).symm.trans hm
    exact (hstacked kind m hm' name).of_pending (pending_update_settled hpending hne) rfl

/-- A document is created where there is none. -/
theorem create (h : Agreement key c phases injected) (hnone : c.documents.get? key = none) :
    Agreement key (c.putDocument key (Cluster.created key)) phases injected where
  wellFormed := h.wellFormed.putDocument (Cluster.created_isAt key)
  valid i p hp := (h.valid i p hp).putDocument _ _
  stacked := by
    rcases h.stacked with ⟨i, hi⟩ | hstacked
    · exact .inl ⟨i, hi.putDocument (h.valid i) _⟩
    · refine .inr fun kind m hm name => ?_
      have hm' : c.registry key kind = .ok m := by
        rw [Cluster.registry_putDocument_self, Cluster.load_created] at hm
        rw [Cluster.registry, hnone]
        exact hm
      exact (hstacked kind m hm' name).of_pending (fun _ _ _ => Iff.rfl) rfl

/-! ### Refusals -/

/-- The document of a change is refused. -/
theorem refuse (h : Agreement key c phases injected) (hi : phases i = .writing p) :
    Agreement key c (Function.update phases i (.undoing p)) injected := by
  have hpending : ∀ j, (Function.update phases i (.undoing p) j).pending? = (phases j).pending? :=
    pending_update_of_eq (by rw [hi]; rfl)
  refine ⟨h.wellFormed, fun j q hq => h.valid j q (hpending j ▸ hq), ?_⟩
  rcases h.stacked with ⟨j, hj⟩ | hstacked
  · refine .inl ⟨j, ?_⟩
    by_cases e : j = i
    · subst e
      rw [hi] at hj
      rw [Function.update_self]
      exact hj.1
    · rwa [Function.update_of_ne e]
  · exact .inr fun kind m hm name =>
      (hstacked kind m hm name).of_pending (fun j q _ => by rw [hpending]) rfl

/-- The earlier route is refused. -/
theorem fail (h : Agreement key c phases injected) :
    Agreement key c (Function.update phases i .failed) injected where
  wellFormed := h.wellFormed
  valid j q hq := by
    rcases pending_update hq with ⟨-, hq⟩ | ⟨-, hq⟩
    · cases hq
    · exact h.valid j q hq
  stacked := .inl ⟨i, by rw [Function.update_self]; trivial⟩

end Agreement

end CanaryRouting
