import CanaryRouting.Proofs.Agreement.Discipline
import CanaryRouting.Proofs.Cluster.Registry

/-!
# Open changes

While a change is half done, the stored route is ahead of the registry. Several callers can have
open changes of one route: each was made from the route that the one before it wrote, so they form
a stack (`Linked`) from rules that agree with the registry up to the stored rules.

Only the latest change can still be undone, and once the registry document has been written by one
caller, all others must undo theirs. So a caller whose route was overwritten and whose document is
out of date is lost (`Phase.Lost`): it will report that it could not undo its change, and nothing
can prevent that any more (`Phase.Lost.putRoute`, `Phase.Lost.putDocument`).
-/

namespace CanaryRouting

open Router

/-! ### Lost callers -/

/-- The caller has failed to undo its change, or is bound to: its route has been overwritten, and
its document is out of date or has been refused. -/
def Phase.Lost (key : DocumentKey) (c : Cluster) : Phase → Prop
  | .settled => False
  | .writing p => c.routeVersion p.key ≠ p.version ∧ c.documentVersion key ≠ p.base.version
  | .undoing p => c.routeVersion p.key ≠ p.version
  | .failed => True

/-- What is true of an open change. -/
structure Pending.Valid (p : Pending) (key : DocumentKey) (c : Cluster)
    (injected : RouteKey → String → Rule → Prop) : Prop where
  /-- It is in the namespace of the document. -/
  space : p.key.space = key.space
  /-- The route was read from the server. -/
  before : c.Saw p.key p.change.before
  /-- The document was read from the server. -/
  base : c.SawDocument key p.base
  /-- The document is where the positions come from. -/
  load : ManagedRoutes.load p.base p.key.kind.registryKey = .ok p.change.registryBefore
  /-- Rules and positions change together. -/
  proper : p.change.Proper p.key (injected p.key)
  /-- The version of the written route was given out. -/
  version : c.Issued p.version

section Valid

variable {p : Pending} {key : DocumentKey} {c : Cluster}
  {injected injected' : RouteKey → String → Rule → Prop}

theorem Pending.Valid.mono (h : p.Valid key c injected)
    (hsub : ∀ k name rule, injected k name rule → injected' k name rule) :
    p.Valid key c injected' :=
  { h with proper := h.proper.mono (hsub p.key) }

theorem Pending.Valid.putRoute (h : p.Valid key c injected) (k : RouteKey) (r : Route) :
    p.Valid key (c.putRoute k r) injected :=
  { h with
    before := h.before.putRoute r
    base := h.base.putRoute r
    version := h.version.mono (Nat.le_succ _) }

theorem Pending.Valid.putDocument (h : p.Valid key c injected) (k : DocumentKey) (d : Document) :
    p.Valid key (c.putDocument k d) injected :=
  { h with
    before := h.before.putDocument d
    base := h.base.putDocument d
    version := h.version.mono (Nat.le_succ _) }

theorem Pending.Valid.forward_isAt (h : p.Valid key c injected) : p.forward.IsAt key :=
  ⟨h.base.isAt.space, h.base.isAt.name⟩

theorem Pending.Valid.back_isAt (h : p.Valid key c injected) : p.back.IsAt p.key :=
  h.before.isAt.withVersion _

/-- Who is lost stays lost when a route is written. -/
theorem Phase.Lost.putRoute {phase : Phase} (h : phase.Lost key c)
    (hvalid : ∀ p, phase.pending? = some p → p.Valid key c injected) (k : RouteKey) (r : Route) :
    phase.Lost key (c.putRoute k r) := by
  cases phase with
  | settled => exact h
  | failed => trivial
  | writing p => exact ⟨Cluster.routeVersion_putRoute_ne (hvalid p rfl).version h.1 r, h.2⟩
  | undoing p => exact Cluster.routeVersion_putRoute_ne (hvalid p rfl).version h r

/-- Who is lost stays lost when the document is written. -/
theorem Phase.Lost.putDocument {phase : Phase} (h : phase.Lost key c)
    (hvalid : ∀ p, phase.pending? = some p → p.Valid key c injected) (d : Document) :
    phase.Lost key (c.putDocument key d) := by
  cases phase with
  | settled => exact h
  | failed => trivial
  | writing p =>
    refine ⟨h.1, ?_⟩
    rw [Cluster.documentVersion_putDocument_self]
    exact (hvalid p rfl).base.issued.ne_fresh.symm
  | undoing p => exact h

end Valid

/-! ### Stacks -/

/-- The changes lead from the first rules to the last, the latest change first; the backend
references do not matter. -/
def Linked : List Rule → List Pending → List Rule → Prop
  | first, [], last => first.map Rule.bare = last.map Rule.bare
  | first, p :: ps, last =>
    p.change.after.rules.map Rule.bare = last.map Rule.bare ∧
      Linked first ps p.change.before.rules

theorem Linked.of_bare {first last last' : List Rule} {ps : List Pending}
    (h : Linked first ps last) (hbare : last.map Rule.bare = last'.map Rule.bare) :
    Linked first ps last' := by
  cases ps with
  | nil => exact h.trans hbare
  | cons p ps => exact ⟨h.1.trans hbare, h.2⟩

/-- The earliest change was made from the first rules. -/
theorem Linked.of_append {first last : List Rule} {ps : List Pending} {p : Pending}
    (h : Linked first (ps ++ [p]) last) :
    first.map Rule.bare = p.change.before.rules.map Rule.bare ∧
      Linked p.change.after.rules ps last := by
  induction ps generalizing last with
  | nil => exact ⟨h.2, h.1⟩
  | cons q ps ih =>
    obtain ⟨hfirst, hrest⟩ := ih h.2
    exact ⟨hfirst, h.1, hrest⟩

/-- The callers with open changes of a route, the latest change first. All but the latest have been
overwritten. -/
structure IsStack (stack : List (Nat × Pending)) (k : RouteKey) (c : Cluster)
    (phases : Nat → Phase) : Prop where
  /-- The stack is made of the open changes of the route. -/
  mem_iff : ∀ i p, (i, p) ∈ stack ↔ (phases i).pending? = some p ∧ p.key = k
  /-- No change is in it twice. -/
  nodup : stack.Nodup
  /-- Only the latest can be what is stored. -/
  overwritten : ∀ e ∈ stack.tail, c.routeVersion k ≠ e.2.version

/-- The stored rules are ahead of the positions by a stack of open changes. -/
def Stacked (positions : Positions) (k : RouteKey) (c : Cluster) (phases : Nat → Phase)
    (injected : String → Rule → Prop) : Prop :=
  ∃ first stack, Layout.Sound ⟨positions, first⟩ injected ∧ IsStack stack k c phases ∧
    Linked first (stack.map Prod.snd) (c.rules k)

section Stacked

variable {stack : List (Nat × Pending)} {k : RouteKey} {c c' : Cluster} {phases phases' : Nat → Phase}
  {positions positions' : Positions} {injected injected' : String → Rule → Prop} {i : Nat}
  {phase : Phase}

/-- Only open changes of the route matter. -/
theorem IsStack.of_mem_iff (h : IsStack stack k c phases)
    (hpending : ∀ i p, p.key = k → ((phases' i).pending? = some p ↔ (phases i).pending? = some p))
    (hversion : ∀ e ∈ stack.tail, c'.routeVersion k ≠ e.2.version) : IsStack stack k c' phases' where
  mem_iff i p := by
    rw [h.mem_iff]
    constructor
    · rintro ⟨hp, hk⟩
      exact ⟨(hpending i p hk).2 hp, hk⟩
    · rintro ⟨hp, hk⟩
      exact ⟨(hpending i p hk).1 hp, hk⟩
  nodup := h.nodup
  overwritten := hversion

/-- A change is begun. -/
theorem IsStack.push {p : Pending} (h : IsStack stack k c phases) (hi : (phases i).pending? = none)
    (hphase : phase.pending? = some p) (hk : p.key = k)
    (hversion : ∀ e ∈ stack, c'.routeVersion k ≠ e.2.version) :
    IsStack ((i, p) :: stack) k c' (Function.update phases i phase) where
  mem_iff j q := by
    rw [List.mem_cons, h.mem_iff]
    by_cases e : j = i
    · subst e
      rw [Function.update_self, hi, hphase]
      constructor
      · rintro (he | ⟨he, -⟩)
        · cases he
          exact ⟨rfl, hk⟩
        · cases he
      · rintro ⟨he, -⟩
        cases he
        exact .inl rfl
    · rw [Function.update_of_ne e]
      exact ⟨fun h => h.resolve_left fun he => e (congrArg Prod.fst he), .inr⟩
  nodup := by
    refine List.nodup_cons.2 ⟨fun he => ?_, h.nodup⟩
    have hp := ((h.mem_iff i p).1 he).1
    rw [hi] at hp
    cases hp
  overwritten := hversion

/-- A change comes to its end, wherever it is in the stack. -/
theorem IsStack.erase {p : Pending} {rest : List (Nat × Pending)} (h : IsStack stack k c phases)
    (hperm : stack.Perm ((i, p) :: rest)) (hphase : phase.pending? = none)
    (hversion : ∀ e ∈ rest.tail, c'.routeVersion k ≠ e.2.version) :
    IsStack rest k c' (Function.update phases i phase) where
  mem_iff j q := by
    have hmem : ∀ j q, (j, q) = (i, p) ∨ (j, q) ∈ rest ↔
        (phases j).pending? = some q ∧ q.key = k := fun j q => by
      rw [← h.mem_iff, hperm.mem_iff, List.mem_cons]
    by_cases e : j = i
    · subst e
      rw [Function.update_self, hphase]
      refine ⟨fun hq => ?_, fun hq => nomatch hq.1⟩
      -- a caller has one open change at most, and that one was there once
      have hp := ((hmem j p).1 (.inl rfl)).1
      cases hp.symm.trans ((hmem j q).1 (.inr hq)).1
      exact absurd hq (List.nodup_cons.1 (hperm.nodup_iff.1 h.nodup)).1
    · rw [Function.update_of_ne e, ← hmem]
      exact ⟨.inr, fun h => h.resolve_left fun he => e (congrArg Prod.fst he)⟩
  nodup := (List.nodup_cons.1 (hperm.nodup_iff.1 h.nodup)).2
  overwritten := hversion

theorem IsStack.valid {key : DocumentKey} {injected : RouteKey → String → Rule → Prop}
    (h : IsStack stack k c phases)
    (hvalid : ∀ i p, (phases i).pending? = some p → p.Valid key c injected) {e : Nat × Pending}
    (he : e ∈ stack) : e.2.Valid key c injected :=
  hvalid e.1 e.2 ((h.mem_iff e.1 e.2).1 he).1

/-- Writing the route overwrites all open changes of it. -/
theorem IsStack.overwritten_putRoute {key : DocumentKey}
    {injected : RouteKey → String → Rule → Prop} (h : IsStack stack k c phases)
    (hvalid : ∀ i p, (phases i).pending? = some p → p.Valid key c injected) (r : Route)
    {e : Nat × Pending} (he : e ∈ stack) : (c.putRoute k r).routeVersion k ≠ e.2.version := by
  rw [Cluster.routeVersion_putRoute_self]
  exact (h.valid hvalid he).version.ne_fresh.symm

/-- What does not concern the route or its open changes does not concern the stack. -/
theorem Stacked.of_pending (h : Stacked positions k c phases injected)
    (hpending : ∀ i p, p.key = k → ((phases' i).pending? = some p ↔ (phases i).pending? = some p))
    (hroute : c'.routes.get? k = c.routes.get? k) : Stacked positions k c' phases' injected := by
  obtain ⟨first, stack, hsound, hstack, hlinked⟩ := h
  refine ⟨first, stack, hsound, hstack.of_mem_iff hpending fun e he => ?_, ?_⟩
  · rw [Cluster.routeVersion, hroute]
    exact hstack.overwritten e he
  · rwa [Cluster.rules, hroute]

/-- Without an open change the registry agrees with the stored rules. -/
theorem Stacked.sound (h : Stacked positions k c phases injected)
    (hnone : ∀ i, (phases i).pending? = none) : Layout.Sound ⟨positions, c.rules k⟩ injected := by
  obtain ⟨first, stack, hsound, hstack, hlinked⟩ := h
  have hnil : stack = [] := List.eq_nil_iff_forall_not_mem.2 fun e he => by
    have hp := ((hstack.mem_iff e.1 e.2).1 he).1
    rw [hnone] at hp
    cases hp
  subst hnil
  exact hsound.of_bare rfl hlinked.symm

theorem Stacked.mono (h : Stacked positions k c phases injected)
    (hsub : ∀ name rule, injected name rule → injected' name rule) :
    Stacked positions k c phases injected' :=
  let ⟨first, stack, hsound, hrest⟩ := h
  ⟨first, stack, hsound.mono hsub, hrest⟩

end Stacked

end CanaryRouting
