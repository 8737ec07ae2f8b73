import CanaryRouting.Proofs.Atomicity.Split
import CanaryRouting.Proofs.Removal.Names
import CanaryRouting.Proofs.Router.Weighing
import CanaryRouting.Router.Traffic

/-!
# What calls can make of a registry

Calls follow one another, and of each some requests may fail (`Cluster.Reachable`). As long as none
reports that it left a change half done, every managed route in the registry has a position, and the
positions are those of rules (`Cluster.Reachable.orderly`).
-/

namespace CanaryRouting

open Router

/-- For every kind of route a document has managed routes without empty entries, the positions of
which are those of rules, no two of the same. -/
def Document.Orderly (d : Document) (space : String) (rules : RouteKey → List Rule) : Prop :=
  ∀ kind : RouteKind, ∃ m : ManagedRoutes, m.KeptIn d kind.registryKey ∧ m.Tight ∧
    ∀ name, Layout.Sound ⟨m.positions name, rules ⟨kind, space, name⟩⟩ fun _ _ => True

/-- The cluster is well formed, and so is what its registry document says. -/
structure Cluster.Orderly (key : DocumentKey) (c : Cluster) : Prop where
  /-- The cluster is well formed. -/
  wellFormed : c.WellFormed
  /-- The document says something about the rules that there are. -/
  document : (c.document key).Orderly key.space c.rules

/-- The clusters that calls reach from one in which nothing is recorded, unless a call reports that
it could not undo a change. -/
inductive Cluster.Reachable (key : DocumentKey) : Cluster → Prop where
  /-- Nothing is recorded. -/
  | start {c : Cluster} : c.WellFormed → (∀ kind, c.registry key kind = .ok .empty) →
    Reachable key c
  /-- A call works with the registry document; some of its requests may fail. -/
  | call {s : FaultyCluster} {o : Order} : Reachable key s.cluster → o.WorksOn key →
    Order.Result.isInconsistent ((perform o.rollout o.operation).runOn s).1 = false →
    Reachable key ((perform o.rollout o.operation).runOn s).2.cluster

/-! ### Changes of header routes -/

/-- A change leaves no empty entries. -/
theorem tight_of_on {rollout : Rollout} {change : HeaderChange} {t : Target}
    {registry : ManagedRoutes} {route : Route} {x : Option RouteChange}
    (h : change.on rollout t registry route = .ok x) (htight : registry.Tight) :
    (registryAfter registry x).Tight := by
  cases change with
  | set name headers =>
    obtain ⟨_, _, _, rfl⟩ := HeaderChange.on_set_eq_ok.1 h
    exact htight.record _ _ _
  | remove names =>
    obtain ⟨removal, hfold, rfl⟩ := HeaderChange.on_remove_eq_ok.1 h
    split
    · exact tight_of_removal htight hfold
    · exact htight

theorem Document.Orderly.documentAfter {d : Document} {space : String}
    {rules : RouteKey → List Rule} (h : d.Orderly space rules) {rollout : Rollout}
    {change : HeaderChange} {t : Target} {registry : ManagedRoutes} {route : Route}
    {x : Option RouteChange} (hload : ManagedRoutes.load d t.kind.registryKey = .ok registry)
    (hon : change.on rollout t registry route = .ok x) (hrules : rules (t.keyIn space) = route.rules) :
    (documentAfter d t.kind x).Orderly space
      (Function.update rules (t.keyIn space) (routeAfter route x).rules) := by
  have htight := tight_of_on hon
  cases x with
  | none =>
    change d.Orderly space (Function.update rules (t.keyIn space) route.rules)
    rw [← hrules, Function.update_eq_self]
    exact h
  | some routeChange =>
    obtain ⟨rfl, rfl, hproper⟩ := proper_of_on hon space
    intro kind
    obtain ⟨m, hkept, hm, hsound⟩ := h kind
    by_cases hkind : kind = t.kind
    · subst hkind
      have hregistry := hkept.eq_of_load hload
      subst hregistry
      refine ⟨routeChange.registryAfter, ManagedRoutes.keptIn_store _ _ _, htight hm, fun name => ?_⟩
      by_cases hname : name = t.name
      · subst hname
        have hstart := hsound t.name
        rw [show (⟨t.kind, space, t.name⟩ : RouteKey) = t.keyIn space from rfl] at hstart ⊢
        rw [Function.update_self]
        rw [hrules] at hstart
        exact hstart.of_edits hproper.edits fun _ _ _ => trivial
      · have hne : (⟨t.kind, space, name⟩ : RouteKey) ≠ t.keyIn space :=
          fun e => hname (congrArg RouteKey.name e)
        rw [Function.update_of_ne hne, hproper.others name hname]
        exact hsound name
    · refine ⟨m, hkept.store_of_ne (fun e => hkind (RouteKind.registryKey_injective e)) _, hm,
        fun name => ?_⟩
      have hne : (⟨kind, space, name⟩ : RouteKey) ≠ t.keyIn space :=
        fun e => hkind (congrArg RouteKey.kind e)
      rw [Function.update_of_ne hne]
      exact hsound name

/-- A list of changes, of one target after the other. -/
theorem Carried.orderly {rollout : Rollout} {change : HeaderChange} {space : String}
    {c c' : Cluster} {d d' : Document} {ts : List Target}
    (h : Carried rollout change space c c' d ts d') (hnodup : (ts.map Target.identity).Nodup)
    {rules : RouteKey → List Rule} (hd : d.Orderly space rules)
    (hbefore : ∀ t ∈ ts, rules (t.keyIn space) = c.rules (t.keyIn space))
    {rules' : RouteKey → List Rule}
    (hafter : ∀ t ∈ ts, rules' (t.keyIn space) = c'.rules (t.keyIn space))
    (hothers : ∀ k, (∀ t ∈ ts, t.keyIn space ≠ k) → rules' k = rules k) :
    d'.Orderly space rules' := by
  induction h generalizing rules with
  | nil =>
    have : rules' = rules := funext fun k => hothers k fun _ ht => nomatch ht
    rwa [this]
  | @cons d d' t ts route registry x hr hload hon hholds _ ih =>
    rw [List.map_cons, List.nodup_cons] at hnodup
    have hne : ∀ t' ∈ ts, t'.keyIn space ≠ t.keyIn space := fun t' ht' =>
      Target.keyIn_ne fun e => hnodup.1 (e ▸ List.mem_map_of_mem ht')
    have hroute : rules (t.keyIn space) = route.rules := by
      rw [hbefore t (List.mem_cons_self ..), Cluster.rules, hr]
      rfl
    refine ih hnodup.2 (hd.documentAfter hload hon hroute) (fun t' ht' => ?_)
      (fun t' ht' => hafter t' (List.mem_cons_of_mem _ ht')) fun k hk => ?_
    · rw [Function.update_of_ne (hne t' ht')]
      exact hbefore t' (List.mem_cons_of_mem _ ht')
    · by_cases hkey : k = t.keyIn space
      · subst hkey
        rw [Function.update_self, hafter t (List.mem_cons_self ..), hholds.rules_eq]
      · rw [Function.update_of_ne hkey]
        refine hothers k fun t' ht' => ?_
        rcases List.mem_cons.1 ht' with rfl | hmem
        · exact Ne.symm hkey
        · exact hk t' hmem

/-- An operation on header routes that does not report a change left half done. -/
theorem Cluster.Orderly.of_progress {key : DocumentKey} {c c' : Cluster} (h : c.Orderly key)
    {rollout : Rollout} {change : HeaderChange} {failure : Option RoutingError}
    {done rest : List Target} {failing : Option Target}
    (hprogress : Progress rollout change key c c' failure done failing rest)
    (hconsistent : ∀ e ∈ failure, e.isInconsistent = false)
    (hnodup : (done.map Target.identity).Nodup) : c'.Orderly key where
  wellFormed := hprogress.wellFormed
  document := by
    refine hprogress.carried.orderly hnodup h.document (fun _ _ => rfl) (fun _ _ => rfl)
      fun k hk => ?_
    by_cases hfailing : ∃ t ∈ failing, t.keyIn key.space = k
    · obtain ⟨t, ht, rfl⟩ := hfailing
      obtain ⟨e, he, hstopped⟩ := hprogress.stopped t ht
      have hsame := hstopped.restored (hconsistent e he)
      simp only [Cluster.rules]
      cases hr : c.routes.get? (t.keyIn key.space) with
      | none =>
        rw [hr, Option.map_none, Option.map_eq_none_iff] at hsame
        rw [hsame]
      | some r =>
        rw [hr, Option.map_some, Option.map_eq_some_iff] at hsame
        obtain ⟨r', hr', heq⟩ := hsame
        rw [hr']
        exact Route.rules_eq_of_unversioned heq
    · have hsame := hprogress.routes k fun t ht => ?_
      · simp only [Cluster.rules, hsame]
      · rcases List.mem_append.1 ht with hdone | hf
        · exact hk t hdone
        · exact fun e => hfailing ⟨t, by simpa using hf, e⟩

/-! ### Calls -/

theorem Cluster.Orderly.of_reshaped {key : DocumentKey} {c c' : Cluster} (h : c.Orderly key)
    (hreshaped : c.Reshaped c') : c'.Orderly key where
  wellFormed := hreshaped.wellFormed
  document := by
    intro kind
    obtain ⟨m, hkept, hm, hsound⟩ := h.document kind
    refine ⟨m, ?_, hm, fun name => (hsound name).of_bare rfl (hreshaped.bare _)⟩
    rwa [Cluster.document, hreshaped.documents]

theorem Cluster.Reachable.orderly {key : DocumentKey} {c : Cluster} (h : c.Reachable key) :
    c.Orderly key := by
  induction h with
  | @start c hc hempty =>
    refine ⟨hc, fun kind => ⟨.empty, .inl ?_, ManagedRoutes.tight_empty, fun name =>
      ⟨(nomatch ·), (nomatch ·)⟩⟩⟩
    rw [← Cluster.registry_eq_load]
    exact hempty kind
  | @call s o _ hworks hconsistent ih =>
    cases hop : o.operation.headerChange? o.rollout with
    | none => exact ih.of_reshaped (reshapes_perform hop s ih.wellFormed)
    | some change? =>
      obtain ⟨hcluster, hresolved⟩ := runOn_resolve o.rollout s
      rcases hresolve : (resolve o.rollout).runOn s with ⟨x, s₁⟩
      rw [hresolve] at hcluster hresolved
      simp only at hcluster
      cases x with
      | error e =>
        rw [perform_headerChange hop, Call.runOn_bind_error hresolve, hcluster]
        exact ih
      | ok plan =>
        have hplan := hresolved plan rfl
        cases change? with
        | error e =>
          rw [perform_headerChange hop, Call.runOn_bind_ok hresolve,
            Call.runOn_bind_error (Call.runOn_ofExcept _ _), hcluster]
          exact ih
        | ok change =>
          have hnodup := nodup_headerTargets hplan
          obtain ⟨done, failing, rest, hsplit, hprogress, -⟩ :=
            progress_changeTargets (hcluster ▸ ih.wellFormed) o.rollout change hnodup
          obtain ⟨hspace, hdocument⟩ := hworks plan.settings hplan.settings
          rw [hplan.space, hplan.document, hspace, hdocument, hcluster] at hprogress
          rw [runOn_perform hop hresolve] at hconsistent ⊢
          refine ih.of_progress hprogress (fun e he => ?_) ?_
          · cases hx : ((changeTargets o.rollout plan change).runOn s₁).1 with
            | ok _ => rw [hx] at he; cases he
            | error e' =>
              rw [hx] at he hconsistent
              cases he
              exact hconsistent
          · rw [hsplit, List.append_assoc, List.map_append] at hnodup
            exact (List.nodup_append.1 hnodup).1

end CanaryRouting
