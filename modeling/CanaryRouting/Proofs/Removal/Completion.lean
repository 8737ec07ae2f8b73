import CanaryRouting.Proofs.Removal.Reachable
import CanaryRouting.Proofs.Router.Undisturbed

/-!
# When a removal can be completed

A removal without failures goes through exactly if, at every target's turn, each name that is still
recorded for some route of the target's kind is recorded for the target (`removal_goes_through_iff`);
then the
names are gone from every target, and so are exactly the rules that they recorded. That is not
always so: if a removal stops after its first target, the name is still recorded for the second one,
and every later removal fails at the first (`removal_stuck`).
-/

namespace CanaryRouting

open Router

/-- No route has more rules than there are positions that fit into 64 bits. -/
def Cluster.Addressable (c : Cluster) : Prop := ∀ k, (c.rules k).length ≤ 2 ^ 64

/-- At every target's turn each name that is recorded for a route, other than the earlier targets,
is recorded for the target, and if it is given twice for no other route. -/
def Completable (m : RouteKind → ManagedRoutes) (names : List String) (targets : List Target) :
    Prop :=
  ∀ before t after, targets = before ++ t :: after → ∀ name ∈ names, ∀ route,
    (m t.kind).Records name route → (∀ t' ∈ before, t'.identity ≠ (t.kind, route)) →
      (m t.kind).Records name t.name ∧ (names.count name = 1 ∨ route = t.name)

/-- The first target, and then the others, with the names gone from the first. -/
theorem completable_cons_iff {m m' : RouteKind → ManagedRoutes} {names : List String} {t : Target}
    {ts : List Target} (hnew : t.identity ∉ ts.map Target.identity)
    (hrecords : ∀ kind name route, (m' kind).Records name route ↔
      (m kind).Records name route ∧ ¬ (name ∈ names ∧ (kind, route) = t.identity)) :
    Completable m names (t :: ts) ↔
      Removable (m t.kind) names t.name ∧ Completable m' names ts := by
  constructor
  · refine fun h => ⟨fun name hn x hx => h [] t ts rfl name hn x hx fun _ ht => (nomatch ht), ?_⟩
    rintro before t' after rfl name hn x hx hbefore
    obtain ⟨hold, hne⟩ := (hrecords _ _ _).1 hx
    obtain ⟨hroute, hcount⟩ := h (t :: before) t' after rfl name hn x hold fun t'' ht'' => by
      rcases List.mem_cons.1 ht'' with rfl | hmem
      · exact fun e => hne ⟨hn, e.symm⟩
      · exact hbefore t'' hmem
    refine ⟨(hrecords _ _ _).2 ⟨hroute, fun e => hnew ?_⟩, hcount⟩
    exact List.mem_map.2 ⟨t', by simp, e.2⟩
  · rintro ⟨hfirst, hrest⟩ before t' after hsplit name hn x hx hbefore
    rcases before with _ | ⟨t₀, before⟩
    · obtain ⟨rfl, rfl⟩ := List.cons.inj hsplit
      exact hfirst name hn x hx
    · obtain ⟨rfl, rfl⟩ := List.cons.inj hsplit
      have hx' := (hrecords t'.kind name x).2
        ⟨hx, fun e => hbefore t (List.mem_cons_self ..) e.2.symm⟩
      obtain ⟨hroute, hcount⟩ := hrest before t' after rfl name hn x hx' fun t'' ht'' =>
        hbefore t'' (List.mem_cons_of_mem _ ht'')
      exact ⟨((hrecords _ _ _).1 hroute).1, hcount⟩

/-! ### One target -/

theorem ok_on_remove_iff {names : List String} {rollout : Rollout} {t : Target}
    {registry : ManagedRoutes} {route : Route}
    (h : Removal.Valid t.name { registry, rules := route.rules }) :
    (∃ x, (HeaderChange.remove names).on rollout t registry route = .ok x) ↔
      Removable registry names t.name := by
  rw [← removal_ok_iff h]
  constructor
  · rintro ⟨x, hx⟩
    exact (removal_of_on hx).imp fun _ hremoval => hremoval.1
  · rintro ⟨removal, hremoval⟩
    exact ⟨_, HeaderChange.on_remove_eq_ok.2 ⟨removal, hremoval, rfl⟩⟩

/-- In an orderly document whose positions fit, the managed routes can be read. -/
theorem Document.Orderly.load {d : Document} {space : String} {rules : RouteKey → List Rule}
    (h : d.Orderly space rules) (hrules : ∀ k, (rules k).length ≤ 2 ^ 64) (kind : RouteKind) :
    ∃ m, ManagedRoutes.load d kind.registryKey = .ok m ∧ m.Tight ∧
      ∀ name, Layout.Sound ⟨m.positions name, rules ⟨kind, space, name⟩⟩ fun _ _ => True := by
  obtain ⟨m, hkept, htight, hsound⟩ := h kind
  refine ⟨m, hkept.load fun managed route i hi => ?_, htight, hsound⟩
  exact Nat.lt_of_lt_of_le ((hsound route).lt_length hi) (hrules _)

section Targets

variable {key : DocumentKey} {c c' : Cluster} {rollout : Rollout} {names : List String}

/-- What is recorded for the kind of a target and for the others once it has been changed. -/
theorem Changed.registry {document : Document} {t : Target} {route : Route}
    {registry : ManagedRoutes} {x : Option RouteChange} {change : HeaderChange}
    (h : Changed rollout change key c c' document t route registry x) {kind : RouteKind}
    {m : ManagedRoutes} (hm : c'.registry key kind = .ok m) :
    kind = t.kind ∧ m = registryAfter registry x ∨
      kind ≠ t.kind ∧ c.registry key kind = .ok m := by
  rw [Cluster.registry_eq_load, h.recorded] at hm
  by_cases hkind : kind = t.kind
  · subst hkind
    exact .inl ⟨rfl, eq_of_load_documentAfter h.loaded hm⟩
  · rw [load_documentAfter_of_ne hkind] at hm
    exact .inr ⟨hkind, (Cluster.registry_eq_load ..).trans hm⟩

theorem Changed.rules {document : Document} {t : Target} {route : Route}
    {registry : ManagedRoutes} {x : Option RouteChange} {change : HeaderChange}
    (h : Changed rollout change key c c' document t route registry x) :
    c'.rules = Function.update c.rules (t.keyIn key.space) (routeAfter route x).rules := by
  funext k
  by_cases hk : k = t.keyIn key.space
  · subst hk
    rw [Function.update_self, h.holds.rules_eq]
  · rw [Function.update_of_ne hk, Cluster.rules, h.routes k hk]
    rfl

theorem Cluster.rules_of_get? {k : RouteKey} {r : Route} (h : c.routes.get? k = some r) :
    c.rules k = r.rules := by
  rw [Cluster.rules, h]
  rfl

theorem Changed.orderly {document : Document} {t : Target} {route : Route}
    {registry : ManagedRoutes} {x : Option RouteChange} {change : HeaderChange}
    (h : Changed rollout change key c c' document t route registry x) (hc : c.Orderly key) :
    c'.Orderly key where
  wellFormed := h.wellFormed
  document := by
    rw [h.recorded, h.rules]
    exact hc.document.documentAfter h.loaded h.on (Cluster.rules_of_get? h.found)

/-- The registry of an orderly cluster can be read. -/
theorem Cluster.Orderly.registry (hc : c.Orderly key) (haddr : c.Addressable) (kind : RouteKind) :
    ∃ m, c.registry key kind = .ok m ∧ m.Tight ∧
      ∀ name, Layout.Sound ⟨m.positions name, c.rules ⟨kind, key.space, name⟩⟩ fun _ _ => True := by
  rw [Cluster.registry_eq_load]
  exact hc.document.load haddr kind

/-- A target of an orderly cluster. -/
theorem Cluster.Orderly.valid (hc : c.Orderly key) (haddr : c.Addressable) {t : Target}
    {route : Route} {registry : ManagedRoutes} (hr : c.routes.get? (t.keyIn key.space) = some route)
    (hregistry : c.registry key t.kind = .ok registry) :
    Removal.Valid t.name { registry, rules := route.rules } := by
  obtain ⟨m, hm, htight, hsound⟩ := hc.registry haddr t.kind
  cases hm.symm.trans hregistry
  refine ⟨htight, ?_⟩
  have := hsound t.name
  rwa [show (⟨t.kind, key.space, t.name⟩ : RouteKey) = t.keyIn key.space from rfl,
    Cluster.rules_of_get? hr] at this

/-- Removing names from a target leaves it addressable. -/
theorem Changed.addressable {document : Document} {t : Target} {route : Route}
    {registry : ManagedRoutes} {x : Option RouteChange}
    (h : Changed rollout (.remove names) key c c' document t route registry x)
    (hc : c.Orderly key) (haddr : c.Addressable) : c'.Addressable := by
  intro k
  rw [h.rules]
  by_cases hk : k = t.keyIn key.space
  · subst hk
    obtain ⟨removal, hfold, -, hrules⟩ := removal_of_on h.on
    have hregistry := (Cluster.registry_eq_load c key t.kind).trans h.loaded
    rw [Function.update_self, hrules, rules_of_removal (hc.valid haddr h.found hregistry).sound hfold]
    have hlength := haddr (t.keyIn key.space)
    rw [Cluster.rules_of_get? h.found] at hlength
    exact Nat.le_trans (length_rulesWithout _ _) hlength
  · rw [Function.update_of_ne hk]
    exact haddr k

/-- The first target goes through if it is stored and the names can be removed from it. -/
theorem ok_changeTarget_remove_iff {plan : Plan} {document : Document} (hc : c.Orderly key)
    (haddr : c.Addressable) (hspace : plan.space = key.space) (hkey : key.name ≠ "")
    (hd : c.documents.get? key = some document) {t : Target} {m : ManagedRoutes}
    (hm : c.registry key t.kind = .ok m) :
    (∃ d, ((changeTarget rollout plan (.remove names) document t).runOn c.undisturbed).1 = .ok d) ↔
      t.IsStored c key.space ∧ Removable m names t.name := by
  have hload : ManagedRoutes.load document t.kind.registryKey = .ok m := by
    rw [← Cluster.registry_of_get? hd, hm]
  rw [ok_changeTarget_iff hc.wellFormed hspace hkey hd]
  constructor
  · rintro ⟨hname, route, registry, x, hr, hregistry, hon⟩
    cases hload.symm.trans hregistry
    exact ⟨⟨hname, route, hr⟩, (ok_on_remove_iff (hc.valid haddr hr hm)).1 ⟨x, hon⟩⟩
  · rintro ⟨⟨hname, route, hr⟩, hremovable⟩
    exact ⟨hname, route, m, ((ok_on_remove_iff (hc.valid haddr hr hm)).2 hremovable).imp
      fun x hon => ⟨hr, hload, hon⟩⟩

/-- Removing names from a target removes them from its records, and leaves all other records as they
are. -/
theorem Changed.records {document : Document} {t : Target} {route : Route}
    {registry : ManagedRoutes} {x : Option RouteChange} {m m' : RouteKind → ManagedRoutes}
    (h : Changed rollout (.remove names) key c c' document t route registry x)
    (hm : ∀ kind, c.registry key kind = .ok (m kind))
    (hm' : ∀ kind, c'.registry key kind = .ok (m' kind)) (kind : RouteKind) (name r : String) :
    (m' kind).Records name r ↔
      (m kind).Records name r ∧ ¬ (name ∈ names ∧ (kind, r) = t.identity) := by
  obtain ⟨removal, hfold, hafter, -⟩ := removal_of_on h.on
  rcases h.registry (hm' kind) with ⟨rfl, he⟩ | ⟨hne, he⟩
  · have hregistry := (Cluster.registry_eq_load c key t.kind).trans h.loaded
    cases (hm t.kind).symm.trans hregistry
    rw [he, hafter, records_of_removal hfold]
    simp [Target.identity]
  · rw [Except.ok.inj ((hm kind).symm.trans he)]
    simp [Target.identity, hne]

theorem Changed.isStored_iff {document : Document} {t t' : Target} {route : Route}
    {registry : ManagedRoutes} {x : Option RouteChange} {change : HeaderChange}
    (h : Changed rollout change key c c' document t route registry x)
    (hne : t'.identity ≠ t.identity) : t'.IsStored c' key.space ↔ t'.IsStored c key.space := by
  rw [Target.IsStored, Target.IsStored, h.routes _ (Target.keyIn_ne hne)]

theorem ok_foldlM_remove_iff {plan : Plan} {document : Document} {m : RouteKind → ManagedRoutes}
    (hc : c.Orderly key) (haddr : c.Addressable) (hspace : plan.space = key.space)
    (hkey : key.name ≠ "") (hd : c.documents.get? key = some document)
    (hm : ∀ kind, c.registry key kind = .ok (m kind)) (ts : List Target)
    (hnodup : (ts.map Target.identity).Nodup) :
    (∃ d, ((ts.foldlM (changeTarget rollout plan (.remove names)) document).runOn
        c.undisturbed).1 = .ok d) ↔
      (∀ t ∈ ts, t.IsStored c key.space) ∧ Completable m names ts := by
  induction ts generalizing c document m with
  | nil =>
    refine ⟨fun _ => ⟨fun _ ht => (nomatch ht), fun before t after h => ?_⟩, fun _ => ⟨_, rfl⟩⟩
    simp at h
  | cons t ts ih =>
    rw [List.map_cons, List.nodup_cons] at hnodup
    have hfirst := @ok_changeTarget_remove_iff key c rollout names plan document hc haddr hspace hkey
      hd t _ (hm t.kind)
    have houtcome : Outcome rollout (.remove names) key document c t _ _ :=
      outcome_changeTarget (s := c.undisturbed) hc.wellFormed hspace hd t
    rcases hrun : (changeTarget rollout plan (.remove names) document t).runOn c.undisturbed with
      ⟨x, s⟩
    rw [hrun] at hfirst houtcome
    rw [List.foldlM_cons]
    cases x with
    | error e =>
      rw [Call.runOn_bind_error hrun]
      refine ⟨fun ⟨_, h⟩ => (nomatch h), fun ⟨hstored, hcompletable⟩ => ?_⟩
      obtain ⟨d, hd⟩ := hfirst.2 ⟨hstored t (List.mem_cons_self ..), fun name hn x hx =>
        hcompletable [] t ts rfl name hn x hx fun _ ht => (nomatch ht)⟩
      cases hd
    | ok d =>
      obtain ⟨route, registry, x, hchanged⟩ := changed_of_outcome hc.wellFormed hd houtcome
      obtain ⟨c', rfl⟩ := Call.undisturbed_of_runOn hrun
      have hc' : c'.Orderly key := hchanged.orderly hc
      have haddr' : c'.Addressable := hchanged.addressable hc haddr
      have hread : ∀ kind, ∃ m', c'.registry key kind = .ok m' := fun kind =>
        (hc'.registry haddr' kind).imp fun _ h => h.1
      choose m' hm' using hread
      have hstored : ∀ t' ∈ ts, t'.IsStored c' key.space ↔ t'.IsStored c key.space := fun t' ht' =>
        hchanged.isStored_iff fun e => hnodup.1 (e ▸ List.mem_map_of_mem ht')
      obtain ⟨hfirststored, hremovable⟩ := hfirst.1 ⟨d, rfl⟩
      have hrest := ih hc' haddr' hchanged.stored hm' hnodup.2
      rw [Call.runOn_bind_ok hrun, hrest, completable_cons_iff hnodup.1 (hchanged.records hm hm'),
        List.forall_mem_cons]
      exact ⟨fun ⟨hall, h⟩ => ⟨⟨hfirststored, fun t' ht' => (hstored t' ht').1 (hall t' ht')⟩,
          hremovable, h⟩,
        fun ⟨⟨_, hall⟩, _, h⟩ => ⟨fun t' ht' => (hstored t' ht').2 (hall t' ht'), h⟩⟩

theorem ok_changeTargets_remove_iff {plan : Plan} {m : RouteKind → ManagedRoutes}
    (hc : c.Orderly key) (haddr : c.Addressable) (hplan : key = plan.key)
    (hkey : key.name ≠ "") (hm : ∀ kind, c.registry key kind = .ok (m kind))
    (hnodup : (plan.headerTargets.map Target.identity).Nodup) :
    ((changeTargets rollout plan (.remove names)).runOn c.undisturbed).1 = .ok () ↔
      (∀ t ∈ plan.headerTargets, t.IsStored c key.space) ∧
        Completable m names plan.headerTargets := by
  subst hplan
  unfold changeTargets
  rw [Call.runOn_bind_ok (Call.runOn_acquire ..)]
  obtain ⟨d, c', hrun, hwell, hget, hroutes, hdocument⟩ :=
    runOn_getOrCreateDocument_undisturbed hc.wellFormed hkey
  have hrules : c'.rules = c.rules := funext fun k => by rw [Cluster.rules, hroutes]; rfl
  have hc' : c'.Orderly plan.key := ⟨hwell, by
    rw [hdocument, hrules]
    exact hc.document⟩
  have haddr' : c'.Addressable := fun k => hrules ▸ haddr k
  have hm' : ∀ kind, c'.registry plan.key kind = .ok (m kind) := fun kind => by
    rw [Cluster.registry_eq_load, hdocument]
    exact (Cluster.registry_eq_load ..).symm.trans (hm kind)
  have hfold := @ok_foldlM_remove_iff _ c' rollout names plan d m hc' haddr' rfl hkey hget hm'
    plan.headerTargets hnodup
  simp only [Target.IsStored, hroutes] at hfold ⊢
  rw [Call.runOn_bind_ok hrun]
  refine Iff.trans ?_ hfold
  rcases hend : (plan.headerTargets.foldlM (changeTarget rollout plan (.remove names)) d).runOn
    c'.undisturbed with ⟨x, s⟩
  cases x with
  | ok d' =>
    rw [Call.runOn_bind_ok hend]
    exact ⟨fun _ => ⟨d', rfl⟩, fun _ => rfl⟩
  | error e =>
    rw [Call.runOn_bind_error hend]
    constructor
    · intro h
      cases h
    · rintro ⟨_, h⟩
      cases h

/-- The names have been removed from a target: exactly the rules that they recorded are gone, and
the names are recorded for the target no more. -/
structure Removed (key : DocumentKey) (names : List String) (c c' : Cluster) (t : Target) :
    Prop where
  /-- The rules that the names recorded are gone, and no others. -/
  rules : ∀ m, c.registry key t.kind = .ok m → c'.rules (t.keyIn key.space) =
    rulesWithout (m.positionsOf names t.name) (c.rules (t.keyIn key.space))
  /-- The names are recorded no more. -/
  unrecorded : ∃ m, c'.registry key t.kind = .ok m ∧ ∀ name ∈ names, ¬ m.Records name t.name

theorem removed_of_progress {targets : List Target} (hc : c.Orderly key) (haddr : c.Addressable)
    (h : Progress rollout (.remove names) key c c' none targets none [])
    (hnodup : (targets.map Target.identity).Nodup) {t : Target} (ht : t ∈ targets) :
    Removed key names c c' t := by
  have hrules : ∀ t ∈ targets, ∀ m, c.registry key t.kind = .ok m → c'.rules (t.keyIn key.space) =
      rulesWithout (m.positionsOf names t.name) (c.rules (t.keyIn key.space)) := by
    intro t ht m hm
    obtain ⟨route, registry, x, hr, hon, hholds, hbefore, -⟩ := h.carried.recorded hnodup ht
    obtain ⟨removal, hfold, -, hafter⟩ := removal_of_on hon
    have hpositions := hbefore m ((Cluster.registry_eq_load ..).symm.trans hm)
    have hsound := (hc.valid haddr hr hm).sound
    rw [← hpositions] at hsound
    rw [hholds.rules_eq, hafter, rules_of_removal hsound hfold, Cluster.rules_of_get? hr,
      ManagedRoutes.positionsOf_congr hpositions]
  have hc' : c'.Orderly key := hc.of_progress h (fun _ he => nomatch he) hnodup
  have haddr' : c'.Addressable := by
    intro k
    by_cases hk : ∃ t ∈ targets, t.keyIn key.space = k
    · obtain ⟨t, ht, rfl⟩ := hk
      obtain ⟨m, hm, -⟩ := hc.registry haddr t.kind
      rw [hrules t ht m hm]
      exact Nat.le_trans (length_rulesWithout _ _) (haddr _)
    · have hsame := h.routes k fun t ht he => hk ⟨t, by simpa using ht, he⟩
      rw [Cluster.rules, hsame]
      exact haddr k
  obtain ⟨m', hm', -⟩ := hc'.registry haddr' t.kind
  refine ⟨hrules t ht, m', hm', fun name hname hrecords => ?_⟩
  obtain ⟨route, registry, x, -, hon, -, -, hafter⟩ := h.carried.recorded hnodup ht
  obtain ⟨removal, hfold, hregistry, -⟩ := removal_of_on hon
  have hpositions := hafter m' ((Cluster.registry_eq_load ..).symm.trans hm')
  rw [hregistry] at hpositions
  rw [ManagedRoutes.records_congr hpositions, records_of_removal hfold] at hrecords
  exact hrecords.2 ⟨hname, rfl⟩

end Targets

/-- In every cluster that calls have reached, whichever of their requests failed, a removal without
failures goes through exactly if its targets are stored and it can be completed: at every target's
turn each name that is still recorded for some route is recorded for the target. Then the names are
gone from every target, with exactly the rules that they recorded. -/
theorem removal_goes_through_iff {key : DocumentKey} {c : Cluster} (hreach : c.Reachable key)
    (haddr : c.Addressable) {rollout : Rollout} {operation : Operation} {names : List String}
    (hop : operation.headerChange? rollout = some (.ok (.remove names))) {plan : Plan}
    (hplan : ((resolve rollout).runOn c.undisturbed).1 = .ok plan)
    (hkey : key = ⟨plan.space, plan.document⟩) :
    ∃ m, (∀ kind, c.registry key kind = .ok (m kind)) ∧
      (((perform rollout operation).runOn c.undisturbed).1 = .ok none ↔
        (∀ t ∈ plan.headerTargets, t.IsStored c key.space) ∧
          Completable m names plan.headerTargets) ∧
      (((perform rollout operation).runOn c.undisturbed).1 = .ok none →
        ∀ t ∈ plan.headerTargets,
          Removed key names c ((perform rollout operation).runOn c.undisturbed).2.cluster t) := by
  have hc := hreach.orderly
  have hread : ∀ kind, ∃ m, c.registry key kind = .ok m := fun kind =>
    (hc.registry haddr kind).imp fun _ h => h.1
  choose m hm using hread
  obtain ⟨hcluster, hresolved⟩ := runOn_resolve rollout c.undisturbed
  have hfailures := Call.failures_runOn (resolve rollout) (s := c.undisturbed) rfl
  have hresolve : (resolve rollout).runOn c.undisturbed = (.ok plan, c.undisturbed) := by
    rcases hrun : (resolve rollout).runOn c.undisturbed with ⟨x, c', failures⟩
    rw [hrun] at hplan hcluster hfailures
    cases hplan
    cases hcluster
    cases hfailures
    rfl
  have hnodup := nodup_headerTargets (hresolved plan hplan)
  have hname : key.name ≠ "" := by
    rw [hkey]
    exact (hresolved plan hplan).document_ne
  refine ⟨m, hm, ?_, ?_⟩ <;> rw [runOn_perform hop hresolve]
  · rw [← ok_changeTargets_remove_iff hc haddr hkey hname hm hnodup]
    cases ((changeTargets rollout plan (.remove names)).runOn c.undisturbed).1 <;> simp [Except.map]
  · intro hok t ht
    obtain ⟨done, failing, rest, hsplit, hprogress, -⟩ :=
      progress_changeTargets (s := c.undisturbed) hc.wellFormed rollout (.remove names) hnodup
    have hnone : failureOf ((changeTargets rollout plan (.remove names)).runOn c.undisturbed).1 =
        none := by
      cases hx : ((changeTargets rollout plan (.remove names)).runOn c.undisturbed).1 with
      | ok _ => rfl
      | error e => rw [hx] at hok; cases hok
    obtain ⟨rfl, rfl⟩ := hprogress.complete hnone
    rw [hnone, ← hkey] at hprogress
    simp only [Option.toList_none, List.append_nil] at hsplit
    subst hsplit
    exact removed_of_progress hc haddr hprogress hnodup ht

/-! ### A removal that cannot be completed

A header route is added to two routes. A removal is told to take it away, and stops when the second
route is refused. The name is then recorded for the second route only, and the next removal fails at
the first.
-/

theorem Cluster.addressable_of_entries {c : Cluster}
    (h : ∀ e ∈ c.routes.entries, e.2.rules.length ≤ 2 ^ 64) : c.Addressable := by
  intro k
  unfold Cluster.rules
  cases hr : c.routes.get? k with
  | none => exact Nat.zero_le _
  | some r => exact h (k, r) (KeyMap.mem_entries.2 hr)

/-- The registry document of the two routes. -/
def pairDocument : DocumentKey := ⟨"shop", "argo-gatewayapi-configmap"⟩

theorem worksOn_pairDocument (operation : Operation) :
    Order.WorksOn ⟨0, pairRollout, operation⟩ pairDocument := by
  intro s hs
  have : Settings.ofJson pairRollout.trafficRouting = .ok pairPlan.settings := rfl
  cases this.symm.trans hs
  exact ⟨rfl, rfl⟩

/-- The header route has been added. -/
def pairSet : Cluster := ((perform pairRollout setBeta).runOn pairCluster.undisturbed).2.cluster

/-- It has been removed from the first route. -/
def pairHalf : Cluster :=
  ((perform pairRollout .removeManagedRoutes).runOn
    ⟨pairSet, [none, none, none, none, none, some (.status 500)]⟩).2.cluster

theorem reachable_pairSet : pairSet.Reachable pairDocument :=
  .call (o := ⟨0, pairRollout, setBeta⟩) (.start wellFormed_pairCluster fun _ => rfl)
    (worksOn_pairDocument _) (by decide +kernel)

theorem reachable_pairHalf : pairHalf.Reachable pairDocument :=
  .call (o := ⟨0, pairRollout, .removeManagedRoutes⟩) reachable_pairSet (worksOn_pairDocument _)
    (by decide +kernel)

/-- Removing managed routes is not always possible. -/
theorem removal_stuck :
    ¬ ∀ (key : DocumentKey) (c : Cluster), c.Reachable key → c.Addressable →
      ∀ (rollout : Rollout) (plan : Plan), ((resolve rollout).runOn c.undisturbed).1 = .ok plan →
        key = ⟨plan.space, plan.document⟩ → (∀ t ∈ plan.headerTargets, t.IsStored c key.space) →
          ((perform rollout .removeManagedRoutes).runOn c.undisturbed).1 = .ok none := by
  intro h
  obtain ⟨hstored, hlengths, herror⟩ :
      (∀ t ∈ pairPlan.headerTargets,
        t.name ≠ "" ∧ (pairHalf.routes.get? (t.keyIn "shop")).isSome) ∧
      (∀ e ∈ pairHalf.routes.entries, e.2.rules.length ≤ 2 ^ 64) ∧
      ((perform pairRollout .removeManagedRoutes).runOn pairHalf.undisturbed).1.isOk = false := by
    decide +kernel
  rw [h pairDocument pairHalf reachable_pairHalf (Cluster.addressable_of_entries hlengths)
    pairRollout pairPlan rfl rfl
    fun t ht => (hstored t ht).imp id Option.isSome_iff_exists.1] at herror
  cases herror

theorem removal_goes_through_iff_pairSet :
    ∃ m, (∀ kind, pairSet.registry pairDocument kind = .ok (m kind)) ∧
      (((perform pairRollout .removeManagedRoutes).runOn pairSet.undisturbed).1 = .ok none ↔
        (∀ t ∈ pairPlan.headerTargets, t.IsStored pairSet pairDocument.space) ∧
          Completable m ["beta"] pairPlan.headerTargets) ∧
      (((perform pairRollout .removeManagedRoutes).runOn pairSet.undisturbed).1 = .ok none →
        ∀ t ∈ pairPlan.headerTargets, Removed pairDocument ["beta"] pairSet
          ((perform pairRollout .removeManagedRoutes).runOn pairSet.undisturbed).2.cluster t) :=
  removal_goes_through_iff reachable_pairSet (Cluster.addressable_of_entries (by decide +kernel))
    rfl rfl rfl

end CanaryRouting
