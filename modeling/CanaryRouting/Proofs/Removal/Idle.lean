import CanaryRouting.Proofs.Removal.Names
import CanaryRouting.Proofs.Router.Undisturbed

/-!
# Removing what is not recorded

A removal of names none of which is recorded for any target writes neither a route nor managed
routes (`idle_foldlM`). But the registry document is fetched or created before the first target is
looked at. So the removal leaves the cluster as it was only if there is a document; otherwise it
creates one, although there is nothing to record in it (`unchanged_iff_of_idle`).
-/

namespace CanaryRouting

open Router

/-- None of the names is recorded for any of the targets that take header routes. -/
def Idle (c : Cluster) (plan : Plan) (names : List String) : Prop :=
  ∀ t ∈ plan.headerTargets, ∀ m, c.registry plan.key t.kind = .ok m →
    ∀ name ∈ names, ¬ m.Records name t.name

namespace Router

variable {rollout : Rollout} {plan : Plan} {names : List String}

/-- A name that is not recorded for the route is passed over, or it is an error. -/
theorem Removal.eq_of_not_records {route : String} {r r' : Removal}
    (hnames : ∀ name ∈ names, ¬ r.registry.Records name route)
    (h : names.foldlM (Removal.remove route) r = .ok r') : r' = r := by
  induction names with
  | nil => cases h; rfl
  | cons name names ih =>
    rw [List.forall_mem_cons] at hnames
    obtain ⟨r₁, hr, hrest⟩ := Except.foldlM_cons_eq_ok.1 h
    rcases Removal.remove_cases hr with ⟨-, rfl⟩ | ⟨i, -, hi, -⟩
    · exact ih hnames.2 hrest
    · exact (hnames.1 ⟨i, hi⟩).elim

/-- At a target for which none of the names is recorded nothing is written. -/
theorem idle_changeTarget {t : Target} {d d' : Document} {s s' : FaultyCluster}
    (hnames : ∀ m, ManagedRoutes.load d t.kind.registryKey = .ok m →
      ∀ name ∈ names, ¬ m.Records name t.name)
    (h : (changeTarget rollout plan (.remove names) d t).runOn s = (.ok d', s')) :
    d' = d ∧ s'.cluster = s.cluster := by
  unfold changeTarget at h
  obtain ⟨m, s₁, hload, h₁⟩ := Call.runOn_bind_eq_ok.1 h
  obtain ⟨hm, rfl⟩ := Call.runOn_ofExcept_eq_iff.1 hload
  obtain ⟨route, s₂, hroute, h₂⟩ := Call.runOn_bind_eq_ok.1 h₁
  have hsame : s₂.cluster = s.cluster := by
    rcases runOn_getRoute s ⟨t.kind, plan.space, t.name⟩ with ⟨_, he⟩ | ⟨_, -, -, he⟩ <;>
      cases hroute.symm.trans he
    rfl
  obtain ⟨change?, s₃, hchange, h₃⟩ := Call.runOn_bind_eq_ok.1 h₂
  obtain ⟨hon, rfl⟩ := Call.runOn_ofExcept_eq_iff.1 hchange
  obtain ⟨removal, hremoval, he⟩ := HeaderChange.on_remove_eq_ok.1 hon
  rw [Removal.eq_of_not_records (hnames m hm) hremoval] at he
  cases he
  cases h₃
  exact ⟨rfl, hsame⟩

/-- If that is so at every target, then nothing is written at all. -/
theorem idle_foldlM {ts : List Target} {d d' : Document} {s s' : FaultyCluster}
    (hnames : ∀ t ∈ ts, ∀ m, ManagedRoutes.load d t.kind.registryKey = .ok m →
      ∀ name ∈ names, ¬ m.Records name t.name)
    (h : (ts.foldlM (changeTarget rollout plan (.remove names)) d).runOn s = (.ok d', s')) :
    s'.cluster = s.cluster := by
  induction ts generalizing s with
  | nil => cases h; rfl
  | cons t ts ih =>
    rw [List.forall_mem_cons] at hnames
    rw [List.foldlM_cons] at h
    obtain ⟨d₁, s₁, hfirst, hlater⟩ := Call.runOn_bind_eq_ok.1 h
    obtain ⟨rfl, hsame⟩ := idle_changeTarget hnames.1 hfirst
    rw [ih hnames.2 hlater, hsame]

/-- A removal that goes through although there is nothing to remove has at most created the
document. -/
theorem idle_changeTargets {s s' : FaultyCluster} {x : Unit} (hidle : Idle s.cluster plan names)
    (h : (changeTargets rollout plan (.remove names)).runOn s = (.ok x, s')) :
    (∃ d, s.cluster.documents.get? plan.key = some d ∧ s'.cluster = s.cluster) ∨
      s.cluster.documents.get? plan.key = none ∧
        s'.cluster = s.cluster.putDocument plan.key (Cluster.created plan.key) := by
  unfold changeTargets at h
  rw [Call.runOn_bind_ok (Call.runOn_acquire ..)] at h
  obtain ⟨d, s₁, hd, h⟩ := Call.runOn_bind_eq_ok.1 h
  obtain ⟨d', s₂, hfold, h⟩ := Call.runOn_bind_eq_ok.1 h
  obtain ⟨-, rfl⟩ := Prod.mk.inj h
  rcases getOrCreateDocument_cases s plan with
    ⟨_, _, he, -⟩ | ⟨d, s₁, hd', hget, hsame⟩ | ⟨s₁, hd', hnone, hcreated⟩
  · cases hd.symm.trans he
  · cases hd.symm.trans hd'
    refine .inl ⟨d, hget, (idle_foldlM (fun t ht m hm => ?_) hfold).trans hsame⟩
    exact hidle t ht m (by rwa [Cluster.registry_of_get? hget])
  · cases hd.symm.trans hd'
    refine .inr ⟨hnone, (idle_foldlM (fun t ht m hm => ?_) hfold).trans hcreated⟩
    rw [Cluster.load_withVersion, Cluster.load_created] at hm
    exact hidle t ht m (by rwa [Cluster.registry, hnone])

end Router

/-- **A removal that has nothing to remove creates the registry document.** If none of the names is
recorded for any target and the removal goes through, then the cluster is as it was exactly if there
is a registry document. Otherwise one without texts has been created, and that is all. -/
theorem unchanged_iff_of_idle {rollout : Rollout} {operation : Operation} {names : List String}
    (hop : operation.headerChange? rollout = some (.ok (.remove names))) {s s₁ s' : FaultyCluster}
    {plan : Plan} (hplan : (resolve rollout).runOn s = (.ok plan, s₁))
    (hidle : Idle s.cluster plan names) {x : Option Bool}
    (hrun : (perform rollout operation).runOn s = (.ok x, s')) :
    (s'.cluster = s.cluster ↔ ∃ d, s.cluster.documents.get? plan.key = some d) ∧
      (s.cluster.documents.get? plan.key = none →
        s'.cluster = s.cluster.putDocument plan.key (Cluster.created plan.key)) := by
  have hsame : s₁.cluster = s.cluster := by
    have := (runOn_resolve rollout s).1
    rwa [hplan] at this
  rw [← hsame] at hidle ⊢
  rw [runOn_perform hop hplan] at hrun
  rcases hchange : (changeTargets rollout plan (.remove names)).runOn s₁ with ⟨y, s₂⟩
  rw [hchange] at hrun
  cases y with
  | error e => cases hrun
  | ok y =>
    cases hrun
    rcases idle_changeTargets hidle hchange with ⟨d, hd, heq⟩ | ⟨hnone, heq⟩
    · exact ⟨iff_of_true heq ⟨d, hd⟩, fun hnone => nomatch hd.symm.trans hnone⟩
    · refine ⟨iff_of_false (fun hunchanged => ?_) fun ⟨d, hd⟩ => ?_, fun _ => heq⟩
      · have hget := Cluster.get?_putDocument_self (c := s₁.cluster) plan.key
          (Cluster.created plan.key)
        rw [← heq, hunchanged, hnone] at hget
        cases hget
      · cases hd.symm.trans hnone

/-! ### A removal of a name that was never added -/

theorem idle_of_absent {c : Cluster} {plan : Plan} (h : c.documents.get? plan.key = none)
    (names : List String) : Idle c plan names := by
  intro t _ m hm
  rw [Cluster.registry, h] at hm
  cases hm
  exact fun name _ => ManagedRoutes.not_records_empty name _

/-- The cluster with a registry document that has no texts. -/
def pairDocumented : Cluster := pairCluster.putDocument pairPlan.key (Cluster.created pairPlan.key)

theorem unchanged_iff_of_idle_pair :
    ((perform pairRollout .removeManagedRoutes).runOn pairCluster.undisturbed).2.cluster =
        pairDocumented ∧
      ((perform pairRollout .removeManagedRoutes).runOn pairDocumented.undisturbed).2.cluster =
        pairDocumented := by
  have hidle : Idle pairDocumented pairPlan ["beta"] := by
    intro t _ m hm
    rw [pairDocumented, Cluster.registry_putDocument_self, Cluster.load_created] at hm
    cases hm
    exact fun name _ => ManagedRoutes.not_records_empty name _
  have hcreates : (perform pairRollout .removeManagedRoutes).runOn pairCluster.undisturbed =
    (.ok none, pairDocumented.undisturbed) := rfl
  have hkeeps : (perform pairRollout .removeManagedRoutes).runOn pairDocumented.undisturbed =
    (.ok none, pairDocumented.undisturbed) := rfl
  rw [hcreates, hkeeps]
  exact ⟨(unchanged_iff_of_idle rfl rfl (idle_of_absent rfl _) hcreates).2 rfl,
    (unchanged_iff_of_idle rfl rfl hidle hkeeps).1.2 ⟨_, Cluster.get?_putDocument_self _ _⟩⟩

/-- There is no document, so nothing is recorded; the removal goes through, and there is one. -/
theorem document_created_by_idle :
    ∃ s', Idle pairCluster pairPlan ["beta"] ∧
      (resolve pairRollout).runOn pairCluster.undisturbed =
        (.ok pairPlan, pairCluster.undisturbed) ∧
      (perform pairRollout .removeManagedRoutes).runOn pairCluster.undisturbed = (.ok none, s') ∧
      pairCluster.documents.get? pairPlan.key = none ∧
      s'.cluster.documents.get? pairPlan.key ≠ none :=
  ⟨_, idle_of_absent rfl _, rfl, rfl, rfl, by decide +kernel⟩

end CanaryRouting
