import CanaryRouting.Proofs.Cluster.History
import CanaryRouting.Proofs.Router.Commuting
import CanaryRouting.Proofs.Router.Undisturbed

/-!
# What a list of routes depends on

Setting weights marks routes by a label, and may take the mark away. If no selector of a
configuration looks at that label, the lists that a request is resolved by do not depend on it
(`respond_listRoutes_congr`), and the request is resolved as it would be on the cluster as it was
(`runOn_resolve_of_ends`).
-/

namespace CanaryRouting

open Program Router

/-- The label that a condition is about. -/
def LabelTerm.key : LabelTerm → String
  | among key _ | notAmong key _ | present key | missing key => key

namespace Settings

/-- Whether this is the label that marks routes with canary traffic. -/
def marks (s : Settings) (key : String) : Bool := !s.disableLabel && key = s.inProgressKey

/-- No selector looks at the label that marks routes with canary traffic. -/
def SelectsApart (s : Settings) : Prop :=
  ∀ kind selector query, (s.choice kind).selector = some selector →
    Query.ofText? selector.expression = some query → ∀ term ∈ query, ¬ s.marks term.key

end Settings

/-- The name of a route and its labels, apart from the mark. -/
def Route.listed (s : Settings) (r : Route) : String × (String → Option String) :=
  (r.name, fun key => if s.marks key then none else r.metadata.label? key)

theorem Metadata.label?_ensureLabel {s : Settings} {key : String} (h : ¬ s.marks key)
    (m : Metadata) (weight : Int) : (m.ensureLabel weight s).1.label? key = m.label? key := by
  unfold ensureLabel
  split
  · rfl
  · next hdisabled =>
    have hkey : key ≠ s.inProgressKey := fun e => h (by simp [Settings.marks, hdisabled, e])
    split
    · simp only [label?]
      cases m.labels with
      | none => rfl
      | some labels => simp [KeyMap.get?_erase, hkey]
    · simp only
      split <;> simp [label?, KeyMap.get?_insert, Ne.symm hkey]

theorem Route.listed_relabel (s : Settings) (desired : Int) (r : Route) :
    (r.relabel desired s).listed s = r.listed s := by
  obtain ⟨labels, hlabels⟩ := r.metadata.ensureLabel_eq desired s
  refine Prod.ext ?_ (funext fun key => ?_)
  · simp only [listed, name, relabel, hlabels]
    rfl
  · simp only [listed, relabel]
    split
    · rfl
    · next hmark => exact Metadata.label?_ensureLabel hmark _ _

/-- The routes are listed alike. -/
def Cluster.ListedAs (s : Settings) (c c' : Cluster) : Prop :=
  ∀ k, (c'.routes.get? k).map (Route.listed s) = (c.routes.get? k).map (Route.listed s)

/-- A condition that is not about the mark does not see it. -/
theorem LabelTerm.holds_congr {s : Settings} {term : LabelTerm} (h : ¬ s.marks term.key) (r : Route) :
    term.holds (Form.plain.routes.label? r) =
      term.holds fun key => ((r.listed s).2 key).map some := by
  cases term <;> simp only [LabelTerm.key] at h <;>
    simp [holds, Form.plain, Route.listed, h]

namespace Cluster

variable {s : Settings} {c c' : Cluster}

/-- Routes that are listed alike are picked alike by a query that does not ask for the mark. -/
theorem listRoutes_congr (h : c.ListedAs s c') (space : String) (kind : RouteKind) {query : Query}
    (hquery : ∀ term ∈ query, ¬ s.marks term.key) :
    c'.listRoutes .plain space kind query = c.listRoutes .plain space kind query := by
  have hlist : ∀ c : Cluster, c.listRoutes .plain space kind query =
      .ok (((c.routes.mapValues fun _ r => r.listed s).entries.filter fun e =>
        e.1.kind = kind && e.1.space = space &&
          query.selects fun key => (e.2.2 key).map some).map fun e => e.2.1) := by
    intro c
    have hselects : ∀ r : Route, query.selects (Form.plain.routes.label? r) =
        query.selects fun key => ((r.listed s).2 key).map some := fun r => by
      rw [Bool.eq_iff_iff, Query.selects, Query.selects, List.all_eq_true, List.all_eq_true]
      exact forall₂_congr fun term hterm => by rw [LabelTerm.holds_congr (hquery term hterm)]
    simp only [listRoutes_eq, hselects, KeyMap.mapValues, List.filter_map, List.map_map]
    rfl
  have hmap : (c'.routes.mapValues fun _ r => r.listed s) = c.routes.mapValues fun _ r => r.listed s :=
    KeyMap.ext fun k => by simpa using h k
  rw [hlist, hlist, hmap]

/-- A selector that does not look at the mark is answered alike. -/
theorem respond_listRoutes_congr (h : c.ListedAs s c') (space : String) (kind : RouteKind)
    {selector : LabelSelector} (happart : ∀ query, Query.ofText? selector.expression = some query →
      ∀ term ∈ query, ¬ s.marks term.key) :
    (Cluster.respond (.listRoutes space kind selector) c').1 =
      (Cluster.respond (.listRoutes space kind selector) c).1 := by
  have hnamed : (Request.listRoutes space kind selector).isNamed = true := by
    simp [Request.isNamed, Request.hasNameInPath]
  rw [respond_eq_answer hnamed, respond_eq_answer hnamed]
  simp only [Holdings.answer]
  cases hquery : Query.ofText? selector.expression with
  | none => rfl
  | some query => exact listRoutes_congr h space kind (happart query hquery)

theorem ListedAs.refl (s : Settings) (c : Cluster) : c.ListedAs s c := fun _ => rfl

theorem ListedAs.trans {c₁ : Cluster} (h : c.ListedAs s c₁) (h' : c₁.ListedAs s c') :
    c.ListedAs s c' := fun k => (h' k).trans (h k)

/-- Events of which none changes how its route is listed. -/
theorem History.listedAs {es : List Event} (h : History c es c')
    (hes : ∀ e ∈ es, ∀ k, e.request.routeKey? = some k →
      ((Cluster.respond e.request e.before).2.routes.get? k).map (Route.listed s) =
        (e.before.routes.get? k).map (Route.listed s)) : c.ListedAs s c' := by
  induction h with
  | nil => exact .refl s _
  | @cons c c' i r es _ ih =>
    refine .trans (fun k => ?_) (ih fun e he => hes e (List.mem_cons_of_mem _ he))
    by_cases hk : r.routeKey? = some k
    · exact hes _ (List.mem_cons_self ..) k hk
    · rw [get?_respond_of_ne hk]

end Cluster

/-! ### Resolving -/

/-- A program that only reads, and is answered as on one cluster, does what it does there. -/
theorem Program.Ends.run_undisturbed {α : Type} {p : Program α} {es : List Event} {a : α}
    (h : p.Ends es a) {c : Cluster} (hes : ∀ e ∈ es,
      e.answer = (Cluster.respond e.request c).1 ∧ (Cluster.respond e.request c).2 = c) :
    p.run FaultyCluster.respond c.undisturbed = (a, c.undisturbed) := by
  induction h with
  | done => rfl
  | @ask i r answer before next es a _ ih =>
    obtain ⟨hanswer, hsame⟩ := hes _ (List.mem_cons_self ..)
    simp only at hanswer hsame
    rw [run_ask, respond_undisturbed, hsame, ← hanswer]
    exact ih fun e he => hes e (List.mem_cons_of_mem _ he)
  | lock _ ih => exact ih hes

/-- A program that is run has a transcript. -/
theorem Program.exists_ends {α : Type} (p : Program α) (c : Cluster) :
    ∃ es, p.Ends es (p.run FaultyCluster.respond c.undisturbed).1 ∧
      c.History es (p.run FaultyCluster.respond c.undisturbed).2.cluster := by
  induction p generalizing c with
  | done a => exact ⟨[], .done, .nil⟩
  | ask r next ih =>
    obtain ⟨es, hends, hhistory⟩ := ih (Cluster.respond r c).1 (Cluster.respond r c).2
    exact ⟨⟨0, r, (Cluster.respond r c).1, c⟩ :: es, .ask hends, .cons hhistory⟩
  | lock space document next ih =>
    obtain ⟨es, hends, hhistory⟩ := ih c
    exact ⟨es, .lock hends, hhistory⟩

/-- What a program knows when it has ended. -/
theorem Program.Follows.of_ends {γ α : Type} {P : Protocol γ} {post : γ → α → Prop} {g : γ}
    {p : Program α} (h : Follows P post g p) {es : List Event} {a : α} (hends : p.Ends es a) :
    ∃ g', post g' a := by
  induction h generalizing es with
  | done hpost => cases hends; exact ⟨_, hpost⟩
  | ask _ _ ih => cases hends with | ask hends => exact ih _ hends
  | lock _ ih => cases hends with | lock hends => exact ih hends

namespace Router

/-- The transcript of resolving a request: lists by the selectors that are configured. -/
theorem lists_of_resolve {rollout : Rollout} {es : List Event} {plan : Plan}
    (h : (resolve rollout).run.Ends es (.ok plan)) :
    plan.Resolved rollout ∧ ∀ e ∈ es, ∃ kind selector,
      (plan.settings.choice kind).selector = some selector ∧
        e.request = .listRoutes plan.space kind selector := by
  obtain ⟨-, hresolved⟩ := (follows_listing_resolve rollout).of_ends h
  refine ⟨hresolved plan rfl, ?_⟩
  have hlists : ∀ (settings : Settings) (space : String) (kinds : List RouteKind)
      (targets targets' : List Target) (es : List Event),
      (kinds.foldlM (discover settings space) targets).run.Ends es (.ok targets') →
      ∀ e ∈ es, ∃ kind selector, (settings.choice kind).selector = some selector ∧
        e.request = .listRoutes space kind selector := by
    intro settings space kinds
    induction kinds with
    | nil =>
      intro targets targets' es h e he
      rw [(Ends.of_pure h).1] at he
      cases he
    | cons kind kinds ih =>
      intro targets targets' es h e he
      rw [List.foldlM_cons] at h
      obtain ⟨targets₁, es₁, es₂, rfl, hfirst, hrest⟩ := Ends.of_bindCall h
      rcases List.mem_append.1 he with he | he
      · unfold discover at hfirst
        split at hfirst
        · rw [(Ends.of_pure hfirst).1] at he
          cases he
        · next selector hselector =>
          obtain ⟨names, es₃, es₄, rfl, hlist, hpure⟩ := Ends.of_bindCall hfirst
          obtain ⟨i, c, rfl⟩ := Ends.of_request hlist
          rw [(Ends.of_pure hpure).1, List.append_nil, List.mem_singleton] at he
          exact ⟨kind, selector, hselector, by rw [he]⟩
      · exact ih _ _ _ hrest e he
  unfold resolve at h
  obtain ⟨settings, es₁, es₂, rfl, hsettings, hrest⟩ := Ends.of_bindCall h
  obtain ⟨targets, es₃, es₄, rfl, htargets, hplan⟩ := Ends.of_bindCall hrest
  obtain ⟨rfl, -⟩ := Ends.of_ofExcept hsettings
  obtain ⟨rfl, rfl⟩ := Ends.of_pure hplan
  rw [List.nil_append, List.append_nil]
  exact hlists settings _ _ _ _ _ htargets

/-- A request is resolved alike on clusters whose routes are listed alike. -/
theorem runOn_resolve_congr {rollout : Rollout} {plan : Plan} {c c' : Cluster}
    (hplan : ((resolve rollout).runOn c.undisturbed).1 = .ok plan)
    (hlisted : c.ListedAs plan.settings c') (hapart : plan.settings.SelectsApart) :
    (resolve rollout).runOn c'.undisturbed = (.ok plan, c'.undisturbed) := by
  obtain ⟨es, hends, hanswers⟩ := Program.exists_ends (resolve rollout).run c
  rw [show ((resolve rollout).run.run FaultyCluster.respond c.undisturbed).1 = .ok plan from hplan]
    at hends
  obtain ⟨-, hlists⟩ := lists_of_resolve hends
  have hread : ∀ e ∈ es, ∀ c, (Cluster.respond e.request c).2 = c := by
    intro e he c
    obtain ⟨kind, selector, -, hrequest⟩ := hlists e he
    rw [hrequest]
    exact Cluster.respond_listRoutes c _ _ _
  refine hends.run_undisturbed fun e he => ⟨?_, hread e he c'⟩
  rw [hanswers.answer_eq he, hanswers.before_eq hread e he]
  obtain ⟨kind, selector, hselector, hrequest⟩ := hlists e he
  rw [hrequest]
  exact (Cluster.respond_listRoutes_congr hlisted _ _ fun query =>
    hapart _ _ query hselector).symm

end Router

end CanaryRouting
