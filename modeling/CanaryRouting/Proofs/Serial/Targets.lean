import CanaryRouting.Proofs.Serial.Alone
import CanaryRouting.Proofs.Serial.Joint
import Mathlib.Data.List.Nodup

/-!
# The targets of two operations

Of two operations side by side the first one gives every target its weights, with the positions of
the registry that it has read (`Joint.weighs_alone`), and the second one changes the header routes
of some targets. Target by target they have done what they would have done one after the other:
first the weights, and then the header routes (`Joint.weights_first`), or the other way round
(`Joint.headers_first`). Which one it is depends on which of the two is the first to write the
route. If it is the second one, the first one must not have read positions that it changes.
-/

namespace CanaryRouting

open Router

/-! ### Versions -/

theorem Route.withVersion_of_unversioned {r w : Route} (h : w.unversioned = r.unversioned) :
    w = r.withVersion w.version := by
  calc w = w.unversioned.withVersion w.version := rfl
    _ = r.withVersion w.version := by rw [h]; rfl

/-- Versions do not matter to a change, and it keeps them. -/
theorem HeaderChange.on_ok_withVersion {change : HeaderChange} {rollout : Rollout} {t : Target}
    {registry : ManagedRoutes} {route : Route} {x : Option RouteChange}
    (h : change.on rollout t registry route = .ok x) (v : Option String) :
    ∃ x', change.on rollout t registry (route.withVersion v) = .ok x' ∧
      x'.map RouteChange.registryAfter = x.map RouteChange.registryAfter ∧
      routeAfter (route.withVersion v) x' = (routeAfter route x).withVersion v := by
  refine ⟨x.map fun y => y.withVersion v, by rw [HeaderChange.on_withVersion, h]; rfl, ?_⟩
  cases x <;> exact ⟨rfl, rfl⟩

theorem Cluster.Holds.withVersion {c : Cluster} {k : RouteKey} {r : Route} (h : c.Holds k r)
    (v : Option String) : c.Holds k (r.withVersion v) := h

/-! ### Positions -/

/-- With the positions of another document the target gets the weights that it gets with these, if
they are the same. -/
theorem Cluster.weighed_of_placedAs {c c' : Cluster} {key : DocumentKey} {rollout : Rollout}
    {settings : Settings} {desired : Int} {destinations : List WeightDestination} {t : Target}
    {r z : Route} (h : t.PlacedAs (c.document key) (c'.document key))
    (hz : c'.weighed key rollout settings desired destinations t r = .ok z) :
    c.weighed key rollout settings desired destinations t r = .ok z := by
  obtain ⟨m', hm', hweigh⟩ := weighed_eq_ok_iff.1 hz
  rw [registry_eq_load] at hm'
  obtain ⟨m, hm, hpositions⟩ := h m' hm'
  refine weighed_eq_ok_iff.2 ⟨m, (registry_eq_load ..).trans hm, ?_⟩
  exact (reweigh_congr (ManagedRoutes.mem_indices_congr hpositions)).1 hweigh

/-- Weights and a change of header routes can be exchanged at a target: no service has two parts, the
positions of the target are those of rules of its own, and a header route that is to be added is not
recorded for it yet. -/
structure Exchangeable (c : Cluster) (key : DocumentKey) (rollout : Rollout)
    (change : HeaderChange) (destinations : List WeightDestination) (t : Target) : Prop where
  /-- No service has two parts. -/
  apart : rollout.KeepsApart destinations
  /-- The positions are those of rules. -/
  sound : ∀ m, c.registry key t.kind = .ok m →
    Layout.Sound ⟨m.positions t.name, c.rules (t.keyIn key.space)⟩ fun _ _ => True
  /-- A header route that is to be added is new. -/
  isNew : ∀ m, c.registry key t.kind = .ok m → change.IsNew m t.name

theorem HeaderChange.IsNew.congr {change : HeaderChange} {m m' : ManagedRoutes} {route : String}
    (hpositions : m'.positions route = m.positions route) (h : change.IsNew m route) :
    change.IsNew m' route := by
  cases change with
  | set name headers =>
    rw [IsNew, ← ManagedRoutes.positions_apply, hpositions]
    exact h
  | remove names => trivial

/-- Targets of one kind that are left as they are leave the managed routes of the kind as they
are. -/
theorem Chain.load_eq {rollout : Rollout} {change : HeaderChange}
    {P : Target → ManagedRoutes → Route → Option RouteChange → Prop} {d d' : Document}
    {ts : List Target} (h : Chain rollout change P d ts d') {kind : RouteKind}
    (hP : ∀ t ∈ ts, t.kind = kind → ∀ m r x, P t m r x → x = none) :
    ManagedRoutes.load d' kind.registryKey = ManagedRoutes.load d kind.registryKey := by
  induction h with
  | nil => rfl
  | @cons d _ t _ _ _ x _ _ ht _ ih =>
    rw [ih fun t' ht' => hP t' (List.mem_cons_of_mem _ ht')]
    by_cases hkind : t.kind = kind
    · rw [hP t (List.mem_cons_self ..) hkind _ _ _ ht]
      rfl
    · exact load_documentAfter_of_ne (Ne.symm hkind) d x

/-- A target that is not among some others has another identity than each of them. -/
theorem Target.identity_ne_of_notMem {ts hs : List Target} (hts : (ts.map Target.identity).Nodup)
    (hsub : hs.Sublist ts) {t : Target} (ht : t ∈ ts) (hmem : t ∉ hs) :
    ∀ t' ∈ hs, t'.identity ≠ t.identity := fun _ ht' hid =>
  hmem (List.inj_on_of_nodup_map hts (hsub.subset ht') ht hid ▸ ht')

theorem Target.keyIn_ne_of_notMem {ts hs : List Target} (hts : (ts.map Target.identity).Nodup)
    (hsub : hs.Sublist ts) {t : Target} (ht : t ∈ ts) (hmem : t ∉ hs) (space : String) :
    ∀ t' ∈ hs, t'.keyIn space ≠ t.keyIn space := fun t' ht' =>
  keyIn_ne (identity_ne_of_notMem hts hsub ht hmem t' ht')

namespace Joint

variable {rollout : Rollout} {settings : Settings} {key : DocumentKey} {change : HeaderChange}
  {desired : Int} {destinations : List WeightDestination} {c c' snapshot : Cluster}
  {es : List Event} {ts hs : List Target}
  (h : Joint rollout settings key change desired destinations c c' snapshot es ts hs)
  (hts : (ts.map Target.identity).Nodup) (hsub : hs.Sublist ts)

include h hts hsub

/-- A target that only the first operation writes: it gets its weights with the positions of the
beginning. -/
theorem weighs_alone {t : Target} (ht : t ∈ ts) (hmem : t ∉ hs) :
    writersOf (t.keyIn key.space) es = [0] ∧ t.name ≠ "" ∧ ∃ r z,
      snapshot.weighed key rollout settings desired destinations t r = .ok z ∧
      c.routes.get? (t.keyIn key.space) = some r ∧ c'.Holds (t.keyIn key.space) z := by
  obtain ⟨hname, r, skip, z, hskip, hweigh, htreats⟩ := h.weighs hts ht
  have hother : eventsOf 1 (es.filter (Event.writes (t.keyIn key.space))) = [] := by
    rw [eventsOf, List.filter_eq_nil_iff]
    intro e he hi
    obtain ⟨he, hwrites⟩ := List.mem_filter.1 he
    obtain ⟨t', ht', hkey⟩ := (h.routes hwrites).2 (mem_eventsOf.2 ⟨he, of_decide_eq_true hi⟩)
    exact Target.keyIn_ne_of_notMem hts hsub ht hmem key.space t' ht' hkey
  obtain ⟨w, honly, hw, -, hr, hholds⟩ := htreats.alone h.history h.genuine h.callers hother
  exact ⟨by rw [writersOf, honly, List.map_singleton, hw], hname, r, z,
    Cluster.weighed_of_reweigh hskip hweigh, hr, hholds⟩

/-- The targets of the second operation, one after the other: the two operations meet there, and the
second one has reached the target with the positions that it had in the beginning. -/
theorem chain_meets :
    Chain rollout change (fun t registry s x => t.name ≠ "" ∧
      ((∃ m, ManagedRoutes.load (c.document key) t.kind.registryKey = .ok m ∧
          registry.positions t.name = m.positions t.name) ∧
        ∀ m', ManagedRoutes.load (c'.document key) t.kind.registryKey = .ok m' →
          m'.positions t.name = (registryAfter registry x).positions t.name) ∧
      ∃ r z, snapshot.weighed key rollout settings desired destinations t r = .ok z ∧
        Meets (t.keyIn key.space) c c' es r z s (x.map RouteChange.after))
      (c.document key) hs (c'.document key) := by
  have hhs : (hs.map Target.identity).Nodup := hts.sublist (hsub.map Target.identity)
  refine ((h.chain hhs).placed hhs).imp fun t ht registry s x hP => ?_
  obtain ⟨⟨hname, htreats⟩, hplaced⟩ := hP
  obtain ⟨-, r, skip, z, hskip, hweigh, htreats₀⟩ := h.weighs hts (hsub.subset ht)
  exact ⟨hname, hplaced, r, z, Cluster.weighed_of_reweigh hskip hweigh,
    meets_of_treats h.history h.genuine h.callers htreats₀ htreats⟩

/-- Every target of the second operation has become what it would have become if the routes had been
given their weights before. -/
theorem weights_first
    (hbehind : ∀ t ∈ hs, writersOf (t.keyIn key.space) es = [1, 0] →
      t.PlacedAs (c'.document key) (snapshot.document key) ∧
        Exchangeable c key rollout change destinations t) :
    Chain rollout change (fun t _ z x => t.name ≠ "" ∧
      (∃ r, c.routes.get? (t.keyIn key.space) = some r ∧
        c.weighed key rollout settings desired destinations t r = .ok z) ∧
      c'.Holds (t.keyIn key.space) (routeAfter z x)) (c.document key) hs (c'.document key) := by
  refine (h.chain_meets hts hsub).congr fun t ht registry s x hon hP => ?_
  obtain ⟨hname, ⟨⟨m, hm, hreached⟩, hlast⟩, r, z, hz, hmeets⟩ := hP
  cases hmeets with
  | apart hwriters hnone hr _ hholds =>
    obtain rfl : x = none := Option.map_eq_none_iff.1 hnone
    have hz' := Cluster.weighed_of_placedAs (h.placedAs hwriters) hz
    exact ⟨z, none, HeaderChange.on_eq_none hon z, ⟨hname, ⟨r, hr, hz'⟩, hholds⟩, rfl⟩
  | @before after v hwriters hafter hr hs hholds =>
    obtain ⟨v', rfl⟩ : ∃ v', z = s.withVersion v' := ⟨z.version, by rw [hs]; rfl⟩
    obtain ⟨x', hx', hregistry, hroute⟩ := HeaderChange.on_ok_withVersion hon v'
    have hz' := Cluster.weighed_of_placedAs (h.placedAs hwriters) hz
    refine ⟨_, x', hx', ⟨hname, ⟨r, hr, hz'⟩, ?_⟩, hregistry⟩
    rw [hroute, routeAfter, hafter]
    exact hholds
  | @behind after v hwriters hafter hs hr hholds =>
    subst hr
    obtain ⟨hplaced, hexchange⟩ := hbehind t ht hwriters
    have hs' : c.rules (t.keyIn key.space) = s.rules := by rw [Cluster.rules, hs]; rfl
    have hm' : c.registry key t.kind = .ok m := (Cluster.registry_eq_load ..).trans hm
    have hafter' : routeAfter s x = after := by rw [routeAfter, hafter]; rfl
    -- the positions that the weights were set with are those that the change has left
    obtain ⟨m', hm'', hweigh⟩ := Cluster.weighed_eq_ok_iff.1
      (Cluster.weighed_of_placedAs hplaced (Cluster.weighed_withVersion after.version hz))
    have hpositions := hlast m' ((Cluster.registry_eq_load ..).symm.trans hm'')
    have hsound := hexchange.sound m hm'
    rw [hs', ← hreached] at hsound
    obtain ⟨z', x', hz', hx', hregistry, hroute⟩ := weigh_of_change hon hsound
      ((hexchange.isNew m hm').congr hreached) hexchange.apart
      ((reweigh_congr (ManagedRoutes.mem_indices_congr hpositions)).1 (hafter' ▸ hweigh))
    refine ⟨z', x', hx', ⟨hname, ⟨s, hs, Cluster.weighed_eq_ok_iff.2 ⟨m, hm', ?_⟩⟩, ?_⟩, hregistry⟩
    · exact (reweigh_congr (ManagedRoutes.mem_indices_congr hreached)).1 hz'
    · rw [hroute]
      exact hholds

/-- Every target of the second operation has become what it would have become if the routes had been
given their weights afterwards. -/
theorem headers_first
    (hnot : ∀ t ∈ hs, writersOf (t.keyIn key.space) es ≠ [0, 1]) :
    Chain rollout change (fun t _ r x => t.name ≠ "" ∧ c.routes.get? (t.keyIn key.space) = some r ∧
      ∃ z, snapshot.weighed key rollout settings desired destinations t (routeAfter r x) = .ok z ∧
        c'.Holds (t.keyIn key.space) z) (c.document key) hs (c'.document key) := by
  refine (h.chain_meets hts hsub).congr fun t ht registry s x hon hP => ?_
  obtain ⟨hname, -, r, z, hz, hmeets⟩ := hP
  cases hmeets with
  | apart _ hnone hr _ hholds =>
    obtain rfl : x = none := Option.map_eq_none_iff.1 hnone
    exact ⟨r, none, HeaderChange.on_eq_none hon r, ⟨hname, hr, z, hz, hholds⟩, rfl⟩
  | before hwriters => exact absurd hwriters (hnot t ht)
  | @behind after v hwriters hafter hs hr hholds =>
    subst hr
    refine ⟨s, x, hon, ⟨hname, hs, _, ?_, hholds.withVersion after.version⟩, rfl⟩
    have hz' := Cluster.weighed_withVersion after.version hz
    rw [routeAfter, hafter]
    exact hz'

/-- If the second operation is never the last to write a route, and the first one has never read
positions that it changes then, the positions that the first one has read are those of the end. -/
theorem placedAs_last
    (hnot : ∀ t ∈ hs, writersOf (t.keyIn key.space) es ≠ [0, 1])
    (hfresh : ∀ t ∈ hs, writersOf (t.keyIn key.space) es = [1, 0] →
      t.PlacedAs (c'.document key) (snapshot.document key)) {t : Target} (ht : t ∈ ts) :
    t.PlacedAs (c'.document key) (snapshot.document key) := by
  by_cases hwriters : t ∈ hs ∧ writersOf (t.keyIn key.space) es = [1, 0]
  · exact hfresh t hwriters.1 hwriters.2
  have hchain := h.chain_meets hts hsub
  -- the second operation leaves the positions of the target as they are
  obtain ⟨hfirst, hkept⟩ : writersOf (t.keyIn key.space) es = [0] ∧
      t.PlacedAs (c.document key) (c'.document key) := by
    by_cases hmem : t ∈ hs
    · obtain ⟨registry, s, x, -, -, ⟨⟨m, hm, hreached⟩, hlast⟩, r, z, -, hmeets⟩ := hchain.of_mem hmem
      cases hmeets with
      | apart hfirst hnone =>
        obtain rfl : x = none := Option.map_eq_none_iff.1 hnone
        exact ⟨hfirst, fun m' hm' => ⟨m, hm, (hlast m' hm').trans hreached⟩⟩
      | before hwriters' => exact absurd hwriters' (hnot t hmem)
      | behind hwriters' => exact absurd ⟨hmem, hwriters'⟩ hwriters
    · have hother := Target.identity_ne_of_notMem hts hsub ht hmem
      exact ⟨(h.weighs_alone hts hsub ht hmem).1, fun m' hm' => hchain.positions_of_notMem hother hm'⟩
  intro m hm
  obtain ⟨m₀, hm₀, hsame⟩ := h.placedAs hfirst m hm
  obtain ⟨m', hm'⟩ : ∃ m', ManagedRoutes.load (c'.document key) t.kind.registryKey = .ok m' := by
    by_cases hother : ∃ t' ∈ hs, t'.kind = t.kind ∧ writersOf (t'.keyIn key.space) es = [1, 0]
    · obtain ⟨t', ht', hkind, hwriters'⟩ := hother
      obtain ⟨m', hm', -⟩ := hfresh t' ht' hwriters' m (hkind ▸ hm)
      exact ⟨m', hkind ▸ hm'⟩
    · refine ⟨m₀, (hchain.load_eq fun t' ht' hkind _ _ x hP => ?_).trans hm₀⟩
      obtain ⟨-, -, _, _, -, hmeets⟩ := hP
      cases hmeets with
      | apart _ hnone => exact Option.map_eq_none_iff.1 hnone
      | before hwriters' => exact absurd hwriters' (hnot t' ht')
      | behind hwriters' => exact absurd ⟨t', ht', hkind, hwriters'⟩ hother
  obtain ⟨m₁, hm₁, hkept⟩ := hkept m' hm'
  cases hm₀.symm.trans hm₁
  exact ⟨m', hm', hsame.trans hkept.symm⟩

end Joint

end CanaryRouting
