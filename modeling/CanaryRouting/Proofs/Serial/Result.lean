import CanaryRouting.Proofs.Serial.Runs
import CanaryRouting.Proofs.Serial.Targets

/-!
# What two operations leave

One operation has set weights and another one has changed header routes, side by side. What is
stored in the end is compared with what the two leave one after the other: that is the same, apart
from versions (`Cluster.SameAs`), if the weights come first (`Joint.sameAs_weights_first`), or if the
header routes come first (`Joint.sameAs_headers_first`).
-/

namespace CanaryRouting

open Router

/-- The same is stored, apart from versions. -/
structure Cluster.SameAs (c c' : Cluster) : Prop where
  /-- The same routes. -/
  routes : ∀ k, (c'.routes.get? k).map Route.unversioned = (c.routes.get? k).map Route.unversioned
  /-- The same documents. -/
  documents : ∀ k, (c'.documents.get? k).map (Document.withVersion · none) =
    (c.documents.get? k).map (Document.withVersion · none)

theorem Cluster.holds_iff {c : Cluster} {k : RouteKey} {r : Route} :
    c.Holds k r ↔ (c.routes.get? k).map Route.unversioned = some r.unversioned := by
  rw [Option.map_eq_some_iff]
  rfl

theorem Cluster.Holds.listed {c : Cluster} {k : RouteKey} {r : Route} (h : c.Holds k r)
    (s : Settings) : (c.routes.get? k).map (Route.listed s) = some (r.listed s) := by
  obtain ⟨stored, hstored, hsame⟩ := h
  rw [hstored, Route.withVersion_of_unversioned hsame]
  rfl

/-- A document that is stored stays stored. -/
theorem Cluster.History.isSome_document {c c' : Cluster} {es : List Event} (h : c.History es c')
    {k : DocumentKey} (hk : (c.documents.get? k).isSome) : (c'.documents.get? k).isSome := by
  induction h with
  | nil => exact hk
  | @cons c c' i r es _ ih =>
    refine ih ?_
    have heffect := effect_respond r c
    generalize (Cluster.respond r c).2 = c₁ at heffect ⊢
    cases heffect with
    | none => exact hk
    | route => exact hk
    | document =>
      rw [KeyMap.get?_insert]
      split
      · rfl
      · exact hk

/-! ### One operation -/

section

variable {rollout : Rollout} {settings : Settings} {key : DocumentKey} {change : HeaderChange}
  {desired : Int} {destinations : List WeightDestination} {c c₁ c₂ c' snapshot : Cluster}
  {es : List Event} {ts hs : List Target}

theorem Weighed.document (h : Weighed rollout settings key desired destinations c c' ts)
    (k : DocumentKey) : c'.document k = c.document k := by
  rw [Cluster.document, h.documents, Cluster.document]

/-- The routes of other targets are not touched. -/
theorem Progress.routes_of_ne (h : Progress rollout change key c c' none hs none []) {k : RouteKey}
    (hk : ∀ t ∈ hs, t.keyIn key.space ≠ k) : c'.routes.get? k = c.routes.get? k :=
  h.routes k (by simpa using hk)

theorem Weighed.listedAs (h : Weighed rollout settings key desired destinations c c' ts) :
    c.ListedAs settings c' := by
  intro k
  by_cases hk : ∃ t ∈ ts, t.keyIn key.space = k
  · obtain ⟨t, ht, rfl⟩ := hk
    obtain ⟨r, z, v, hr, hz, hstored⟩ := h.weighed t ht
    obtain ⟨_, -, hweigh⟩ := Cluster.weighed_eq_ok_iff.1 hz
    have hlisted := listed_of_reweigh hweigh
    rw [hr, hstored]
    exact congrArg some hlisted
  · rw [h.routes k fun t ht e => hk ⟨t, ht, e⟩]

theorem Progress.listedAs (h : Progress rollout change key c c' none hs none []) :
    c.ListedAs settings c' := by
  intro k
  by_cases hk : ∃ t ∈ hs, t.keyIn key.space = k
  · obtain ⟨t, ht, rfl⟩ := hk
    obtain ⟨registry, route, x, hon, hr, hholds⟩ := (carried_iff_chain.1 h.carried).of_mem ht
    rw [hr, hholds.listed]
    cases x with
    | none => rfl
    | some routeChange => exact congrArg some (listed_of_on hon settings)
  · rw [h.routes_of_ne fun t ht e => hk ⟨t, ht, e⟩]

namespace Joint

/-! ### What is left -/

/-- There is a registry document in the end. -/
theorem isSome_document
    (h : Joint rollout settings key change desired destinations c c' snapshot es ts hs) :
    (c'.documents.get? key).isSome := by
  obtain ⟨lists, opening, rest, d, d', hes, -, hopen, -⟩ := h.altering
  -- after the event that opens the document it is stored
  obtain ⟨e, he, hstored⟩ : ∃ e ∈ es, ((Cluster.respond e.request e.before).2.documents.get? key).isSome := by
    have hmem : ∀ e ∈ opening, e ∈ es := fun e he =>
      (mem_eventsOf.1 (hes ▸ List.mem_append_left _ (List.mem_append_right _ he))).1
    cases hopen with
    | @read i d before hd =>
      refine ⟨_, hmem _ (List.mem_cons_self ..), ?_⟩
      rw [Cluster.get?_respond_document_of_ne (by simp [Request.documentKey?]), hd]
      rfl
    | @create i j e v before before' hd =>
      have hcreate := hmem _ (List.mem_cons_of_mem _ (List.mem_cons_self ..))
      refine ⟨_, hcreate, ?_⟩
      have hanswer := (h.genuine _ hcreate).answer
      simp only at hanswer
      have hkey : ∀ k, (Request.createDocument key.space key.name).documentKey? = some k → k = key :=
        fun k hk => by cases hk; rfl
      rw [Cluster.get?_respond_document hkey j, ← hanswer]
      rfl
  obtain ⟨es₁, es₂, hsplit⟩ := List.append_of_mem he
  have hhistory := h.history
  rw [hsplit] at hhistory
  exact hhistory.of_middle.2.2.isSome_document hstored

/-- A route of no target stays as it is. -/
theorem routes_of_notMem
    (h : Joint rollout settings key change desired destinations c c' snapshot es ts hs)
    (hsub : hs.Sublist ts) {k : RouteKey} (hk : ∀ t ∈ ts, t.keyIn key.space ≠ k) :
    c'.routes.get? k = c.routes.get? k := by
  refine h.history.routes fun e he hwrites => ?_
  rcases h.caller_cases he with hi | hi
  · obtain ⟨t, ht, hkey⟩ := (h.routes hwrites).1 (mem_eventsOf.2 ⟨he, hi⟩)
    exact hk t ht hkey
  · obtain ⟨t, ht, hkey⟩ := (h.routes hwrites).2 (mem_eventsOf.2 ⟨he, hi⟩)
    exact hk t (hsub.subset ht) hkey

/-- What is left is what is left otherwise if that is so for every target and for the document. -/
theorem sameAs (h : Joint rollout settings key change desired destinations c c' snapshot es ts hs)
    (hsub : hs.Sublist ts)
    (htargets : ∀ t ∈ ts, ∃ r, c'.Holds (t.keyIn key.space) r ∧ c₂.Holds (t.keyIn key.space) r)
    (hroutes : ∀ k, (∀ t ∈ ts, t.keyIn key.space ≠ k) → c₂.routes.get? k = c.routes.get? k)
    (hdocument : c₂.document key = c'.document key) (hstored : (c₂.documents.get? key).isSome)
    (hdocuments : ∀ k, k ≠ key → c₂.documents.get? k = c.documents.get? k) : c'.SameAs c₂ where
  routes k := by
    by_cases hk : ∃ t ∈ ts, t.keyIn key.space = k
    · obtain ⟨t, ht, rfl⟩ := hk
      obtain ⟨r, hholds, hholds'⟩ := htargets t ht
      exact (Cluster.holds_iff.1 hholds').trans (Cluster.holds_iff.1 hholds).symm
    · have hk : ∀ t ∈ ts, t.keyIn key.space ≠ k := fun t ht e => hk ⟨t, ht, e⟩
      rw [hroutes k hk, h.routes_of_notMem hsub hk]
  documents k := by
    by_cases hk : k = key
    · obtain ⟨d, hd⟩ := Option.isSome_iff_exists.1 h.isSome_document
      obtain ⟨d₂, hd₂⟩ := Option.isSome_iff_exists.1 hstored
      rw [Cluster.document_of_get? hd, Cluster.document_of_get? hd₂] at hdocument
      rw [hk, hd, hd₂, Option.map_some, Option.map_some, hdocument]
    · rw [hdocuments k hk, h.documents hk]

/-! ### Weights first -/

section

variable (h : Joint rollout settings key change desired destinations c c' snapshot es ts hs)
  (hts : (ts.map Target.identity).Nodup) (hsub : hs.Sublist ts)
  (hbehind : ∀ t ∈ hs, writersOf (t.keyIn key.space) es = [1, 0] →
    t.PlacedAs (c'.document key) (snapshot.document key) ∧
      Exchangeable c key rollout change destinations t)

include h hts hsub hbehind

/-- In the beginning every target can be given its weights. -/
theorem weighable {t : Target} (ht : t ∈ ts) :
    t.name ≠ "" ∧ ∃ r z, c.routes.get? (t.keyIn key.space) = some r ∧
      c.weighed key rollout settings desired destinations t r = .ok z := by
  by_cases hmem : t ∈ hs
  · obtain ⟨_, z, _, _, hname, ⟨r, hr, hz⟩, -⟩ := (h.weights_first hts hsub hbehind).of_mem hmem
    exact ⟨hname, r, z, hr, hz⟩
  · obtain ⟨hwriters, hname, r, z, hz, hr, -⟩ := h.weighs_alone hts hsub ht hmem
    exact ⟨hname, r, z, hr, Cluster.weighed_of_placedAs (h.placedAs hwriters) hz⟩

/-- The second operation makes what is left of routes that have been given their weights. -/
theorem chain_weighed
    (hweighed : Weighed rollout settings key desired destinations c c₁ ts) :
    Chain rollout change (fun t _ route x => (t.name ≠ "" ∧
      c₁.routes.get? (t.keyIn key.space) = some route) ∧
        c'.Holds (t.keyIn key.space) (routeAfter route x)) (c₁.document key) hs (c'.document key) := by
  rw [hweighed.document]
  refine (h.weights_first hts hsub hbehind).congr fun t ht _ z x hon hP => ?_
  obtain ⟨hname, ⟨r, hr, hz⟩, hholds⟩ := hP
  obtain ⟨r', z', v, hr', hz', hstored⟩ := hweighed.weighed t (hsub.subset ht)
  cases hr.symm.trans hr'
  cases hz.symm.trans hz'
  obtain ⟨x', hon', hregistry, hroute⟩ := HeaderChange.on_ok_withVersion hon v
  exact ⟨_, x', hon', ⟨⟨hname, hstored⟩, hroute ▸ hholds⟩, hregistry⟩

/-- What is left is what the second operation leaves after the first one. -/
theorem sameAs_weights_first
    (hweighed : Weighed rollout settings key desired destinations c c₁ ts)
    (hprogress : Progress rollout change key c₁ c₂ none hs none [])
    (hstored : (c₂.documents.get? key).isSome) : c'.SameAs c₂ := by
  obtain ⟨hdocument, hboth⟩ := (h.chain_weighed hts hsub hbehind hweighed).and
    (carried_iff_chain.1 hprogress.carried) fun t _ _ _ _ _ _ hP hQ =>
      Option.some.inj (hQ.1.symm.trans hP.1.2)
  refine h.sameAs hsub (fun t ht => ?_) (fun k hk => ?_) hdocument hstored fun k hk => ?_
  · by_cases hmem : t ∈ hs
    · obtain ⟨_, route, x, -, ⟨-, hholds⟩, -, hholds'⟩ := hboth.of_mem hmem
      exact ⟨routeAfter route x, hholds, hholds'⟩
    · obtain ⟨hwriters, -, r, z, hz, hr, hholds⟩ := h.weighs_alone hts hsub ht hmem
      obtain ⟨r', z', v, hr', hz', hstored'⟩ := hweighed.weighed t ht
      cases hr.symm.trans hr'
      cases (Cluster.weighed_of_placedAs (h.placedAs hwriters) hz).symm.trans hz'
      have hkey := Target.keyIn_ne_of_notMem hts hsub ht hmem key.space
      exact ⟨z, hholds, _, (hprogress.routes_of_ne hkey).trans hstored', rfl⟩
  · rw [hprogress.routes_of_ne fun t ht => hk t (hsub.subset ht), hweighed.routes k hk]
  · rw [hprogress.documents k hk, hweighed.documents]

end

/-! ### Header routes first -/

section

variable (h : Joint rollout settings key change desired destinations c c' snapshot es ts hs)
  (hts : (ts.map Target.identity).Nodup) (hsub : hs.Sublist ts)
  (hnot : ∀ t ∈ hs, writersOf (t.keyIn key.space) es ≠ [0, 1])
  (hfresh : ∀ t ∈ hs, writersOf (t.keyIn key.space) es = [1, 0] →
    t.PlacedAs (c'.document key) (snapshot.document key))

include h hts hsub hnot hfresh

/-- If the second operation has come first, every target can be given its weights then, and these are
what is left. -/
theorem weighable_changed
    (hprogress : Progress rollout change key c c₁ none hs none []) :
    c₁.document key = c'.document key ∧ ∀ t ∈ ts, t.name ≠ "" ∧ ∃ r z,
      c₁.routes.get? (t.keyIn key.space) = some r ∧
      c₁.weighed key rollout settings desired destinations t r = .ok z ∧
      c'.Holds (t.keyIn key.space) z := by
  obtain ⟨hdocument, hboth⟩ := (h.headers_first hts hsub hnot).and
    (carried_iff_chain.1 hprogress.carried) fun t _ _ _ _ _ _ hP hQ =>
      Option.some.inj (hQ.1.symm.trans hP.2.1)
  refine ⟨hdocument, fun t ht => ?_⟩
  have hplaced : t.PlacedAs (c₁.document key) (snapshot.document key) :=
    hdocument ▸ h.placedAs_last hts hsub hnot hfresh ht
  by_cases hmem : t ∈ hs
  · obtain ⟨_, route, x, -, ⟨hname, -, z, hz, hholds⟩, -, stored, hstored, hsame⟩ := hboth.of_mem hmem
    obtain ⟨v, rfl⟩ : ∃ v, stored = (routeAfter route x).withVersion v :=
      ⟨_, Route.withVersion_of_unversioned hsame⟩
    exact ⟨hname, _, _, hstored, Cluster.weighed_of_placedAs hplaced
      (Cluster.weighed_withVersion v hz), hholds.withVersion v⟩
  · obtain ⟨-, hname, r, z, hz, hr, hholds⟩ := h.weighs_alone hts hsub ht hmem
    have hkey := Target.keyIn_ne_of_notMem hts hsub ht hmem key.space
    exact ⟨hname, r, z, (hprogress.routes_of_ne hkey).trans hr,
      Cluster.weighed_of_placedAs hplaced hz, hholds⟩

/-- What is left is what the first operation leaves after the second one. -/
theorem sameAs_headers_first
    (hprogress : Progress rollout change key c c₁ none hs none [])
    (hstored : (c₁.documents.get? key).isSome)
    (hweighed : Weighed rollout settings key desired destinations c₁ c₂ ts) : c'.SameAs c₂ := by
  obtain ⟨hdocument, hweighable⟩ := h.weighable_changed hts hsub hnot hfresh hprogress
  refine h.sameAs hsub (fun t ht => ?_) (fun k hk => ?_) ?_ (hweighed.documents ▸ hstored)
    fun k hk => ?_
  · obtain ⟨-, r, z, hr, hz, hholds⟩ := hweighable t ht
    obtain ⟨r', z', v, hr', hz', hstored'⟩ := hweighed.weighed t ht
    cases hr.symm.trans hr'
    cases hz.symm.trans hz'
    exact ⟨z, hholds, _, hstored', rfl⟩
  · rw [hweighed.routes k hk]
    exact hprogress.routes_of_ne fun t ht => hk t (hsub.subset ht)
  · rw [hweighed.document, hdocument]
  · rw [hweighed.documents]
    exact hprogress.documents k hk

end

end Joint

end

end CanaryRouting
