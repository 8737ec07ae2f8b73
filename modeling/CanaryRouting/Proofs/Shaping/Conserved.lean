import CanaryRouting.Proofs.Shaping.Repeated
import Mathlib.Data.List.Nodup
import Mathlib.Algebra.BigOperators.Group.List.Basic

/-!
# Traffic is conserved

If the further services ask for no more than the canary is to get, and the primary rule has one
reference to the canary, one to the stable service and at most one to each further service, then the
weights of the primary rule add up to a hundred after a request (`conserved_of_distribute`). The
stable service has what the desired weight leaves, and the other references share the desired weight.

The reason is that the primary rule then references each of these services exactly once, whichever
references were dropped or added on the way (`perm_names_primary`), and that the weight of a reference
depends on its service only (`weight_of_mem_primary`).
-/

namespace CanaryRouting

/-- The weights of references, added up; one without a weight does not count. -/
def totalWeight (refs : List BackendRef) : Int := (refs.filterMap BackendRef.weight).sum

/-- The references all have weights, which add up to a hundred: the one to the stable service has
what the desired weight leaves, and those to the canary and the further services share the desired
weight. -/
structure Balanced (canary stable : String) (desired : Int) (destinations : List WeightDestination)
    (refs : List BackendRef) : Prop where
  /-- No reference is without a weight. -/
  weighed : ∀ b ∈ refs, b.weight.isSome
  /-- The weights add up to a hundred. -/
  total : totalWeight refs = 100
  /-- There is one reference to the stable service, which has the rest. -/
  stableShare : (refs.filter fun b => b.name = stable).map BackendRef.weight = [some (100 - desired)]
  /-- The canary and the further services have the desired weight together. -/
  canaryShare :
    totalWeight (refs.filter fun b => b.name = canary ∨ isRequested destinations b.name) = desired

/-- How often a rule references a service. -/
def Rule.mentions (r : Rule) (service : String) : Nat := (r.refs.map BackendRef.name).count service

/-! ### References by name -/

section

variable {refs : List BackendRef} {names : List String} {weight? : String → Option Int}

/-- If weights depend on the names only, those of some references are those of their names. -/
theorem perm_weights (hnames : (refs.map BackendRef.name).Perm names)
    (hweights : ∀ b ∈ refs, b.weight = weight? b.name) (q : String → Bool) :
    ((refs.filter fun b => q b.name).map BackendRef.weight).Perm ((names.filter q).map weight?) := by
  have hmap : (refs.filter fun b => q b.name).map BackendRef.weight =
      ((refs.map BackendRef.name).filter q).map weight? := by
    rw [List.filter_map, List.map_map]
    apply List.map_congr_left
    intro b hb
    exact hweights b (List.mem_filter.1 hb).1
  rw [hmap]
  exact (hnames.filter q).map weight?

theorem totalWeight_of_perm {weights : List (Option Int)}
    (h : (refs.map BackendRef.weight).Perm weights) :
    totalWeight refs = (weights.filterMap id).sum := by
  have hmap : refs.filterMap BackendRef.weight = (refs.map BackendRef.weight).filterMap id := by
    rw [List.filterMap_map]
    rfl
  rw [totalWeight, hmap]
  exact (h.filterMap id).sum_eq

end

/-- Names that occur often enough, but not twice, with those that are missing. -/
theorem perm_filter_append_filter {canary stable : String} {names services : List String}
    (hne : canary ≠ stable) (hnodup : services.Nodup) (hcanary : canary ∉ services)
    (hstable : stable ∉ services) (honce : names.count canary = 1) (honce' : names.count stable = 1)
    (hfew : ∀ s ∈ services, names.count s ≤ 1) :
    ((names.filter fun s => s = canary ∨ s = stable ∨ s ∈ services) ++
      services.filter fun s => s ∉ names).Perm (canary :: stable :: services) := by
  have hmem : canary ∈ names := List.count_pos_iff.1 (by omega)
  have hmem' : stable ∈ names := List.count_pos_iff.1 (by omega)
  have hkept : (names.filter fun s => s = canary ∨ s = stable ∨ s ∈ services).Nodup := by
    rw [List.nodup_iff_count_le_one]
    intro s
    by_cases hs : s = canary ∨ s = stable ∨ s ∈ services
    · rw [List.count_filter (by simpa using hs)]
      rcases hs with rfl | rfl | hs
      · omega
      · omega
      · exact hfew s hs
    · rw [List.count_eq_zero_of_not_mem (by simp [hs])]
      omega
  rw [List.perm_ext_iff_of_nodup]
  case d₁ =>
    apply hkept.append (hnodup.filter _)
    intro s hs hs'
    simp only [List.mem_filter, decide_eq_true_eq] at hs hs'
    exact hs'.2 hs.1
  case d₂ => simp [hne, hcanary, hstable, hnodup]
  intro s
  simp only [List.mem_append, List.mem_filter, decide_eq_true_eq, List.mem_cons]
  by_cases hs : s ∈ names
  · simp [hs]
  · have hc : s ≠ canary := fun he => hs (he ▸ hmem)
    have hs' : s ≠ stable := fun he => hs (he ▸ hmem')
    simp [hs, hc, hs']

/-! ### The primary rule -/

section

variable {canary stable : String} {desired : Int} {destinations : List WeightDestination}
  {skip : List Nat} {rules rules' : List Rule} {p : Nat} {r r' : Rule} {kind : RouteKind}

/-- The share of a further service is its weight. -/
theorem shareOf?_service (hnodup : (destinations.map WeightDestination.service).Nodup)
    (hapart : ∀ d ∈ destinations, d.service ≠ canary ∧ d.service ≠ stable) {d : WeightDestination}
    (hd : d ∈ destinations) : shareOf? canary stable desired destinations d.service = some d.weight := by
  obtain ⟨d', hfind⟩ : ∃ d', (destinations.find? fun d' => d'.service = d.service) = some d' := by
    rw [← Option.isSome_iff_exists, List.find?_isSome]
    exact ⟨d, hd, by simp⟩
  have hservice : d'.service = d.service := by simpa using List.find?_some hfind
  have hsame : d' = d :=
    List.inj_on_of_nodup_map hnodup (List.mem_of_find?_eq_some hfind) hd hservice
  rw [shareOf?, if_neg (hapart d hd).1, if_neg (hapart d hd).2, hfind, hsame]
  rfl

/-- What the further services get together is what they ask for. -/
theorem extraShare_eq (hpositive : ∀ d ∈ destinations, 0 ≤ d.weight)
    (hsum : (destinations.map WeightDestination.weight).sum ≤ 100) :
    extraShare destinations = (destinations.map WeightDestination.weight).sum := by
  have hmap : destinations.map (fun d => max 0 d.weight) =
      destinations.map WeightDestination.weight := by
    apply List.map_congr_left
    intro d hd
    exact Int.max_eq_right (hpositive d hd)
  rw [extraShare, hmap]
  exact Int.min_eq_left hsum

/-- The canary has what the further services leave of the desired weight. -/
theorem shareOf?_canary (hle : desired ≤ 100) (hpositive : ∀ d ∈ destinations, 0 ≤ d.weight)
    (hsum : (destinations.map WeightDestination.weight).sum ≤ desired) :
    shareOf? canary stable desired destinations canary =
      some (desired - (destinations.map WeightDestination.weight).sum) := by
  rw [shareOf?, if_pos rfl, extraShare_eq hpositive (by omega), Int.max_eq_right (by omega)]

/-- The stable service has what the desired weight leaves. -/
theorem shareOf?_stable (hne : canary ≠ stable) :
    shareOf? canary stable desired destinations stable = some (100 - desired) := by
  rw [shareOf?, if_neg (Ne.symm hne), if_pos rfl]

theorem filterMap_shareOf? (hnodup : (destinations.map WeightDestination.service).Nodup)
    (hapart : ∀ d ∈ destinations, d.service ≠ canary ∧ d.service ≠ stable) :
    (destinations.map WeightDestination.service).filterMap
        (shareOf? canary stable desired destinations) =
      destinations.map WeightDestination.weight := by
  rw [List.filterMap_map, ← List.filterMap_eq_map]
  apply List.filterMap_congr
  intro d hd
  exact shareOf?_service hnodup hapart hd

/-- Without the stable service. -/
theorem filter_isRequested (hne : canary ≠ stable)
    (hapart : ∀ d ∈ destinations, d.service ≠ canary ∧ d.service ≠ stable) :
    (canary :: stable :: destinations.map WeightDestination.service).filter
        (fun s => s = canary ∨ isRequested destinations s) =
      canary :: destinations.map WeightDestination.service := by
  have hunrequested : isRequested destinations stable = false := by
    simpa [isRequested] using fun d hd => (hapart d hd).2
  rw [List.filter_cons_of_pos (by simp), List.filter_cons_of_neg, List.filter_eq_self.2]
  · intro s hs
    obtain ⟨d, hd, rfl⟩ := List.mem_map.1 hs
    simpa [isRequested] using .inr ⟨d, hd, rfl⟩
  · simp [Ne.symm hne, hunrequested]

namespace Distributed

variable (h : Distributed canary stable desired destinations skip rules rules' p r)
  (hr' : rules'[p]? = some r')

include h hr'

/-- The references of the primary rule. -/
theorem refs_primary : ∃ first : BackendRef, r'.refs =
    ((r.refs.filter fun b => (shareOf? canary stable desired destinations b.name).isSome).map
      fun b => b.withWeight (shareOf? canary stable desired destinations b.name)) ++
    (destinations.filter fun d => !r.references d.service).map
      fun d => (first.retarget d.service).withWeight (some d.weight) := by
  obtain ⟨first, -, hprimary⟩ := h.primary
  obtain rfl := Option.some.inj (hr'.symm.trans hprimary)
  exact ⟨first, rfl⟩

/-- The weight of a reference in the primary rule. -/
theorem weight_of_mem_primary (hnodup : (destinations.map WeightDestination.service).Nodup)
    (hapart : ∀ d ∈ destinations, d.service ≠ canary ∧ d.service ≠ stable) {b : BackendRef}
    (hb : b ∈ r'.refs) : b.weight = shareOf? canary stable desired destinations b.name := by
  obtain ⟨first, hrefs⟩ := h.refs_primary hr'
  rw [hrefs, List.mem_append, List.mem_map, List.mem_map] at hb
  rcases hb with ⟨b, -, rfl⟩ | ⟨d, hd, rfl⟩
  · rfl
  · exact (shareOf?_service hnodup hapart (List.mem_filter.1 hd).1).symm

/-- The names of the references in the primary rule. -/
theorem names_primary : r'.refs.map BackendRef.name =
    ((r.refs.map BackendRef.name).filter fun s =>
      s = canary ∨ s = stable ∨ s ∈ destinations.map WeightDestination.service) ++
    (destinations.map WeightDestination.service).filter fun s =>
      s ∉ r.refs.map BackendRef.name := by
  obtain ⟨first, hrefs⟩ := h.refs_primary hr'
  rw [hrefs, List.map_append, List.map_map, List.map_map, List.filter_map, List.filter_map]
  congr 1
  · have hkept : ∀ b ∈ r.refs, (shareOf? canary stable desired destinations b.name).isSome =
        decide (b.name = canary ∨ b.name = stable ∨
          b.name ∈ destinations.map WeightDestination.service) := by
      intro b _
      rw [Bool.eq_iff_iff, isSome_shareOf?_iff]
      simp [isRequested]
    rw [List.filter_congr hkept]
    rfl
  · have hnew : ∀ d ∈ destinations, (!r.references d.service) =
        decide (d.service ∉ r.refs.map BackendRef.name) := by
      intro d _
      rw [Bool.eq_iff_iff]
      simp [Rule.references]
    rw [List.filter_congr hnew]
    rfl

/-- The primary rule references the canary, the stable service and each further service once. -/
theorem perm_names_primary (hne : canary ≠ stable)
    (hnodup : (destinations.map WeightDestination.service).Nodup)
    (hapart : ∀ d ∈ destinations, d.service ≠ canary ∧ d.service ≠ stable)
    (hcanary : r.mentions canary = 1) (hstable : r.mentions stable = 1)
    (hfew : ∀ d ∈ destinations, r.mentions d.service ≤ 1) :
    (r'.refs.map BackendRef.name).Perm
      (canary :: stable :: destinations.map WeightDestination.service) := by
  rw [h.names_primary hr']
  apply perm_filter_append_filter hne hnodup _ _ hcanary hstable
  · intro s hs
    obtain ⟨d, hd, rfl⟩ := List.mem_map.1 hs
    exact hfew d hd
  · intro hmem
    obtain ⟨d, hd, he⟩ := List.mem_map.1 hmem
    exact (hapart d hd).1 he
  · intro hmem
    obtain ⟨d, hd, he⟩ := List.mem_map.1 hmem
    exact (hapart d hd).2 he

end Distributed

/-- A rule that references a service references it at least once. -/
theorem references_of_mentions {service : String} (h : r.mentions service = 1) :
    r.references service := by
  have hmem : service ∈ r.refs.map BackendRef.name :=
    List.count_pos_iff.1 (by rw [← Rule.mentions, h]; exact Nat.one_pos)
  simpa [Rule.references] using hmem

section

variable (hne : canary ≠ stable) (hle : desired ≤ 100)
  (hnodup : (destinations.map WeightDestination.service).Nodup)
  (hapart : ∀ d ∈ destinations, d.service ≠ canary ∧ d.service ≠ stable)
  (hpositive : ∀ d ∈ destinations, 0 ≤ d.weight)
  (hsum : (destinations.map WeightDestination.weight).sum ≤ desired)

include hne hle hnodup hapart hpositive hsum

/-- If each service is referenced once, and has its share, the references are balanced. -/
theorem balanced_of_perm {refs : List BackendRef}
    (hnames : (refs.map BackendRef.name).Perm
      (canary :: stable :: destinations.map WeightDestination.service))
    (hweights : ∀ b ∈ refs, b.weight = shareOf? canary stable desired destinations b.name) :
    Balanced canary stable desired destinations refs := by
  have hperm := perm_weights hnames hweights
  have hcanary : shareOf? canary stable desired destinations canary = _ :=
    shareOf?_canary hle hpositive hsum
  have hstable : shareOf? canary stable desired destinations stable = _ := shareOf?_stable hne
  have hothers := @filterMap_shareOf? canary stable desired destinations hnodup hapart
  constructor
  case weighed =>
    intro b hb
    rw [hweights b hb, isSome_shareOf?_iff]
    have hname := hnames.mem_iff.1 (List.mem_map_of_mem hb)
    simpa [isRequested] using hname
  case total =>
    have hall := hperm fun _ => true
    simp only [List.filter_true] at hall
    rw [totalWeight_of_perm hall, List.filterMap_map]
    simp [hcanary, hstable, hothers]
  case stableShare =>
    have hone := hperm fun s => s = stable
    have hnone : (destinations.map WeightDestination.service).filter (· = stable) = [] := by
      simpa using fun d hd => (hapart d hd).2
    simp only [List.filter_cons, hne, hnone] at hone
    simpa [hstable] using hone
  case canaryShare =>
    have hrest := hperm fun s => s = canary ∨ isRequested destinations s
    rw [filter_isRequested hne hapart] at hrest
    rw [totalWeight_of_perm hrest, List.filterMap_map]
    simp [hcanary, hothers]

/-- A request gives all references of the primary rule weights, and these are balanced. -/
theorem conserved_of_distribute (kind : RouteKind) (hdesired : 0 ≤ desired)
    (hprimary : IsPrimary canary stable skip rules p r) (hcanary : r.mentions canary = 1)
    (hstable : r.mentions stable = 1) (hfew : ∀ d ∈ destinations, r.mentions d.service ≤ 1) :
    ∃ rules' r', distribute kind rules canary stable desired destinations skip = .ok rules' ∧
      IsPrimary canary stable skip rules' p r' ∧
      Balanced canary stable desired destinations r'.refs := by
  obtain ⟨rules', h⟩ : ∃ rules', distribute kind rules canary stable desired destinations skip =
      .ok rules' := by
    have hmem := List.mem_of_getElem? hprimary.get
    exact distribute_isOk_iff.2 ⟨⟨r, hmem, references_of_mentions hcanary⟩,
      ⟨r, hmem, references_of_mentions hstable⟩,
      p, r, hprimary.get, hprimary.notSkipped, hprimary.references⟩
  obtain ⟨q, r₁, hprimary₁, hrules⟩ := exists_weighed_of_distribute h
  obtain ⟨rfl, rfl⟩ := hprimary.unique hprimary₁
  obtain ⟨q, r₂, hprimary₂, hdistributed⟩ :=
    distributed_of_distribute hne hdesired hnodup hapart h
  obtain ⟨rfl, rfl⟩ := hprimary.unique hprimary₂
  have hweighed := hprimary.weighed hrules
  refine ⟨rules', _, h, hweighed, ?_⟩
  apply balanced_of_perm hne hle hnodup hapart hpositive hsum
  · exact hdistributed.perm_names_primary hweighed.get hne hnodup hapart hcanary hstable hfew
  · intro b hb
    exact hdistributed.weight_of_mem_primary hweighed.get hnodup hapart hb

end

end

/-- A rule of the two services that references one of two previews, and two services besides. -/
def mixedRule : Rule :=
  { backendRefs := some [
      { name := "mirror", weight := some 1 },
      { name := "stable", port := some 80 },
      { name := "preview", weight := some 60 },
      { name := "gone", weight := some 5 },
      { name := "canary", port := some 80, weight := some 40 }] }

theorem conserved_of_distribute_mixed :
    ∃ rules' r', distribute .http [mixedRule] "canary" "stable" 30
        [{ service := "preview", weight := 10 }, { service := "shadow", weight := 20 }] [] =
          .ok rules' ∧
      IsPrimary "canary" "stable" [] rules' 0 r' ∧
      Balanced "canary" "stable" 30
        [{ service := "preview", weight := 10 }, { service := "shadow", weight := 20 }] r'.refs := by
  have hprimary : IsPrimary "canary" "stable" [] [mixedRule] 0 mixedRule :=
    ⟨rfl, by decide, .inl (by decide), by simp⟩
  exact conserved_of_distribute (by decide) (by decide) (by decide) (by decide) (by decide)
    (by decide) .http (by decide) hprimary (by decide) (by decide) (by decide)

end CanaryRouting
