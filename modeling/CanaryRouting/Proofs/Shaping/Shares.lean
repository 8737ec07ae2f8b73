import CanaryRouting.Proofs.Shaping.References
import Mathlib.Algebra.Order.BigOperators.Group.List
import Mathlib.Algebra.Order.Ring.Int

/-!
# The exact result of distributing weight

When the canary, the stable service and the further services are all different, it can be said what
a request for weights makes of a list of rules without following its passes: which weight every
reference has afterwards, which references of the primary rule stay, and which are added
(`Distributed`). It is also known for which rules the request succeeds (`distributed_exactly`).

The service computes the shares in 32 bits. That overflows just if what the further services ask for
does not fit together (`splitWeights32?_eq_some_iff`); nothing is said of such a request.
-/

namespace CanaryRouting

/-- What the further services get together: their weights as far as these are positive, and at most
a hundred. -/
def extraShare (destinations : List WeightDestination) : Int :=
  min (destinations.map fun d => max 0 d.weight).sum 100

/-- The primary rule and its position: the first rule outside the rules to skip that references one
of the two services. -/
structure IsPrimary (canary stable : String) (skip : List Nat) (rules : List Rule) (p : Nat)
    (r : Rule) : Prop where
  /-- It stands there. -/
  get : rules[p]? = some r
  /-- It is not passed over. -/
  notSkipped : p ∉ skip
  /-- It references one of the two services. -/
  references : r.references canary ∨ r.references stable
  /-- No such rule comes before it. -/
  first : ∀ i < p, ∀ r', rules[i]? = some r' → i ∉ skip →
    ¬ (r'.references canary ∨ r'.references stable)

section

variable (canary stable : String) (desired : Int) (destinations : List WeightDestination)

/-- The weight of a reference to a service in the primary rule, if the service belongs there. -/
def shareOf? (service : String) : Option Int :=
  if service = canary then some (max 0 (desired - extraShare destinations))
  else if service = stable then some (100 - desired)
  else (destinations.find? fun d => d.service = service).map WeightDestination.weight

/-- The rules `rules'` are what a request for weights is to make of `rules`, of which `r` at `p` is
the primary one. -/
structure Distributed (skip : List Nat) (rules rules' : List Rule) (p : Nat) (r : Rule) : Prop where
  /-- There are as many rules as before. -/
  length : rules'.length = rules.length
  /-- Outside the rules to skip every reference to the canary has what the further services leave
  of the desired weight. -/
  canaryShare : ∀ (i : Nat) (r' : Rule), rules'[i]? = some r' → i ∉ skip →
    Gives canary (max 0 (desired - extraShare destinations)) r'.refs
  /-- Every reference to the stable service has the rest of the hundred. -/
  stableShare : ∀ (i : Nat) (r' : Rule), rules'[i]? = some r' → Gives stable (100 - desired) r'.refs
  /-- Nothing else changes outside the primary rule. -/
  others : ∀ i : Nat, i ≠ p → rules'[i]? = rules[i]?.map fun r => r.mapRefs fun b =>
    if b.name = canary ∧ i ∉ skip then
      b.withWeight (some (max 0 (desired - extraShare destinations)))
    else if b.name = stable then b.withWeight (some (100 - desired))
    else b
  /-- The primary rule keeps its references to the canary, the stable service and the further
  services, in their order and with their weights. Behind them stands, for each further service to
  which it had no reference, a copy of the first one that it keeps. -/
  primary : ∃ first,
    (r.refs.filter fun b => (shareOf? canary stable desired destinations b.name).isSome).head? =
      some first ∧
    rules'[p]? = some { r with backendRefs := some (
      ((r.refs.filter fun b => (shareOf? canary stable desired destinations b.name).isSome).map
        fun b => b.withWeight (shareOf? canary stable desired destinations b.name)) ++
      (destinations.filter fun d => !r.references d.service).map
        fun d => (first.retarget d.service).withWeight (some d.weight)) }

end

section

variable {canary stable : String} {desired : Int} {destinations : List WeightDestination}
  {skip : List Nat} {rules rules' : List Rule} {p : Nat} {r : Rule}

/-! ### The primary rule -/

theorem mayBePrimary_iff {i : Nat} :
    mayBePrimary canary stable (r, decide (i ∈ skip)) ↔
      i ∉ skip ∧ (r.references canary ∨ r.references stable) := by
  simp [mayBePrimary]

theorem findIdx?_eq_some_iff_getElem? {α : Type} {xs : List α} {pred : α → Bool} {i : Nat} :
    xs.findIdx? pred = some i ↔ (∃ x, xs[i]? = some x ∧ pred x) ∧
      ∀ j < i, ∀ x, xs[j]? = some x → ¬ pred x := by
  simp only [List.findIdx?_eq_some_iff_getElem, List.getElem?_eq_some_iff]
  constructor
  · rintro ⟨hlt, hpred, hbefore⟩
    refine ⟨⟨_, ⟨hlt, rfl⟩, hpred⟩, ?_⟩
    rintro j hj _ ⟨_, rfl⟩
    exact hbefore j hj
  · rintro ⟨⟨_, ⟨hlt, rfl⟩, hpred⟩, hbefore⟩
    refine ⟨hlt, hpred, ?_⟩
    intro j hj
    exact hbefore j hj _ ⟨Nat.lt_trans hj hlt, rfl⟩

theorem isPrimary_iff :
    (marked skip rules).findIdx? (mayBePrimary canary stable) = some p ↔
      ∃ r, IsPrimary canary stable skip rules p r := by
  simp only [findIdx?_eq_some_iff_getElem?, getElem?_marked, Option.map_eq_some_iff]
  constructor
  · rintro ⟨⟨_, ⟨r, hr, rfl⟩, hmay⟩, hbefore⟩
    rw [mayBePrimary_iff] at hmay
    refine ⟨r, hr, hmay.1, hmay.2, ?_⟩
    intro i hi r' hr' hskip hrefers
    exact hbefore i hi _ ⟨r', hr', rfl⟩ (mayBePrimary_iff.2 ⟨hskip, hrefers⟩)
  · rintro ⟨r, h⟩
    refine ⟨⟨_, ⟨r, h.get, rfl⟩, mayBePrimary_iff.2 ⟨h.notSkipped, h.references⟩⟩, ?_⟩
    rintro i hi _ ⟨r', hr', rfl⟩ hmay
    rw [mayBePrimary_iff] at hmay
    exact h.first i hi r' hr' hmay.1 hmay.2

/-- There is one primary rule. -/
theorem IsPrimary.unique {p' : Nat} {r' : Rule} (h : IsPrimary canary stable skip rules p r)
    (h' : IsPrimary canary stable skip rules p' r') : p' = p ∧ r' = r := by
  have hp := isPrimary_iff.2 ⟨r, h⟩
  rw [isPrimary_iff.2 ⟨r', h'⟩, Option.some.injEq] at hp
  subst hp
  have hr := h.get
  rw [h'.get, Option.some.injEq] at hr
  exact ⟨rfl, hr⟩

/-- The primary rule is weighed where it stands. -/
theorem IsPrimary.getElem?_weighed (h : IsPrimary canary stable skip rules p r) (desired : Int)
    (destinations : List WeightDestination) :
    (rules.mapIdx fun i r =>
      weighRule canary stable desired destinations (i ∈ skip) (i = p) r)[p]? =
        some (weighRule canary stable desired destinations false true r) := by
  rw [List.getElem?_mapIdx, h.get, Option.map_some, decide_eq_false h.notSkipped,
    decide_eq_true rfl]

/-- The primary rule keeps a reference. -/
theorem IsPrimary.exists_head (h : IsPrimary canary stable skip rules p r)
    (destinations : List WeightDestination) :
    ∃ first, (dropStale canary stable destinations r.refs).head? = some first := by
  obtain ⟨b, hb, hname⟩ : ∃ b ∈ r.refs, b.name = canary ∨ b.name = stable := by
    rcases h.references with hrefers | hrefers
    · obtain ⟨b, hb, hname⟩ := List.any_eq_true.1 hrefers
      exact ⟨b, hb, .inl (of_decide_eq_true hname)⟩
    · obtain ⟨b, hb, hname⟩ := List.any_eq_true.1 hrefers
      exact ⟨b, hb, .inr (of_decide_eq_true hname)⟩
  exact ⟨_, List.head?_eq_some_head (List.ne_nil_of_mem (mem_dropStale hb hname))⟩

/-! ### When a request succeeds -/

/-- There is a primary rule unless all rules are passed over or none references the services. -/
theorem exists_isPrimary_iff :
    (∃ p r, IsPrimary canary stable skip rules p r) ↔
      ∃ (i : Nat) (r : Rule), rules[i]? = some r ∧ i ∉ skip ∧
        (r.references canary ∨ r.references stable) := by
  constructor
  · rintro ⟨p, r, h⟩
    exact ⟨p, r, h.get, h.notSkipped, h.references⟩
  · rintro ⟨i, r, hr, hskip, hrefers⟩
    cases hfind : (marked skip rules).findIdx? (mayBePrimary canary stable) with
    | some p => exact ⟨p, isPrimary_iff.1 hfind⟩
    | none =>
      have hget := getElem?_marked skip rules i
      rw [hr, Option.map_some] at hget
      have hnot := List.findIdx?_eq_none_iff.1 hfind _ (List.mem_of_getElem? hget)
      rw [mayBePrimary_iff.2 ⟨hskip, hrefers⟩] at hnot
      cases hnot

theorem distribute_isOk_iff {kind : RouteKind} :
    (∃ rules', distribute kind rules canary stable desired destinations skip = .ok rules') ↔
      (∃ r ∈ rules, r.references canary) ∧ (∃ r ∈ rules, r.references stable) ∧
        ∃ (i : Nat) (r : Rule), rules[i]? = some r ∧ i ∉ skip ∧
          (r.references canary ∨ r.references stable) := by
  have hprimary : (∃ rules', weighRules canary stable desired destinations (marked skip rules) =
      some rules') ↔ ∃ p r, IsPrimary canary stable skip rules p r := by
    simp only [weighRules_eq, ← isPrimary_iff]
    cases (marked skip rules).findIdx? (mayBePrimary canary stable) <;> simp
  simp only [distribute_eq_ok_iff, exists_and_left, hprimary, exists_isPrimary_iff, anyReferences,
    List.any_eq_true]

/-! ### What a request makes of the rules -/

/-- A request that succeeds finds a primary rule, and weighs every rule. -/
theorem exists_isPrimary_of_distribute {kind : RouteKind}
    (h : distribute kind rules canary stable desired destinations skip = .ok rules') :
    ∃ p r, IsPrimary canary stable skip rules p r ∧ rules' = rules.mapIdx fun i r =>
      weighRule canary stable desired destinations (i ∈ skip) (i = p) r := by
  obtain ⟨-, -, hweighed⟩ := distribute_eq_ok_iff.1 h
  rw [weighRules_eq, Option.map_eq_some_iff] at hweighed
  obtain ⟨p, hfind, rfl⟩ := hweighed
  obtain ⟨r, hprimary⟩ := isPrimary_iff.1 hfind
  refine ⟨p, r, hprimary, ?_⟩
  rw [marked, List.mapIdx_mapIdx]
  rfl

theorem splitWeights_eq : splitWeights desired destinations =
    { canary := max 0 (desired - extraShare destinations), stable := 100 - desired,
      extra := extraShare destinations } := by
  simp [splitWeights, extraShare, Int.max_comm, List.sum_eq_foldr]

theorem splitWeights_canary :
    (splitWeights desired destinations).canary = max 0 (desired - extraShare destinations) := by
  rw [splitWeights_eq]

theorem nonneg_of_mem_asked {a : Int} (h : a ∈ destinations.map fun d => max 0 d.weight) :
    0 ≤ a := by
  obtain ⟨d, -, rfl⟩ := List.mem_map.1 h
  exact Int.le_max_left ..

/-- Amounts that are not negative are added up in 32 bits just if all of them together fit. -/
theorem foldlM_add32? {amounts : List Int} (hamounts : ∀ a ∈ amounts, 0 ≤ a) {sum : Int}
    (hsum : 0 ≤ sum) (hfits : sum < 2 ^ 31) :
    amounts.foldlM add32? sum =
      if sum + amounts.sum < 2 ^ 31 then some (sum + amounts.sum) else none := by
  induction amounts generalizing sum with
  | nil => simpa using hfits
  | cons a amounts ih =>
    have ha := hamounts a (List.mem_cons_self ..)
    have hrest : ∀ a ∈ amounts, 0 ≤ a := fun a h => hamounts a (List.mem_cons_of_mem _ h)
    rw [List.foldlM_cons, List.sum_cons, add32?]
    by_cases hstep : sum + a < 2 ^ 31
    · rw [if_pos (by omega), Option.bind_eq_bind, Option.bind_some, ih hrest (by omega) hstep,
        Int.add_assoc]
    · have := List.sum_nonneg hrest
      rw [if_neg (by omega), if_neg (by omega)]
      rfl

/-- The shares are those of the split in 32 bits just if what the further services ask for fits in
them. -/
theorem splitWeights32?_eq_some_iff (hdesired : 0 ≤ desired) (hle : desired ≤ 100) :
    splitWeights32? desired destinations = some (splitWeights desired destinations) ↔
      (destinations.map fun d => max 0 d.weight).sum < 2 ^ 31 := by
  have hamounts : ∀ a ∈ destinations.map fun d => max 0 d.weight, 0 ≤ a := fun _ =>
    nonneg_of_mem_asked
  have hsum : destinations.foldlM (fun sum d => add32? sum (max d.weight 0)) 0 =
      (destinations.map fun d => max 0 d.weight).foldlM add32? 0 := by
    simp only [List.foldlM_map, Int.max_comm]
  have hnonneg := List.sum_nonneg hamounts
  rw [splitWeights32?, hsum, foldlM_add32? hamounts (Int.le_refl 0) (by decide), Int.zero_add]
  by_cases hfits : (destinations.map fun d => max 0 d.weight).sum < 2 ^ 31
  · have hextra : min (destinations.map fun d => max 0 d.weight).sum 100 =
        extraShare destinations := rfl
    have hrest : add32? desired (-extraShare destinations) =
        some (desired - extraShare destinations) := if_pos (by omega)
    have hstable : add32? 100 (-desired) = some (100 - desired) := if_pos (by omega)
    refine iff_of_true ?_ hfits
    rw [if_pos hfits, splitWeights_eq, Int.max_comm 0 (desired - _)]
    simp [hextra, hrest, hstable]
  · refine iff_of_false ?_ hfits
    rw [if_neg hfits]
    simp

/-- The weight that a reference gets in the end, if the two services are different. -/
theorem BackendRef.share_eq (hne : canary ≠ stable) (hdesired : 0 ≤ desired) (skipped : Bool)
    (b : BackendRef) :
    b.share canary stable desired destinations skipped =
      if b.name = canary ∧ skipped = false then
        b.withWeight (some (max 0 (desired - extraShare destinations)))
      else if b.name = stable then b.withWeight (some (100 - desired)) else b := by
  have hwhole : destinations.isEmpty = true →
      max 0 (desired - extraShare destinations) = desired := by
    intro hempty
    rw [← splitWeights_canary, List.isEmpty_iff.1 hempty, splitWeights_nil hdesired]
  cases skipped with
  | true => simp [share, weigh]
  | false =>
    by_cases hc : b.name = canary
    · cases h : destinations.isEmpty <;>
        simp [share, weigh, hc, h, hne, withWeight, splitWeights_canary, hwhole]
    · by_cases hs : b.name = stable <;> cases h : destinations.isEmpty <;>
        simp [share, weigh, hc, hs, h, Ne.symm hne, withWeight]

/-- Which references of the primary rule are kept. -/
theorem isSome_shareOf?_iff {service : String} :
    (shareOf? canary stable desired destinations service).isSome ↔
      service = canary ∨ service = stable ∨ isRequested destinations service := by
  unfold shareOf? isRequested
  by_cases hc : service = canary
  · simp [hc]
  · by_cases hs : service = stable
    · subst hs
      simp [hc]
    · simp [hc, hs]

theorem dropStale_eq (refs : List BackendRef) :
    dropStale canary stable destinations refs =
      refs.filter fun b => (shareOf? canary stable desired destinations b.name).isSome := by
  apply List.filter_congr
  intro b _
  rw [Bool.eq_iff_iff, isSome_shareOf?_iff]
  simp [or_assoc]

/-- A further service that the rule references is among the references that are kept. -/
theorem mem_names_dropStale {d : WeightDestination} (hd : d ∈ destinations) :
    d.service ∈ (dropStale canary stable destinations r.refs).map BackendRef.name ↔
      r.references d.service := by
  have hrequested : isRequested destinations d.service := by
    rw [isRequested, List.any_eq_true]
    exact ⟨d, hd, by simp⟩
  simp only [dropStale, List.mem_map, List.mem_filter, Rule.references, List.any_eq_true,
    decide_eq_true_eq]
  constructor
  · rintro ⟨b, ⟨hb, -⟩, hname⟩
    exact ⟨b, hb, hname⟩
  · rintro ⟨b, hb, hname⟩
    exact ⟨b, ⟨hb, by simp [hname, hrequested]⟩, hname⟩

section

variable (hne : canary ≠ stable) (hdesired : 0 ≤ desired)
  (hnodup : (destinations.map WeightDestination.service).Nodup)
  (hapart : ∀ d ∈ destinations, d.service ≠ canary ∧ d.service ≠ stable)

include hne hdesired hnodup hapart

/-- The weight of a reference that the primary rule keeps. -/
theorem BackendRef.settle_share {b : BackendRef} {weight : Int}
    (h : shareOf? canary stable desired destinations b.name = some weight) :
    (b.share canary stable desired destinations false).settle destinations =
      b.withWeight (some weight) := by
  unfold shareOf? at h
  rw [share_eq hne hdesired]
  by_cases hc : b.name = canary
  · rw [if_pos hc, Option.some.injEq] at h
    rw [if_pos ⟨hc, rfl⟩, h]
    apply settle_of_notMem
    intro d hd he
    exact (hapart d hd).1 (he.trans hc)
  · rw [if_neg hc] at h
    rw [if_neg fun hc' => hc hc'.1]
    by_cases hs : b.name = stable
    · rw [if_pos hs, Option.some.injEq] at h
      rw [if_pos hs, h]
      apply settle_of_notMem
      intro d hd he
      exact (hapart d hd).2 (he.trans hs)
    · rw [if_neg hs, Option.map_eq_some_iff] at h
      obtain ⟨d, hfind, rfl⟩ := h
      have hname : d.service = b.name := by simpa using List.find?_some hfind
      rw [if_neg hs]
      exact settle_of_mem hnodup (List.mem_of_find?_eq_some hfind) hname.symm

/-- What the primary rule references afterwards. -/
theorem weighRule_primary {first : BackendRef}
    (hfirst : (r.refs.filter fun b =>
      (shareOf? canary stable desired destinations b.name).isSome).head? = some first) :
    weighRule canary stable desired destinations false true r =
      { r with backendRefs := some (
        ((r.refs.filter fun b => (shareOf? canary stable desired destinations b.name).isSome).map
          fun b => b.withWeight (shareOf? canary stable desired destinations b.name)) ++
        (destinations.filter fun d => !r.references d.service).map
          fun d => (first.retarget d.service).withWeight (some d.weight)) } := by
  rw [weighRule_true_of_head ((congrArg List.head? (dropStale_eq r.refs)).trans hfirst),
    newcomers_of_nodup hnodup, List.map_map, ← dropStale_eq]
  congr 3
  · apply List.map_congr_left
    intro b hb
    rw [dropStale_eq, List.mem_filter, Option.isSome_iff_exists] at hb
    obtain ⟨-, weight, hweight⟩ := hb
    rw [BackendRef.settle_share hne hdesired hnodup hapart hweight, hweight]
  · have hnew : (destinations.filter fun d =>
        d.service ∉ (dropStale canary stable destinations r.refs).map BackendRef.name) =
          destinations.filter fun d => !r.references d.service := by
      apply List.filter_congr
      intro d hd
      simp [mem_names_dropStale hd]
    rw [hnew]
    apply List.map_congr_left
    intro d hd
    exact BackendRef.settle_of_mem hnodup ((List.mem_filter.1 hd).1) rfl

/-- The rules are what they are to be. -/
theorem distributed_of_distribute {kind : RouteKind}
    (h : distribute kind rules canary stable desired destinations skip = .ok rules') :
    ∃ p r, IsPrimary canary stable skip rules p r ∧
      Distributed canary stable desired destinations skip rules rules' p r := by
  obtain ⟨p, r, hprimary, rfl⟩ := exists_isPrimary_of_distribute h
  refine ⟨p, r, hprimary, ?_⟩
  constructor
  case length =>
    exact List.length_mapIdx
  case canaryShare =>
    intro i r' hr' hskip
    rw [List.getElem?_mapIdx, Option.map_eq_some_iff] at hr'
    obtain ⟨r₀, -, rfl⟩ := hr'
    rw [← splitWeights_canary, decide_eq_false hskip]
    exact gives_canary_weighRule hne hdesired (fun d hd => (hapart d hd).1) _ _
  case stableShare =>
    intro i r' hr'
    rw [List.getElem?_mapIdx, Option.map_eq_some_iff] at hr'
    obtain ⟨r₀, -, rfl⟩ := hr'
    exact gives_stable_weighRule hne (fun d hd => (hapart d hd).2) _ _ _
  case others =>
    intro i hi
    rw [List.getElem?_mapIdx]
    congr 1
    funext r₀
    rw [decide_eq_false hi, weighRule_false]
    simp only [BackendRef.share_eq hne hdesired, decide_eq_false_iff_not]
  case primary =>
    obtain ⟨first, hfirst⟩ := hprimary.exists_head destinations
    rw [dropStale_eq] at hfirst
    refine ⟨first, hfirst, ?_⟩
    rw [hprimary.getElem?_weighed, weighRule_primary hne hdesired hnodup hapart hfirst]

end

end

/-- A rule that was injected for the canary, the rule of the services, which still has a reference
to one that is gone, and a rule beside it. -/
def previewRules : List Rule :=
  [{ backendRefs := some [{ name := "canary", port := some 80 }] },
   { backendRefs := some [
      { name := "stable", port := some 80, weight := some 100 },
      { name := "gone", port := some 80, weight := some 5 },
      { name := "canary", port := some 80, weight := some 0 },
      { name := "preview", port := some 90 }] },
   { backendRefs := some [{ name := "preview", weight := some 3 }, { name := "stable" }] }]

/-- Two further services, of which the second is new to the rules. -/
def previews : List WeightDestination :=
  [{ service := "preview", weight := 10 }, { service := "shadow", weight := 5 }]

/-- What the request makes of them. -/
example : distribute .http previewRules "canary" "stable" 30 previews [0] = .ok
    [{ backendRefs := some [{ name := "canary", port := some 80 }] },
     { backendRefs := some [
        { name := "stable", port := some 80, weight := some 70 },
        { name := "canary", port := some 80, weight := some 15 },
        { name := "preview", port := some 90, weight := some 10 },
        { name := "shadow", port := some 80, weight := some 5 }] },
     { backendRefs := some [{ name := "preview", weight := some 3 },
        { name := "stable", weight := some 70 }] }] := by
  rfl

/-- Amounts that do not fit together. -/
example : splitWeights32? 30 [{ service := "preview", weight := 2147483647 },
    { service := "shadow", weight := 2147483647 }] = none := by
  decide

end CanaryRouting
