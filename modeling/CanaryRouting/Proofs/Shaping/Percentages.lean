import CanaryRouting.Proofs.Shaping.Shares

/-!
# Which weights are percentages

A request for weights splits a hundred between the canary and the stable service, and what it gives
them are percentages if the desired weight is one: what the further services take is cut off at zero
and at a hundred. The weights of the further services themselves are written as they are asked for.
So a weight that a request puts on a reference is a percentage, or it is the last one that is asked
for the service (`weight_of_putOn`); and each of those is put on a reference
(`exists_putOn_of_lastWeight?`).
-/

namespace CanaryRouting

/-- The weight is a percentage. -/
def IsPercentage (weight : Int) : Prop := 0 ≤ weight ∧ weight ≤ 100

instance (weight : Int) : Decidable (IsPercentage weight) :=
  inferInstanceAs (Decidable (0 ≤ weight ∧ weight ≤ 100))

/-- The weight that is asked for a service among the further ones; of two of this name the later
counts. -/
def lastWeight? (destinations : List WeightDestination) (service : String) : Option Int :=
  (destinations.findRev? fun d => d.service = service).map WeightDestination.weight

/-- A request for weights that made `rules'` of `rules` has put a weight on this reference. -/
inductive PutOn (canary stable : String) (skip : List Nat) (rules rules' : List Rule)
    (b : BackendRef) : Prop where
  /-- It is a reference of the primary rule. -/
  | primary {p : Nat} {r r' : Rule} : IsPrimary canary stable skip rules p r →
    rules'[p]? = some r' → b ∈ r'.refs → PutOn canary stable skip rules rules' b
  /-- It is a reference to the canary outside the rules to skip. -/
  | canary {i : Nat} {r' : Rule} : rules'[i]? = some r' → b ∈ r'.refs → b.name = canary → i ∉ skip →
    PutOn canary stable skip rules rules' b
  /-- It is a reference to the stable service. -/
  | stable {i : Nat} {r' : Rule} : rules'[i]? = some r' → b ∈ r'.refs → b.name = stable →
    PutOn canary stable skip rules rules' b

section

variable {canary stable : String} {desired : Int} {destinations : List WeightDestination}
  {skip : List Nat} {rules rules' : List Rule}

/-! ### The weights of further services -/

theorem lastWeight?_cons (d : WeightDestination) (service : String) :
    lastWeight? (d :: destinations) service = (lastWeight? destinations service).or
      (if d.service = service then some d.weight else none) := by
  rw [lastWeight?, lastWeight?, List.findRev?]
  cases destinations.findRev? fun d => d.service = service with
  | some _ => rfl
  | none => by_cases h : d.service = service <;> simp [h]

theorem exists_of_lastWeight? {service : String} {weight : Int}
    (h : lastWeight? destinations service = some weight) :
    ∃ d ∈ destinations, d.service = service ∧ d.weight = weight := by
  induction destinations with
  | nil => cases h
  | cons d destinations ih =>
    rw [lastWeight?_cons, Option.or_eq_some_iff] at h
    rcases h with h | ⟨-, h⟩
    · obtain ⟨d', hd', hweight⟩ := ih h
      exact ⟨d', List.mem_cons_of_mem _ hd', hweight⟩
    · split at h
      · next hname => exact ⟨d, List.mem_cons_self .., hname, Option.some.inj h⟩
      · cases h

theorem lastWeight?_ne_none_iff {service : String} :
    lastWeight? destinations service ≠ none ↔ isRequested destinations service := by
  induction destinations with
  | nil => simp [lastWeight?, isRequested]
  | cons d destinations ih =>
    rw [lastWeight?_cons, ne_eq, Option.or_eq_none_iff, Decidable.not_and_iff_not_or_not, ← ne_eq,
      ih]
    by_cases h : d.service = service <;> simp [isRequested, h]

/-- The weight of a reference among which the further services have been placed. -/
theorem BackendRef.weight_settle (b : BackendRef) :
    (b.settle destinations).weight = (lastWeight? destinations b.name).or b.weight := by
  induction destinations generalizing b with
  | nil => rfl
  | cons d destinations ih =>
    rw [settle_cons, ih, name_weigh, lastWeight?_cons, Option.or_assoc]
    congr 1
    by_cases h : b.name = d.service
    · rw [weigh_self h, if_pos h.symm]
      rfl
    · rw [weigh_of_ne h, if_neg (Ne.symm h), Option.none_or]

/-! ### The weights of the canary and the stable service -/

theorem extraShare_nonneg (destinations : List WeightDestination) :
    0 ≤ extraShare destinations := by
  have hsum : 0 ≤ (destinations.map fun d => max 0 d.weight).sum :=
    List.sum_nonneg fun _ => nonneg_of_mem_asked
  rw [extraShare]
  omega

theorem isPercentage_canary (hdesired : IsPercentage desired) :
    IsPercentage (splitWeights desired destinations).canary := by
  have := extraShare_nonneg destinations
  have := hdesired.2
  rw [splitWeights_canary]
  constructor <;> omega

/-- A reference has a percentage after it is weighed if it is given one or had one before. -/
theorem exists_isPercentage_weigh {b : BackendRef} {service : String} {weight : Int}
    (hweight : IsPercentage weight)
    (h : b.name = service ∨ ∃ w, b.weight = some w ∧ IsPercentage w) :
    ∃ w, (b.weigh service weight).weight = some w ∧ IsPercentage w := by
  by_cases hname : b.name = service
  · rw [BackendRef.weigh_self hname]
    exact ⟨weight, rfl, hweight⟩
  · rw [BackendRef.weigh_of_ne hname]
    exact h.resolve_left hname

/-- What the canary and the stable service get are percentages. -/
theorem exists_isPercentage_share (hdesired : IsPercentage desired) {b : BackendRef}
    {skipped : Bool} (h : b.name = canary ∧ skipped = false ∨ b.name = stable) :
    ∃ weight, (b.share canary stable desired destinations skipped).weight = some weight ∧
      IsPercentage weight := by
  have hstable : IsPercentage (100 - desired) := by
    obtain ⟨hlow, hhigh⟩ := hdesired
    constructor <;> omega
  unfold BackendRef.share
  cases skipped with
  | true =>
    have hname : b.name = stable := h.resolve_left (by simp)
    cases destinations.isEmpty <;> exact exists_isPercentage_weigh hstable (.inl hname)
  | false =>
    have hweighed : ∃ w, ((b.weigh canary desired).weigh stable (100 - desired)).weight = some w ∧
        IsPercentage w := by
      refine exists_isPercentage_weigh hstable ?_
      rcases h with ⟨hname, -⟩ | hname
      · exact .inr (exists_isPercentage_weigh hdesired (.inl hname))
      · exact .inl (BackendRef.name_weigh.trans hname)
    cases destinations.isEmpty with
    | true => exact hweighed
    | false => exact exists_isPercentage_weigh (isPercentage_canary hdesired) (.inr hweighed)

/-! ### Rules -/

/-- A reference of the primary rule has the weight that is asked for its service, or else is one to
the canary or the stable service, and has their share. -/
theorem weight_of_weighRule_true {r : Rule} {first b : BackendRef} (hdesired : IsPercentage desired)
    (hfirst : (dropStale canary stable destinations r.refs).head? = some first)
    (hb : b ∈ (weighRule canary stable desired destinations false true r).refs) :
    ∃ weight, b.weight = some weight ∧
      (IsPercentage weight ∨ lastWeight? destinations b.name = some weight) := by
  rw [weighRule_true_of_head hfirst] at hb
  rcases List.mem_append.1 hb with hb | hb
  · obtain ⟨b₀, hb₀, rfl⟩ := List.mem_map.1 hb
    rw [BackendRef.weight_settle, BackendRef.name_settle, BackendRef.name_share]
    cases hlast : lastWeight? destinations b₀.name with
    | some weight => exact ⟨weight, rfl, .inr rfl⟩
    | none =>
      have hnot : ¬ isRequested destinations b₀.name := fun h =>
        lastWeight?_ne_none_iff.2 h hlast
      have hname : b₀.name = canary ∨ b₀.name = stable := by
        have := (List.mem_filter.1 hb₀).2
        simpa [hnot] using this
      obtain ⟨weight, hweight, hpercentage⟩ := exists_isPercentage_share hdesired (hname.imp_left (⟨·, rfl⟩))
      exact ⟨weight, hweight, .inl hpercentage⟩
  · obtain ⟨name, hname, rfl⟩ := List.mem_map.1 hb
    have hrequested := isRequested_iff.2 (mem_newcomers hname).2
    obtain ⟨weight, hlast⟩ := Option.ne_none_iff_exists'.1 (lastWeight?_ne_none_iff.2 hrequested)
    rw [BackendRef.weight_settle, BackendRef.name_settle]
    have hretarget : (first.retarget name).name = name := rfl
    rw [hretarget, hlast]
    exact ⟨weight, rfl, .inr rfl⟩

/-- Each weight that is asked for a service stands at a reference of the primary rule. -/
theorem exists_of_weighRule_true {r : Rule} {first : BackendRef} {service : String} {weight : Int}
    (hfirst : (dropStale canary stable destinations r.refs).head? = some first)
    (hlast : lastWeight? destinations service = some weight) :
    ∃ b ∈ (weighRule canary stable desired destinations false true r).refs,
      b.name = service ∧ b.weight = some weight := by
  rw [weighRule_true_of_head hfirst]
  by_cases hkept : service ∈ (dropStale canary stable destinations r.refs).map BackendRef.name
  · obtain ⟨b, hb, rfl⟩ := List.mem_map.1 hkept
    refine ⟨_, List.mem_append_left _ (List.mem_map_of_mem hb), ?_, ?_⟩
    · rw [BackendRef.name_settle, BackendRef.name_share]
    · rw [BackendRef.weight_settle, BackendRef.name_share, hlast]
      rfl
  · obtain ⟨d, hd, hname, -⟩ := exists_of_lastWeight? hlast
    have hnew := mem_newcomers_of_notMem hkept ⟨d, hd, hname⟩
    refine ⟨_, List.mem_append_right _ (List.mem_map_of_mem hnew), ?_, ?_⟩
    · rw [BackendRef.name_settle]
      rfl
    · have hretarget : (first.retarget service).name = service := rfl
      rw [BackendRef.weight_settle, hretarget, hlast]
      rfl

/-- In another rule the canary, unless the rule is passed over, and the stable service have their
share. -/
theorem weight_of_weighRule_false {r : Rule} {b : BackendRef} {skipped : Bool}
    (hdesired : IsPercentage desired)
    (hb : b ∈ (weighRule canary stable desired destinations skipped false r).refs)
    (hname : b.name = canary ∧ skipped = false ∨ b.name = stable) :
    ∃ weight, b.weight = some weight ∧ IsPercentage weight := by
  rw [weighRule_false, Rule.refs_mapRefs] at hb
  obtain ⟨b₀, -, rfl⟩ := List.mem_map.1 hb
  rw [BackendRef.name_share] at hname
  exact exists_isPercentage_share hdesired hname

/-- Where a reference stands that a weight was put on, by what is the primary rule. -/
theorem PutOn.exists_getElem? {p : Nat} {r : Rule} {b : BackendRef}
    (hprimary : IsPrimary canary stable skip rules p r)
    (h : PutOn canary stable skip rules rules' b) :
    ∃ (i : Nat) (r' : Rule), rules'[i]? = some r' ∧ b ∈ r'.refs ∧
      (i = p ∨ b.name = canary ∧ i ∉ skip ∨ b.name = stable) := by
  cases h with
  | primary hprimary' hr' hb => exact ⟨_, _, hr', hb, .inl (hprimary.unique hprimary').1⟩
  | canary hr' hb hname hskip => exact ⟨_, _, hr', hb, .inr (.inl ⟨hname, hskip⟩)⟩
  | stable hr' hb hname => exact ⟨_, _, hr', hb, .inr (.inr hname)⟩

/-- A weight that a request puts on a reference is a percentage, or it is asked for the service. -/
theorem weight_of_putOn {kind : RouteKind} {b : BackendRef} (hdesired : IsPercentage desired)
    (h : distribute kind rules canary stable desired destinations skip = .ok rules')
    (hb : PutOn canary stable skip rules rules' b) :
    ∃ weight, b.weight = some weight ∧
      (IsPercentage weight ∨ lastWeight? destinations b.name = some weight) := by
  obtain ⟨p, r, hprimary, rfl⟩ := exists_isPrimary_of_distribute h
  obtain ⟨first, hfirst⟩ := hprimary.exists_head destinations
  obtain ⟨i, r', hr', hmem, hwhere⟩ := hb.exists_getElem? hprimary
  by_cases hi : i = p
  · subst hi
    rw [hprimary.getElem?_weighed] at hr'
    cases hr'
    exact weight_of_weighRule_true hdesired hfirst hmem
  · rw [List.getElem?_mapIdx, Option.map_eq_some_iff] at hr'
    obtain ⟨r₀, -, rfl⟩ := hr'
    rw [decide_eq_false hi] at hmem
    obtain ⟨weight, hweight, hpercentage⟩ := weight_of_weighRule_false hdesired hmem
      ((hwhere.resolve_left hi).imp_left (And.imp_right decide_eq_false))
    exact ⟨weight, hweight, .inl hpercentage⟩

/-- Each weight that is asked for a service is put on a reference. -/
theorem exists_putOn_of_lastWeight? {kind : RouteKind} {service : String} {weight : Int}
    (h : distribute kind rules canary stable desired destinations skip = .ok rules')
    (hlast : lastWeight? destinations service = some weight) :
    ∃ b, PutOn canary stable skip rules rules' b ∧ b.name = service ∧ b.weight = some weight := by
  obtain ⟨p, r, hprimary, rfl⟩ := exists_isPrimary_of_distribute h
  obtain ⟨first, hfirst⟩ := hprimary.exists_head destinations
  obtain ⟨b, hb, hnamed⟩ := exists_of_weighRule_true hfirst hlast
  exact ⟨b, .primary hprimary (hprimary.getElem?_weighed ..) hb, hnamed⟩

end

end CanaryRouting
