import CanaryRouting.Proofs.Shaping.Commuting

/-!
# Weights that are found again

The check for weights asks of the rules what a request for weights makes of them: every reference
to the canary outside the rules to skip and every reference to the stable service has its share,
and the primary rule has exactly the further services with theirs. So the weights that a request
has written are found again, and no others (`weightsApplied_of_distribute`). Since the canary may
share its part with further services, it is the part of the stable service that tells two requests
apart.
-/

namespace CanaryRouting

/-- Every reference to the service has the weight. -/
def Gives (service : String) (weight : Int) (refs : List BackendRef) : Prop :=
  ∀ b ∈ refs, b.name = service → b.weight = some weight

/-! ### References -/

section

variable {service : String} {weight : Int} {refs : List BackendRef}

/-- References that are given a weight have it. -/
theorem gives_map_self (service : String) (weight : Int) (refs : List BackendRef) :
    Gives service weight
      (refs.map fun b => if b.name = service then b.withWeight (some weight) else b) := by
  intro b hb hname
  obtain ⟨b, -, rfl⟩ := List.mem_map.1 hb
  by_cases h : b.name = service
  · simp [h, BackendRef.withWeight]
  · rw [if_neg h] at hname
    exact absurd hname h

/-- The weights of other services do not matter. -/
theorem Gives.map (h : Gives service weight refs) {other : String} (hne : other ≠ service)
    (w : Option Int) :
    Gives service weight (refs.map fun b => if b.name = other then b.withWeight w else b) := by
  intro b hb hname
  obtain ⟨b, hmem, rfl⟩ := List.mem_map.1 hb
  by_cases hother : b.name = other
  · rw [if_pos hother] at hname
    exact absurd (hother.symm.trans hname) hne
  · rw [if_neg hother] at hname ⊢
    exact h b hmem hname

theorem Gives.filter (h : Gives service weight refs) (p : BackendRef → Bool) :
    Gives service weight (refs.filter p) := fun b hb => h b (List.mem_filter.1 hb).1

theorem Gives.placeDestination (h : Gives service weight refs) {d : WeightDestination}
    (hne : d.service ≠ service) : Gives service weight (placeDestination refs d) := by
  unfold CanaryRouting.placeDestination
  split
  · exact h.map hne _
  · split
    · intro b hb hname
      rcases List.mem_append.1 hb with hb | hb
      · exact h b hb hname
      · rw [List.mem_singleton.1 hb] at hname
        exact absurd hname hne
    · exact fun b hb => nomatch hb

theorem Gives.placeDestinations (h : Gives service weight refs)
    {destinations : List WeightDestination} (hne : ∀ d ∈ destinations, d.service ≠ service) :
    Gives service weight (placeDestinations refs destinations) := by
  unfold CanaryRouting.placeDestinations
  induction destinations generalizing refs with
  | nil => exact h
  | cons d destinations ih =>
    exact ih (h.placeDestination (hne d (List.mem_cons_self ..)))
      fun d' hd' => hne d' (List.mem_cons_of_mem _ hd')

/-- What is placed is there, provided that there is a reference to copy. -/
theorem mem_placeDestination (h : refs ≠ []) (d : WeightDestination) :
    ∃ b ∈ placeDestination refs d, b.name = d.service ∧ b.weight = some d.weight := by
  unfold placeDestination
  split
  · next hany =>
    obtain ⟨b, hb, hname⟩ := List.any_eq_true.1 hany
    rw [decide_eq_true_eq] at hname
    exact ⟨b.withWeight (some d.weight), List.mem_map.2 ⟨b, hb, by rw [if_pos hname]⟩, hname, rfl⟩
  · cases refs with
    | nil => exact absurd rfl h
    | cons b refs =>
      exact ⟨_, List.mem_append_right _ (List.mem_singleton.2 rfl), rfl, rfl⟩

/-- A reference stays as it is when another service is placed. -/
theorem mem_placeDestination_of_ne {b : BackendRef} {d : WeightDestination} (hb : b ∈ refs)
    (hne : d.service ≠ b.name) : b ∈ placeDestination refs d := by
  unfold placeDestination
  split
  · exact List.mem_map.2 ⟨b, hb, if_neg (Ne.symm hne)⟩
  · cases refs with
    | nil => cases hb
    | cons b' refs => exact List.mem_append_left _ hb

theorem mem_placeDestinations_of_ne {b : BackendRef} {destinations : List WeightDestination}
    (hb : b ∈ refs) (hne : ∀ d ∈ destinations, d.service ≠ b.name) :
    b ∈ placeDestinations refs destinations := by
  unfold placeDestinations
  induction destinations generalizing refs with
  | nil => exact hb
  | cons d destinations ih =>
    exact ih (mem_placeDestination_of_ne hb (hne d (List.mem_cons_self ..)))
      fun d' hd' => hne d' (List.mem_cons_of_mem _ hd')

/-- All services that are placed are there, since none is placed twice. -/
theorem mem_placeDestinations {destinations : List WeightDestination} (h : refs ≠ [])
    (hnodup : (destinations.map WeightDestination.service).Nodup) :
    ∀ d ∈ destinations, ∃ b ∈ placeDestinations refs destinations,
      b.name = d.service ∧ b.weight = some d.weight := by
  unfold placeDestinations
  induction destinations generalizing refs with
  | nil => exact fun d hd => nomatch hd
  | cons d destinations ih =>
    rw [List.map_cons, List.nodup_cons] at hnodup
    intro d' hd'
    rcases List.mem_cons.1 hd' with rfl | hmem
    · obtain ⟨b, hb, hname, hweight⟩ := mem_placeDestination h d'
      have hlater : ∀ d ∈ destinations, d.service ≠ b.name := fun d hd e =>
        hnodup.1 (List.mem_map.2 ⟨d, hd, e.trans hname⟩)
      have hstays : b ∈ placeDestinations (placeDestination refs d') destinations :=
        mem_placeDestinations_of_ne hb hlater
      exact ⟨b, hstays, hname, hweight⟩
    · exact ih (placeDestination_ne_nil h d) hnodup.2 d' hmem

/-- Placing services adds no names but theirs. -/
theorem name_of_mem_placeDestinations {destinations : List WeightDestination} {b : BackendRef}
    (hb : b ∈ placeDestinations refs destinations) :
    (∃ b' ∈ refs, b'.name = b.name) ∨ isRequested destinations b.name := by
  unfold placeDestinations at hb
  induction destinations generalizing refs with
  | nil => exact .inl ⟨b, hb, rfl⟩
  | cons d destinations ih =>
    rcases ih hb with ⟨b', hb', hname⟩ | hrequested
    · unfold placeDestination at hb'
      split at hb'
      · obtain ⟨b'', hmem, rfl⟩ := List.mem_map.1 hb'
        refine .inl ⟨b'', hmem, Eq.trans ?_ hname⟩
        split <;> rfl
      · cases refs with
        | nil => cases hb'
        | cons b₀ refs =>
          rcases List.mem_append.1 hb' with hmem | hmem
          · exact .inl ⟨b', hmem, hname⟩
          · rw [List.mem_singleton.1 hmem] at hname
            exact .inr (by simp [isRequested, ← hname, BackendRef.withWeight, BackendRef.retarget])
    · rw [isRequested] at hrequested
      exact .inr (by simp [isRequested, hrequested])

end

/-! ### Rules -/

theorem Rule.refs_weigh (r : Rule) (service : String) (weight : Int) :
    (r.weigh service weight).refs =
      r.refs.map fun b => if b.name = service then b.withWeight (some weight) else b := by
  cases r with
  | mk n c f t refs => cases refs <;> rfl

theorem Rule.gives_weigh_self (r : Rule) (service : String) (weight : Int) :
    Gives service weight (r.weigh service weight).refs := by
  rw [refs_weigh]
  exact gives_map_self service weight _

theorem Gives.weigh {service : String} {weight : Int} {r : Rule} (h : Gives service weight r.refs)
    {other : String} (hne : other ≠ service) (w : Int) :
    Gives service weight (r.weigh other w).refs := by
  rw [Rule.refs_weigh]
  exact h.map hne _

theorem haveWeight_iff {rules : List Rule} {service : String} {weight : Int} {skip : List Nat} :
    haveWeight rules service weight skip ↔
      ∀ (i : Nat) (r : Rule), rules[i]? = some r → i ∉ skip → Gives service weight r.refs := by
  unfold haveWeight
  rw [List.all_eq_true]
  constructor
  · intro h i r hr hi b hb hname
    have hrule := h (r, i) (List.mem_zipIdx_iff_getElem?.2 hr)
    simp only [Bool.or_eq_true, List.contains_iff_mem, hi, false_or, List.all_eq_true] at hrule
    simpa [hname] using hrule b hb
  · rintro h ⟨r, i⟩ hmem
    have hr := List.mem_zipIdx_iff_getElem?.1 hmem
    by_cases hi : i ∈ skip
    · simp [hi]
    · simp only [Bool.or_eq_true, List.contains_iff_mem, hi, false_or, List.all_eq_true]
      intro b hb
      by_cases hname : b.name = service
      · simp [hname, h i r hr hi b hb hname]
      · simp [hname]

section

variable {canary stable : String} {desired : Int} {destinations : List WeightDestination}

/-- A request for weights does not change which of the two services a rule references. -/
theorem references_weighRule {service : String} (h : service = canary ∨ service = stable)
    (hapart : ∀ d ∈ destinations, d.service ≠ service) (skipped primary : Bool) (r : Rule) :
    (weighRule canary stable desired destinations skipped primary r).references service =
      r.references service := by
  rw [Rule.references_eq, Rule.references_eq, refTo?_weighRule h hapart]

/-- Every reference to the stable service gets what the desired weight leaves. -/
theorem gives_stable_weighRule (hne : canary ≠ stable)
    (hapart : ∀ d ∈ destinations, d.service ≠ stable) (skipped primary : Bool) (r : Rule) :
    Gives stable (100 - desired)
      (weighRule canary stable desired destinations skipped primary r).refs := by
  have hweighed := Rule.gives_weigh_self (if skipped then r else r.weigh canary desired) stable
    (100 - desired)
  have hshared : ∀ r : Rule, Gives stable (100 - desired) r.refs → ∀ w,
      Gives stable (100 - desired) (if skipped then r else r.weigh canary w).refs := by
    intro r h w
    split
    · exact h
    · exact h.weigh hne w
  unfold weighRule
  cases primary with
  | false =>
    simp only [Bool.false_eq_true, if_false]
    split
    · exact hweighed
    · exact hshared _ hweighed _
  | true =>
    simp only [if_true]
    split
    · exact hweighed.filter _
    · have hkept : Gives stable (100 - desired)
          (((if skipped then r else r.weigh canary desired).weigh stable (100 - desired)).modifyRefs
            (dropStale canary stable destinations)).refs := hweighed.filter _
      exact (hshared _ hkept _).placeDestinations hapart

/-- Without further services the canary gets the whole desired weight. -/
theorem splitWeights_nil (h : 0 ≤ desired) : (splitWeights desired []).canary = desired := by
  simp only [splitWeights, List.map_nil, List.foldr_nil]
  omega

/-- Outside the rules to skip every reference to the canary gets its share. -/
theorem gives_canary_weighRule (hne : canary ≠ stable) (hdesired : 0 ≤ desired)
    (hapart : ∀ d ∈ destinations, d.service ≠ canary) (primary : Bool) (r : Rule) :
    Gives canary (splitWeights desired destinations).canary
      (weighRule canary stable desired destinations false primary r).refs := by
  unfold weighRule
  simp only [Bool.false_eq_true, if_false]
  split
  · next hempty =>
    rw [List.isEmpty_iff.1 hempty, splitWeights_nil hdesired]
    have hweighed := (r.gives_weigh_self canary desired).weigh (Ne.symm hne) (100 - desired)
    split
    · exact hweighed.filter _
    · exact hweighed
  · split
    · exact (Rule.gives_weigh_self _ _ _).placeDestinations hapart
    · exact Rule.gives_weigh_self _ _ _

/-- The primary rule references no service that is not asked for. -/
theorem name_of_mem_primary (skipped : Bool) (r : Rule) {b : BackendRef}
    (hb : b ∈ (weighRule canary stable desired destinations skipped true r).refs) :
    b.name = canary ∨ b.name = stable ∨ isRequested destinations b.name := by
  have hkept : ∀ (r : Rule), ∀ b ∈ (r.modifyRefs (dropStale canary stable destinations)).refs,
      b.name = canary ∨ b.name = stable ∨ isRequested destinations b.name := by
    intro r b hb
    have := (List.mem_filter.1 hb).2
    simpa [or_assoc] using this
  have hshared : ∀ (r : Rule) (w : Int), ∀ b ∈ (if skipped then r else r.weigh canary w).refs,
      ∃ b' ∈ r.refs, b'.name = b.name := by
    intro r w b hb
    split at hb
    · exact ⟨b, hb, rfl⟩
    · rw [Rule.refs_weigh] at hb
      obtain ⟨b', hmem, rfl⟩ := List.mem_map.1 hb
      exact ⟨b', hmem, by split <;> rfl⟩
  unfold weighRule at hb
  simp only [if_true] at hb
  split at hb
  · exact hkept _ b hb
  · rcases name_of_mem_placeDestinations hb with ⟨b', hb', hname⟩ | hrequested
    · obtain ⟨b'', hb'', hname'⟩ := hshared _ _ b' hb'
      rw [← hname, ← hname']
      exact hkept _ b'' hb''
    · exact .inr (.inr hrequested)

/-- The primary rule, if it references one of the two services, references the further services
with their weights. -/
theorem mem_primary (hnodup : (destinations.map WeightDestination.service).Nodup) (skipped : Bool)
    {r : Rule} (h : r.references canary ∨ r.references stable) :
    ∀ d ∈ destinations, ∃ b ∈ (weighRule canary stable desired destinations skipped true r).refs,
      b.name = d.service ∧ b.weight = some d.weight := by
  intro d hd
  have hsome : destinations.isEmpty = false := by
    cases destinations with
    | nil => cases hd
    | cons _ _ => rfl
  obtain ⟨service, hservice, hreferences⟩ : ∃ service, (service = canary ∨ service = stable) ∧
      r.references service :=
    h.elim (fun h => ⟨_, .inl rfl, h⟩) fun h => ⟨_, .inr rfl, h⟩
  -- What the services are placed behind references the same of the two services as the rule.
  unfold weighRule
  simp only [if_true, hsome, Bool.false_eq_true, if_false]
  have hown : ∀ (r : Rule) (w : Int), refTo? service (if skipped then r else r.weigh canary w).refs =
      refTo? service r.refs := by
    intro r w
    split
    · rfl
    · exact refTo?_weigh ..
  refine mem_placeDestinations (fun hnil => ?_) hnodup d hd
  have href : ∀ r : Rule, refTo? service
      ((if skipped then r.modifyRefs (dropStale canary stable destinations)
        else (r.modifyRefs (dropStale canary stable destinations)).weigh canary
          (splitWeights desired destinations).canary).refs) = refTo? service r.refs := fun r =>
    (hown _ _).trans (refTo?_dropStale hservice _)
  have hrefs := (href _).trans ((refTo?_weigh _ stable service (100 - desired)).trans
    (hown r desired))
  rw [hnil] at hrefs
  rw [Rule.references_eq, ← hrefs] at hreferences
  cases hreferences

/-! ### Routes -/

/-- The rules of a request, position by position. -/
theorem getElem?_of_weighRules {rules rules' : List Rule} {skip : List Nat}
    (h : weighRules canary stable desired destinations (marked skip rules) = some rules') :
    ∃ p, (marked skip rules).findIdx? (mayBePrimary canary stable) = some p ∧ ∀ i : Nat, rules'[i]? =
      rules[i]?.map (weighRule canary stable desired destinations (decide (i ∈ skip)) (i = p)) := by
  rw [weighRules_eq, Option.map_eq_some_iff] at h
  obtain ⟨p, hp, rfl⟩ := h
  refine ⟨p, hp, fun i => ?_⟩
  rw [List.getElem?_mapIdx, getElem?_marked, Option.map_map]
  rfl

section

variable {kind : RouteKind} {rules rules' : List Rule} {skip : List Nat}
  (hapart : ∀ d ∈ destinations, d.service ≠ canary ∧ d.service ≠ stable)
  (h : distribute kind rules canary stable desired destinations skip = .ok rules')

include hapart h

/-- The rules of a request reference the two services where the earlier ones did. -/
theorem references_of_distribute {service : String} (hservice : service = canary ∨ service = stable)
    (i : Nat) : (rules'[i]?.map fun r => r.references service) =
      rules[i]?.map fun r => r.references service := by
  obtain ⟨-, -, hweigh⟩ := distribute_eq_ok_iff.1 h
  obtain ⟨p, -, hrules⟩ := getElem?_of_weighRules hweigh
  rw [hrules, Option.map_map]
  congr 1
  funext r
  refine references_weighRule hservice (fun d hd => ?_) _ _ r
  rcases hservice with rfl | rfl
  · exact (hapart d hd).1
  · exact (hapart d hd).2

/-- So both services are referenced. -/
theorem anyReferences_of_distribute {service : String}
    (hservice : service = canary ∨ service = stable) : anyReferences rules' service := by
  obtain ⟨hcanary, hstable, -⟩ := distribute_eq_ok_iff.1 h
  rw [anyReferences_congr (references_of_distribute hapart h hservice)]
  rcases hservice with rfl | rfl
  · exact hcanary
  · exact hstable

/-- The primary rule is the one that was weighed as such. -/
theorem findPrimaryRule_of_distribute : ∃ p r, findPrimaryRule kind rules' canary stable skip = .ok p ∧
    (r.references canary ∨ r.references stable) ∧
    rules'[p]? = some (weighRule canary stable desired destinations (decide (p ∈ skip)) true r) := by
  obtain ⟨-, -, hweigh⟩ := distribute_eq_ok_iff.1 h
  obtain ⟨p, hp, hrules⟩ := getElem?_of_weighRules hweigh
  have hmap : ∀ es : List (Rule × Bool), es.findIdx? (mayBePrimary canary stable) =
      (es.map (mayBePrimary canary stable)).findIdx? id := fun es => by
    rw [List.findIdx?_map]
    rfl
  have hsame : (marked skip rules').map (mayBePrimary canary stable) =
      (marked skip rules).map (mayBePrimary canary stable) := by
    ext1 i
    have hc := references_of_distribute hapart h (.inl rfl) i
    have hs := references_of_distribute hapart h (.inr rfl) i
    rw [List.getElem?_map, List.getElem?_map, getElem?_marked, getElem?_marked]
    cases hr : rules[i]? with
    | none => rw [hrules, hr]; rfl
    | some r =>
      rw [hrules, hr] at hc hs ⊢
      simp only [Option.map_some, Option.some.injEq] at hc hs ⊢
      simp only [mayBePrimary, hc, hs]
  obtain ⟨hlt, hmay, -⟩ := List.findIdx?_eq_some_iff_getElem.1 hp
  have hget := List.getElem?_eq_getElem hlt
  rw [getElem?_marked, Option.map_eq_some_iff] at hget
  obtain ⟨r, hr, he⟩ := hget
  rw [← he] at hmay
  simp only [mayBePrimary, Bool.and_eq_true, Bool.or_eq_true] at hmay
  refine ⟨p, r, ?_, hmay.2, by rw [hrules, hr]; simp⟩
  rw [findPrimaryRule_eq, hmap, hsame, ← hmap, hp]
  rfl

/-- The canary has its share outside the rules to skip. -/
theorem haveWeight_canary_of_distribute (hne : canary ≠ stable) (hdesired : 0 ≤ desired) :
    haveWeight rules' canary (splitWeights desired destinations).canary skip := by
  obtain ⟨-, -, hweigh⟩ := distribute_eq_ok_iff.1 h
  obtain ⟨p, -, hrules⟩ := getElem?_of_weighRules hweigh
  refine haveWeight_iff.2 fun i r hr hi => ?_
  rw [hrules, Option.map_eq_some_iff] at hr
  obtain ⟨r, -, rfl⟩ := hr
  rw [decide_eq_false hi]
  exact gives_canary_weighRule hne hdesired (fun d hd => (hapart d hd).1) _ r

/-- The stable service has what the desired weight leaves, and nothing else. -/
theorem haveWeight_stable_of_distribute (hne : canary ≠ stable) (checked : Int) :
    haveWeight rules' stable (100 - checked) [] = decide (checked = desired) := by
  obtain ⟨-, -, hweigh⟩ := distribute_eq_ok_iff.1 h
  obtain ⟨p, -, hrules⟩ := getElem?_of_weighRules hweigh
  have hgives : ∀ (i : Nat) (r : Rule), rules'[i]? = some r → Gives stable (100 - desired) r.refs := by
    intro i r hr
    rw [hrules, Option.map_eq_some_iff] at hr
    obtain ⟨r, -, rfl⟩ := hr
    exact gives_stable_weighRule hne (fun d hd => (hapart d hd).2) _ _ r
  rw [Bool.eq_iff_iff, decide_eq_true_iff, haveWeight_iff]
  constructor
  · intro hhave
    -- there is a reference to the stable service, and it has one weight only
    obtain ⟨r, hr, href⟩ := List.any_eq_true.1 (anyReferences_of_distribute hapart h (.inr rfl))
    obtain ⟨i, hi, rfl⟩ := List.getElem_of_mem hr
    obtain ⟨b, hb, hname⟩ := List.any_eq_true.1 href
    rw [decide_eq_true_eq] at hname
    have hthis := hhave i _ (List.getElem?_eq_getElem hi) List.not_mem_nil b hb hname
    have hthat := hgives i _ (List.getElem?_eq_getElem hi) b hb hname
    rw [hthis, Option.some.injEq] at hthat
    omega
  · rintro rfl i r hr -
    exact hgives i r hr

end

/-- The check for weights, if there is something to check. -/
theorem weightsApplied_eq {kind : RouteKind} {rules : List Rule} {skip : List Nat} {p : Nat}
    (hcanary : anyReferences rules canary) (hstable : anyReferences rules stable)
    (hp : findPrimaryRule kind rules canary stable skip = .ok p) :
    weightsApplied kind rules canary stable desired destinations skip =
      .ok ((haveWeight rules canary (splitWeights desired destinations).canary skip &&
        haveWeight rules stable (100 - desired) []) &&
        ((destinations.all fun d => ((rules[p]?.map Rule.refs).getD []).any fun b =>
          b.name = d.service && b.weight = some d.weight) &&
        !((rules[p]?.map Rule.refs).getD []).any fun b =>
          b.name ≠ canary && b.name ≠ stable && !isRequested destinations b.name)) := by
  obtain ⟨x, hx⟩ := (findBackendRefs_isOk kind rules canary skip).2 hcanary
  obtain ⟨y, hy⟩ := (findBackendRefs_isOk kind rules stable []).2 hstable
  unfold weightsApplied
  rw [hx, hy]
  simp only [bind, Except.bind, pure, Except.pure]
  rw [show (splitWeights desired destinations).stable = 100 - desired from rfl]
  cases haveWeight rules canary (splitWeights desired destinations).canary skip &&
      haveWeight rules stable (100 - desired) [] with
  | false => rfl
  | true =>
    rw [hp]
    rfl

/-- The weights that a request has written are found again, and no others. -/
theorem weightsApplied_of_distribute {kind : RouteKind} {rules rules' : List Rule}
    {skip : List Nat} (hne : canary ≠ stable)
    (hnodup : (destinations.map WeightDestination.service).Nodup)
    (hapart : ∀ d ∈ destinations, d.service ≠ canary ∧ d.service ≠ stable) (hdesired : 0 ≤ desired)
    (h : distribute kind rules canary stable desired destinations skip = .ok rules')
    (checked : Int) :
    weightsApplied kind rules' canary stable checked destinations skip =
      .ok (decide (checked = desired)) := by
  obtain ⟨p, r, hprimary, hrefers, hp⟩ := findPrimaryRule_of_distribute hapart h
  rw [weightsApplied_eq (anyReferences_of_distribute hapart h (.inl rfl))
    (anyReferences_of_distribute hapart h (.inr rfl)) hprimary,
    haveWeight_stable_of_distribute hapart h hne checked, hp]
  by_cases hchecked : checked = desired
  · subst hchecked
    simp only [haveWeight_canary_of_distribute hapart h hne hdesired, Option.map_some,
      Option.getD_some, decide_true, Bool.true_and, Except.ok.injEq, Bool.and_eq_true,
      List.all_eq_true, Bool.not_eq_true', List.any_eq_false]
    refine ⟨fun d hd => ?_, fun b hb => ?_⟩
    · obtain ⟨b, hb, hname, hweight⟩ := mem_primary hnodup (decide (p ∈ skip)) hrefers d hd
      exact List.any_eq_true.2 ⟨b, hb, by simp [hname, hweight]⟩
    · have hname := name_of_mem_primary _ _ hb
      simp only [decide_eq_true_eq]
      rintro ⟨⟨hcan, hsta⟩, hreq⟩
      rcases hname with h | h | h
      · exact hcan h
      · exact hsta h
      · rw [hreq] at h
        cases h
  · simp [hchecked]

end

end CanaryRouting
