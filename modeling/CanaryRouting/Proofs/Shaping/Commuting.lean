import CanaryRouting.Proofs.Registry.Positions
import CanaryRouting.Proofs.Shaping.Weights
import CanaryRouting.Shaping.HeaderRule

/-!
# Weights and header rules

A request for weights does not change what the rule of a header route is made from
(`blueprint_weighRule`), so the same rule is added before and after (`injectHeaderRule_weighRules`).
It is passed over, and has no reference to the stable service, so it is not weighed itself.
-/

namespace CanaryRouting

/-- The first reference in a list to a service, apart from its weight. -/
def refTo? (service : String) (refs : List BackendRef) : Option BackendRef :=
  (refs.find? fun b => b.name = service).map fun b => b.withWeight none

theorem Rule.references_eq (r : Rule) (service : String) :
    r.references service = (refTo? service r.refs).isSome := by
  rw [references, refTo?, Option.isSome_map, List.isSome_find?]

/-- Weights do not count. -/
theorem refTo?_map {f : BackendRef → BackendRef}
    (hf : ∀ b, (f b).withWeight none = b.withWeight none) (service : String)
    (refs : List BackendRef) : refTo? service (refs.map f) = refTo? service refs := by
  have hname : (fun b : BackendRef => decide (b.name = service)) ∘ f =
      fun b => decide (b.name = service) := by
    funext b
    have := congrArg BackendRef.name (hf b)
    simp only [BackendRef.withWeight] at this
    simp only [Function.comp, this]
  rw [refTo?, List.find?_map, hname, Option.map_map, refTo?]
  congr 1
  funext b
  exact hf b

theorem refTo?_weigh (r : Rule) (name service : String) (weight : Int) :
    refTo? service (r.weigh name weight).refs = refTo? service r.refs := by
  cases r with
  | mk n c f t refs =>
    cases refs with
    | none => rfl
    | some refs => exact refTo?_map (fun b => by split <;> rfl) service refs

section

variable {canary stable : String} {desired : Int} {destinations : List WeightDestination}

theorem refTo?_dropStale {service : String} (h : service = canary ∨ service = stable)
    (refs : List BackendRef) :
    refTo? service (dropStale canary stable destinations refs) = refTo? service refs := by
  rw [refTo?, dropStale, List.find?_filter, refTo?]
  congr 2
  funext b
  by_cases hb : b.name = service
  · rcases h with rfl | rfl <;> simp [hb]
  · simp [hb]

theorem refTo?_placeDestination {service : String} {d : WeightDestination}
    (h : d.service ≠ service) (refs : List BackendRef) :
    refTo? service (placeDestination refs d) = refTo? service refs := by
  unfold placeDestination
  split
  · exact refTo?_map (fun b => by split <;> rfl) service refs
  · cases refs with
    | nil => rfl
    | cons b refs =>
      simp only [List.head?_cons]
      rw [refTo?, List.find?_append, List.find?_singleton, if_neg (by simp [BackendRef.withWeight, BackendRef.retarget, h]),
        Option.or_none, refTo?]

theorem refTo?_placeDestinations {service : String} (h : ∀ d ∈ destinations, d.service ≠ service)
    (refs : List BackendRef) :
    refTo? service (placeDestinations refs destinations) = refTo? service refs := by
  unfold placeDestinations
  induction destinations generalizing refs with
  | nil => rfl
  | cons d destinations ih =>
    rw [List.foldl_cons, ih fun d' hd' => h d' (List.mem_cons_of_mem _ hd'),
      refTo?_placeDestination (h d (List.mem_cons_self ..))]

/-- A request for weights keeps the first reference to the canary and to the stable service, unless
one of them is a further service, too. -/
theorem refTo?_weighRule {service : String} (h : service = canary ∨ service = stable)
    (hapart : ∀ d ∈ destinations, d.service ≠ service) (skipped primary : Bool) (r : Rule) :
    refTo? service (weighRule canary stable desired destinations skipped primary r).refs =
      refTo? service r.refs := by
  have hown : ∀ (weight : Int) (r : Rule),
      refTo? service (if skipped then r else r.weigh canary weight).refs = refTo? service r.refs := by
    intro weight r
    split
    · rfl
    · exact refTo?_weigh ..
  have hkept : ∀ r : Rule, refTo? service (if primary then
      r.modifyRefs (dropStale canary stable destinations) else r).refs = refTo? service r.refs := by
    intro r
    split
    · exact refTo?_dropStale h _
    · rfl
  have hplaced : ∀ r : Rule, refTo? service (if primary then
      r.modifyRefs (placeDestinations · destinations) else r).refs = refTo? service r.refs := by
    intro r
    split
    · exact refTo?_placeDestinations hapart _
    · rfl
  unfold weighRule
  simp only
  split
  · rw [hkept, refTo?_weigh, hown]
  · rw [hplaced, hown, hkept, refTo?_weigh, hown]

/-- What a request for weights leaves of a rule, the backend references apart. -/
theorem bare_weighRule (skipped primary : Bool) (r : Rule) :
    (weighRule canary stable desired destinations skipped primary r).bare = r.bare := by
  cases skipped <;> cases primary <;> cases h : destinations.isEmpty <;>
    simp [weighRule, h, Rule.bare, Rule.weigh, Rule.modifyRefs]

end

/-! ### The rule of a header route -/

/-- What the rule of a header route is made from. -/
def Rule.blueprint (canary stable : String) (r : Rule) :
    Rule × Option BackendRef × Option BackendRef :=
  (r.bare, refTo? canary r.refs, refTo? stable r.refs)

/-- The rule of a header route, made from what is needed of the other rules, if there is one that
references both services. -/
def headerRule? (headers : List HeaderPredicate)
    (blueprints : List (Rule × Option BackendRef × Option BackendRef)) : Option Rule :=
  (blueprints.find? fun b => b.2.1.isSome && b.2.2.isSome).bind fun b =>
    b.2.1.map fun backend => b.1.forHeaders headers backend

theorem injectHeaderRule_eq_ok_iff {kind : RouteKind} {rules rules' : List Rule}
    {canary stable : String} {headers : List HeaderPredicate} {i : Nat} :
    injectHeaderRule kind rules canary stable headers = .ok (rules', i) ↔
      ∃ rule, headerRule? headers (rules.map (Rule.blueprint canary stable)) = some rule ∧
        rules' = rules ++ [rule] ∧ i = rules.length := by
  have hfind : ((rules.map (Rule.blueprint canary stable)).find?
      fun b => b.2.1.isSome && b.2.2.isSome) = ((rules.findIdx? fun r =>
        r.references canary && r.references stable).bind fun i => rules[i]?).map
          (Rule.blueprint canary stable) := by
    rw [List.find?_map, ← List.find?_eq_bind_findIdx?_getElem?]
    congr 2
    funext r
    simp [Rule.blueprint, Rule.references_eq]
  rw [headerRule?, hfind]
  unfold injectHeaderRule findRuleWithServices
  cases hbase : rules.findIdx? fun r => r.references canary && r.references stable with
  | none => exact ⟨(nomatch ·), fun ⟨_, h, _⟩ => nomatch h⟩
  | some base =>
    obtain ⟨hlt, hp, -⟩ := List.findIdx?_eq_some_iff_getElem.1 hbase
    have htemplate : rules.getD base {} = rules[base] := by
      rw [List.getD_eq_getElem?_getD, List.getElem?_eq_getElem hlt, Option.getD_some]
    simp only [bind, Except.bind, htemplate, Option.bind_some, List.getElem?_eq_getElem hlt,
      Option.map_some, Rule.blueprint, refTo?, Option.map_map]
    cases hb : rules[base].refs.find? fun b => b.name = canary with
    | none => simp
    | some backend =>
      simp only [pure, Except.pure, Except.ok.injEq, Prod.mk.injEq, Option.map_some,
        Option.some.injEq, Function.comp, exists_eq_left']
      exact ⟨fun ⟨h, h'⟩ => ⟨h.symm, h'.symm⟩, fun ⟨h, h'⟩ => ⟨h.symm, h'.symm⟩⟩

section

variable {canary stable : String} {desired : Int} {destinations : List WeightDestination}

/-- There is such a rule only if both services are referenced. -/
theorem references_of_headerRule {headers : List HeaderPredicate} {rules : List Rule} {rule : Rule}
    (h : headerRule? headers (rules.map (Rule.blueprint canary stable)) = some rule) :
    anyReferences rules canary ∧ anyReferences rules stable := by
  obtain ⟨b, hb, -⟩ := Option.bind_eq_some_iff.1 h
  obtain ⟨r, hr, rfl⟩ := List.mem_map.1 (List.mem_of_find?_eq_some hb)
  have hboth : r.references canary ∧ r.references stable := by
    simpa [Rule.blueprint, Rule.references_eq] using List.find?_some hb
  exact ⟨List.any_eq_true.2 ⟨r, hr, hboth.1⟩, List.any_eq_true.2 ⟨r, hr, hboth.2⟩⟩

theorem blueprint_weighRule
    (hapart : ∀ d ∈ destinations, d.service ≠ canary ∧ d.service ≠ stable)
    (skipped primary : Bool) (r : Rule) :
    (weighRule canary stable desired destinations skipped primary r).blueprint canary stable =
      r.blueprint canary stable := by
  simp only [Rule.blueprint, bare_weighRule,
    refTo?_weighRule (.inl rfl) fun d hd => (hapart d hd).1,
    refTo?_weighRule (.inr rfl) fun d hd => (hapart d hd).2]

/-- The rule of a header route sends its traffic to the canary alone, without a weight. -/
theorem backendRefs_of_headerRule {headers : List HeaderPredicate} {rules : List Rule}
    {rule : Rule}
    (h : headerRule? headers (rules.map (Rule.blueprint canary stable)) = some rule) :
    ∃ b, rule.backendRefs = some [b] ∧ b.name = canary ∧ b.weight = none := by
  obtain ⟨b, hb, hrule⟩ := Option.bind_eq_some_iff.1 h
  obtain ⟨r, -, rfl⟩ := List.mem_map.1 (List.mem_of_find?_eq_some hb)
  obtain ⟨backend, hbackend, rfl⟩ := Option.map_eq_some_iff.1 hrule
  obtain ⟨found, hfound, rfl⟩ := Option.map_eq_some_iff.1 hbackend
  have hname : found.name = canary := by simpa using List.find?_some hfound
  exact ⟨_, rfl, hname, rfl⟩

/-- The rule that is added for a header route is passed over, and has nothing to weigh. -/
theorem weighRule_headerRule {headers : List HeaderPredicate} {rules : List Rule} {rule : Rule}
    (hne : canary ≠ stable)
    (h : headerRule? headers (rules.map (Rule.blueprint canary stable)) = some rule) :
    weighRule canary stable desired destinations true false rule = rule := by
  obtain ⟨b, hrefs, hname, -⟩ := backendRefs_of_headerRule h
  have hkept : { rule with backendRefs := some [b] } = rule := by rw [← hrefs]
  simpa [weighRule, Rule.weigh, hrefs, hname, hne] using hkept

end

end CanaryRouting
