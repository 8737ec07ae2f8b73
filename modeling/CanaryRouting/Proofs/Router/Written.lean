import CanaryRouting.Proofs.Gateway.Codec
import CanaryRouting.Proofs.Router.HeaderChange
import CanaryRouting.Proofs.Shaping.Percentages

/-!
# Operations write settled objects

An operation changes some parts of an object and copies the others. So what it makes of a settled
object is settled again: a route that gets weights (`Route.Settled.reweigh`), a route that gains or
loses header routes (`Route.Settled.after_of_on`), and a document that records them
(`Document.Settled.store`). The weights that are asked for must fit into 32 bits; those that are
computed are percentages.
-/

namespace CanaryRouting

variable {kind : RouteKind}

/-! ### References -/

namespace BackendRef.Settled

variable {b : BackendRef} (h : b.Settled kind)
include h

theorem withWeight (weight : Option Int) (hweight : ∀ n ∈ weight, IsInt32 n) :
    (b.withWeight weight).Settled kind := ⟨h.filters, h.port, hweight⟩

theorem retarget (name : String) : (b.retarget name).Settled kind := ⟨h.filters, h.port, h.weight⟩

theorem asPlainService : b.asPlainService.Settled kind := ⟨nofun, h.port, h.weight⟩

end BackendRef.Settled

/-- Placing a further service among settled references keeps them settled. -/
theorem settled_placeDestination {refs : List BackendRef} {d : WeightDestination}
    (h : ∀ b ∈ refs, b.Settled kind) (hd : IsInt32 d.weight) :
    ∀ b ∈ placeDestination refs d, b.Settled kind := by
  have hweight : ∀ n ∈ some d.weight, IsInt32 n := by
    rintro _ ⟨⟩
    exact hd
  unfold placeDestination
  split
  · refine List.forall_mem_map.2 fun b hb => ?_
    split
    · exact (h b hb).withWeight _ hweight
    · exact h b hb
  · split
    · next first hfirst =>
      have hcopy := ((h first (List.mem_of_head? hfirst)).retarget d.service).withWeight _ hweight
      exact List.forall_mem_append.2 ⟨h, List.forall_mem_singleton.2 hcopy⟩
    · exact List.forall_mem_nil _

theorem settled_placeDestinations {refs : List BackendRef} {destinations : List WeightDestination}
    (h : ∀ b ∈ refs, b.Settled kind) (hdestinations : ∀ d ∈ destinations, IsInt32 d.weight) :
    ∀ b ∈ placeDestinations refs destinations, b.Settled kind := by
  unfold placeDestinations
  induction destinations generalizing refs with
  | nil => exact h
  | cons d destinations ih =>
    rw [List.forall_mem_cons] at hdestinations
    exact ih (settled_placeDestination h hdestinations.1) hdestinations.2

/-! ### Rules -/

theorem IsPercentage.isInt32 {weight : Int} (h : IsPercentage weight) : IsInt32 weight := by
  have := h.1
  have := h.2
  constructor <;> omega

namespace Rule.Settled

variable {r : Rule} (h : r.Settled kind)
include h

theorem mem_refs {b : BackendRef} (hb : b ∈ r.refs) : b.Settled kind := by
  unfold Rule.refs at hb
  cases hrefs : r.backendRefs with
  | none =>
    rw [hrefs] at hb
    cases hb
  | some bs =>
    rw [hrefs] at hb
    exact h.refs bs hrefs b hb

theorem modifyRefs {f : List BackendRef → List BackendRef}
    (hf : ∀ b ∈ f r.refs, b.Settled kind) : (r.modifyRefs f).Settled kind where
  refs := by
    rintro _ ⟨⟩
    exact hf
  listed _ := rfl
  filters := h.filters
  conditions := h.conditions
  timeouts := h.timeouts

theorem weigh (service : String) {weight : Int} (hweight : IsInt32 weight) :
    (r.weigh service weight).Settled kind where
  refs := by
    intro bs hbs
    obtain ⟨bs₀, hbs₀, rfl⟩ := Option.map_eq_some_iff.1 hbs
    refine List.forall_mem_map.2 fun b hb => ?_
    split
    · exact (h.refs bs₀ hbs₀ b hb).withWeight _ fun n hn => Option.some.inj hn ▸ hweight
    · exact h.refs bs₀ hbs₀ b hb
  listed hkind := by
    rw [Rule.weigh, Option.isSome_map]
    exact h.listed hkind
  filters := h.filters
  conditions := h.conditions
  timeouts := h.timeouts

/-- A settled rule gets settled weights. -/
theorem weighRule {canary stable : String} {desired : Int} {destinations : List WeightDestination}
    (hdesired : IsPercentage desired) (hdestinations : ∀ d ∈ destinations, IsInt32 d.weight)
    (skipped primary : Bool) :
    Settled kind (CanaryRouting.weighRule canary stable desired destinations skipped primary r) := by
  have hown {weight : Int} (hweight : IsPercentage weight) {r' : Rule} (h' : r'.Settled kind) :
      (if skipped then r' else r'.weigh canary weight).Settled kind := by
    split
    · exact h'
    · exact h'.weigh canary hweight.isInt32
  have hstable : IsPercentage (100 - desired) := by
    have := hdesired.1
    have := hdesired.2
    constructor <;> omega
  have hif {r₁ r₂ : Rule} (h₁ : r₁.Settled kind) (h₂ : r₂.Settled kind) :
      (if primary then r₁ else r₂).Settled kind := by
    split
    · exact h₁
    · exact h₂
  have hweighed := (hown hdesired h).weigh stable hstable.isInt32
  have hkept := hif (hweighed.modifyRefs (f := dropStale canary stable destinations) fun b hb =>
    hweighed.mem_refs (List.mem_of_mem_filter hb)) hweighed
  have hcanary : IsPercentage (splitWeights desired destinations).canary :=
    isPercentage_canary hdesired
  have hshared := hown hcanary hkept
  have hplaced := hif (hshared.modifyRefs (f := (placeDestinations · destinations))
    (settled_placeDestinations (fun b => hshared.mem_refs) hdestinations)) hshared
  unfold CanaryRouting.weighRule
  simp only
  split
  · exact hkept
  · exact hplaced

/-- The rule of a header route is settled if its template is. -/
theorem forHeaders {backend : BackendRef} (hkind : kind.supportsHeaderRoutes)
    (hbackend : backend ∈ r.refs) (headers : List HeaderPredicate) :
    (r.forHeaders headers backend).Settled kind where
  refs := by
    rintro _ ⟨⟩
    exact List.forall_mem_singleton.2 ((h.mem_refs hbackend).withWeight none nofun).asPlainService
  listed _ := rfl
  filters := h.filters
  conditions := by
    rintro _ ⟨⟩
    refine ⟨hkind, ?_⟩
    have hheaders : Condition.Settled kind ⟨some headers, []⟩ :=
      Shape.settledMembers_nil (by cases kind <;> simp [Shape.condition, Shape.may])
    cases hcs : r.conditions with
    | none => exact List.forall_mem_singleton.2 hheaders
    | some cs =>
      cases cs with
      | nil => exact List.forall_mem_singleton.2 hheaders
      | cons c cs => exact List.forall_mem_map.2 fun c' hc' => (h.conditions _ hcs).2 c' hc'
  timeouts := h.timeouts

end Rule.Settled

/-! ### Routes -/

namespace Route.Settled

variable {r r' : Route} (h : r.Settled)
include h

theorem mem_rules {rule : Rule} (hrule : rule ∈ r.rules) : rule.Settled r.kind := by
  unfold Route.rules at hrule
  cases hrules : r.ruleList with
  | none =>
    rw [hrules] at hrule
    cases hrule
  | some rs =>
    rw [hrules] at hrule
    exact h.rules rs hrules rule hrule

theorem withRules {rules : List Rule} (hrules : ∀ rule ∈ rules, rule.Settled r.kind) :
    (r.withRules rules).Settled where
  metadata := h.metadata
  rules := by
    rintro _ ⟨⟩
    exact hrules
  listed _ := rfl
  others := h.others
  status := h.status

/-- A settled route stays settled when its weights are set. -/
theorem reweigh {rollout : Rollout} {settings : Settings} {desired : Int}
    {destinations : List WeightDestination} {skip : List Nat} (hdesired : IsPercentage desired)
    (hdestinations : ∀ d ∈ destinations, IsInt32 d.weight)
    (hr' : Router.reweigh rollout settings desired destinations skip r = .ok r') :
    r'.Settled := by
  obtain ⟨rules, hdistribute, rfl⟩ := Router.reweigh_eq_ok.1 hr'
  obtain ⟨p, -, -, rfl⟩ := exists_isPrimary_of_distribute hdistribute
  obtain ⟨labels, hlabels⟩ := r.metadata.ensureLabel_eq desired settings
  have hrules : ∀ rule ∈ r.rules.mapIdx fun i rule => weighRule rollout.canaryService
      rollout.stableService desired destinations (i ∈ skip) (i = p) rule, rule.Settled r.kind := by
    intro rule hrule
    obtain ⟨i, hi, rfl⟩ := List.mem_mapIdx.1 hrule
    exact (h.mem_rules (List.getElem_mem hi)).weighRule hdesired hdestinations _ _
  have hweighed := h.withRules hrules
  rw [hlabels]
  exact ⟨h.metadata, hweighed.rules, hweighed.listed, h.others, h.status⟩

/-- A settled route stays settled when header routes are set or removed. -/
theorem after_of_on {change : HeaderChange} {rollout : Rollout} {target : Target}
    {registry : ManagedRoutes} {routeChange : Router.RouteChange}
    (hon : change.on rollout target registry r = .ok (some routeChange)) :
    routeChange.after.Settled := by
  obtain ⟨rfl, -, hproper⟩ := Router.proper_of_on hon ""
  obtain ⟨rules, hafter⟩ := hproper.after_eq
  rw [hafter]
  refine h.withRules ?_
  have hrules : routeChange.after.rules = rules := by rw [hafter]; rfl
  refine hrules ▸ hproper.edits.forall_rules ?_ fun rule => h.mem_rules
  rintro name rule ⟨headers, i, -, hinject, hrule⟩
  obtain ⟨hkind, rules', hinject', hroute⟩ := Router.inject_eq_ok.1 hinject
  obtain ⟨rfl, template, htemplate, backend, hbackend, rfl⟩ := injectHeaderRule_ok hinject'
  rw [← hroute] at hrule
  obtain rfl : template.forHeaders headers backend = rule := by
    simpa [Route.withRules, Route.rules] using hrule
  exact (h.mem_rules htemplate).forHeaders hkind hbackend headers

end Route.Settled

/-! ### Documents -/

theorem Document.Settled.store {d : Document} (h : d.Settled) (m : ManagedRoutes) (key : String) :
    (m.store d key).Settled := ⟨h.metadata, h.others⟩

end CanaryRouting
