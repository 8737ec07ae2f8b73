import CanaryRouting.Proofs.Shaping.Shares

/-!
# Rules that a check has accepted

The check for weights looks at every reference to the canary and to the stable service. Of the
further services it looks whether the primary rule has a reference with the right weight, so one
with another weight beside it is not seen. What a request makes of rules that the check has accepted
is therefore limited to such references (`settled_of_weightsApplied`); if there are none, it leaves
the rules as they are.
-/

namespace CanaryRouting

/-- What the check for weights has seen when it accepts the rules, of which `r` at `p` is the
primary one. -/
structure Checked (canary stable : String) (desired : Int) (destinations : List WeightDestination)
    (skip : List Nat) (rules : List Rule) (p : Nat) (r : Rule) : Prop where
  /-- The rule is the primary one. -/
  primary : IsPrimary canary stable skip rules p r
  /-- The canary is referenced. -/
  canaryReferenced : anyReferences rules canary
  /-- The stable service is referenced. -/
  stableReferenced : anyReferences rules stable
  /-- Outside the rules to skip every reference to the canary has its share. -/
  canaryShare : ∀ (i : Nat) (r' : Rule), rules[i]? = some r' → i ∉ skip →
    Gives canary (max 0 (desired - extraShare destinations)) r'.refs
  /-- Every reference to the stable service has its share. -/
  stableShare : ∀ (i : Nat) (r' : Rule), rules[i]? = some r' → Gives stable (100 - desired) r'.refs
  /-- The primary rule has a reference with the right weight to every further service. -/
  placed : ∀ d ∈ destinations, ∃ b ∈ r.refs, b.name = d.service ∧ b.weight = some d.weight
  /-- The primary rule references no other services. -/
  known : ∀ b ∈ r.refs, b.name = canary ∨ b.name = stable ∨ isRequested destinations b.name

section

variable {canary stable : String} {desired : Int} {destinations : List WeightDestination}
  {skip : List Nat} {rules rules' : List Rule} {p : Nat} {r : Rule} {kind : RouteKind}

/-! ### What the check has seen -/

/-- The check finds the references and the primary rule before it accepts the rules. -/
theorem found_of_weightsApplied
    (h : weightsApplied kind rules canary stable desired destinations skip = .ok true) :
    anyReferences rules canary ∧ anyReferences rules stable ∧
      ∃ p, findPrimaryRule kind rules canary stable skip = .ok p := by
  rw [← findBackendRefs_isOk kind rules canary skip, ← findBackendRefs_isOk kind rules stable []]
  unfold weightsApplied at h
  cases hcanary : findBackendRefs kind rules canary skip with
  | error e => simp [hcanary, bind, Except.bind] at h
  | ok x =>
    cases hstable : findBackendRefs kind rules stable [] with
    | error e => simp [hcanary, hstable, bind, Except.bind] at h
    | ok y =>
      cases hp : findPrimaryRule kind rules canary stable skip with
      | error e =>
        simp only [hcanary, hstable, hp, bind, Except.bind] at h
        split at h <;> cases h
      | ok p => exact ⟨⟨x, rfl⟩, ⟨y, rfl⟩, p, rfl⟩

theorem exists_checked_of_weightsApplied
    (h : weightsApplied kind rules canary stable desired destinations skip = .ok true) :
    ∃ p r, Checked canary stable desired destinations skip rules p r := by
  obtain ⟨hcanary, hstable, p, hp⟩ := found_of_weightsApplied h
  rw [weightsApplied_eq hcanary hstable hp] at h
  rw [findPrimaryRule_eq] at hp
  cases hfind : (marked skip rules).findIdx? (mayBePrimary canary stable) with
  | none =>
    rw [hfind] at hp
    cases hp
  | some q =>
    rw [hfind] at hp
    cases hp
    obtain ⟨r, hprimary⟩ := isPrimary_iff.1 hfind
    rw [hprimary.get] at h
    simp only [Option.map_some, Option.getD_some, Except.ok.injEq, Bool.and_eq_true,
      haveWeight_iff, splitWeights_canary, List.all_eq_true, List.any_eq_true, decide_eq_true_eq,
      Bool.not_eq_true', List.any_eq_false, not_and, Bool.not_eq_false] at h
    obtain ⟨⟨hcanaryShare, hstableShare⟩, hplaced, hknown⟩ := h
    refine ⟨p, r, hprimary, hcanary, hstable, hcanaryShare, ?_, hplaced, ?_⟩
    · intro i r' hr'
      exact hstableShare i r' hr' List.not_mem_nil
    · intro b hb
      by_cases hc : b.name = canary
      · exact .inl hc
      · by_cases hs : b.name = stable
        · exact .inr (.inl hs)
        · exact .inr (.inr (hknown b hb ⟨hc, hs⟩))

/-! ### What a request then changes -/

theorem BackendRef.withWeight_self {b : BackendRef} {w : Option Int} (h : b.weight = w) :
    b.withWeight w = b := by
  cases h
  rfl

/-- References to the canary and the stable service that have their shares keep them. -/
theorem BackendRef.share_self {b : BackendRef} {refs : List BackendRef} {skipped : Bool}
    (hne : canary ≠ stable) (hdesired : 0 ≤ desired)
    (hcanary : skipped = false → Gives canary (max 0 (desired - extraShare destinations)) refs)
    (hstable : Gives stable (100 - desired) refs) (hb : b ∈ refs) :
    b.share canary stable desired destinations skipped = b := by
  rw [share_eq hne hdesired]
  split
  · next hown => exact withWeight_self (hcanary hown.2 b hb hown.1)
  · split
    · next hname => exact withWeight_self (hstable b hb hname)
    · rfl

/-- No further service is new to references that have one to each. -/
theorem newcomers_eq_nil {names : List String} (h : ∀ d ∈ destinations, d.service ∈ names) :
    newcomers names destinations = [] := by
  apply List.eq_nil_iff_forall_not_mem.2
  intro name hmem
  obtain ⟨hnew, d, hd, rfl⟩ := mem_newcomers hmem
  exact hnew (h d hd)

/-- Of a rule in which nothing is dropped and nothing is missing, only the weights change. -/
theorem weighRule_true_of_known {skipped : Bool} (hrefs : r.refs ≠ [])
    (hknown : ∀ b ∈ r.refs, b.name = canary ∨ b.name = stable ∨ isRequested destinations b.name)
    (hplaced : ∀ d ∈ destinations, d.service ∈ r.refs.map BackendRef.name) :
    weighRule canary stable desired destinations skipped true r = r.mapRefs fun b =>
      (b.share canary stable desired destinations skipped).settle destinations := by
  have hkept : dropStale canary stable destinations r.refs = r.refs := by
    apply List.filter_eq_self.2
    intro b hb
    simpa [or_assoc] using hknown b hb
  have hhead : (dropStale canary stable destinations r.refs).head? = some (r.refs.head hrefs) := by
    rw [hkept, List.head?_eq_some_head hrefs]
  -- An absent list would come back as an empty one.
  have hlist : r.backendRefs = some r.refs := by
    cases hnone : r.backendRefs with
    | none => simp [Rule.refs, hnone] at hrefs
    | some refs => simp [Rule.refs, hnone]
  rw [weighRule_true_of_head hhead, hkept, newcomers_eq_nil hplaced, Rule.mapRefs, hlist]
  simp

namespace Checked

variable (h : Checked canary stable desired destinations skip rules p r)

include h

theorem share_self (hne : canary ≠ stable) (hdesired : 0 ≤ desired) {i : Nat} {r' : Rule}
    (hr' : rules[i]? = some r') {b : BackendRef} (hb : b ∈ r'.refs) :
    b.share canary stable desired destinations (i ∈ skip) = b := by
  apply BackendRef.share_self hne hdesired _ (h.stableShare i r' hr') hb
  intro hskip
  exact h.canaryShare i r' hr' (of_decide_eq_false hskip)

/-- Rules beside the primary one stay as they are. -/
theorem weighRule_other (hne : canary ≠ stable) (hdesired : 0 ≤ desired) {i : Nat} {r' : Rule}
    (hr' : rules[i]? = some r') :
    weighRule canary stable desired destinations (i ∈ skip) false r' = r' := by
  rw [weighRule_false]
  apply Rule.mapRefs_eq_self
  intro b hb
  exact h.share_self hne hdesired hr' hb

/-- In the primary rule only references to further services get other weights. -/
theorem weighRule_primary (hne : canary ≠ stable) (hdesired : 0 ≤ desired) :
    weighRule canary stable desired destinations (p ∈ skip) true r =
      r.mapRefs (BackendRef.settle destinations) := by
  have hrefs : r.refs ≠ [] := by
    intro hnil
    rcases h.primary.references with hrefers | hrefers <;> simp [Rule.references, hnil] at hrefers
  have hplaced : ∀ d ∈ destinations, d.service ∈ r.refs.map BackendRef.name := by
    intro d hd
    obtain ⟨b, hb, hname, -⟩ := h.placed d hd
    exact List.mem_map.2 ⟨b, hb, hname⟩
  rw [weighRule_true_of_known hrefs h.known hplaced]
  apply Rule.mapRefs_congr
  intro b hb
  rw [h.share_self hne hdesired h.primary.get hb]

theorem distribute_eq (hne : canary ≠ stable) (hdesired : 0 ≤ desired) (kind : RouteKind) :
    distribute kind rules canary stable desired destinations skip =
      .ok (rules.modify p fun r => r.mapRefs (BackendRef.settle destinations)) := by
  rw [distribute_eq_ok_iff]
  refine ⟨h.canaryReferenced, h.stableReferenced, ?_⟩
  rw [weighRules_eq, isPrimary_iff.2 ⟨r, h.primary⟩, Option.map_some, Option.some.injEq]
  ext1 i
  rw [List.getElem?_mapIdx, getElem?_marked, List.getElem?_modify, Option.map_map]
  cases hr' : rules[i]? with
  | none => rfl
  | some r' =>
    show some _ = some _
    congr 1
    by_cases hi : p = i
    · subst hi
      have hrule := h.primary.get
      rw [hr', Option.some.injEq] at hrule
      subst hrule
      simpa using h.weighRule_primary hne hdesired
    · simpa [hi, Ne.symm hi] using h.weighRule_other hne hdesired hr'

end Checked

/-- Nothing changes if every reference to a further service has the weight of this one. -/
theorem settle_eq_self_iff (hnodup : (destinations.map WeightDestination.service).Nodup) :
    r.mapRefs (BackendRef.settle destinations) = r ↔
      ∀ d ∈ destinations, Gives d.service d.weight r.refs := by
  constructor
  · intro hself d hd b hb hname
    have hrefs := congrArg Rule.refs hself
    rw [Rule.refs_mapRefs] at hrefs
    have hb' := List.map_inj_left.1 (hrefs.trans (List.map_id r.refs).symm) b hb
    rw [BackendRef.settle_of_mem hnodup hd hname] at hb'
    exact (congrArg BackendRef.weight hb').symm
  · intro hgives
    apply Rule.mapRefs_eq_self
    intro b hb
    by_cases hplaced : ∃ d ∈ destinations, d.service = b.name
    · obtain ⟨d, hd, hname⟩ := hplaced
      rw [BackendRef.settle_of_mem hnodup hd hname.symm]
      exact BackendRef.withWeight_self (hgives d hd b hb hname.symm)
    · apply BackendRef.settle_of_notMem
      intro d hd hname
      exact hplaced ⟨d, hd, hname⟩

/-- If the check accepts the rules, a request succeeds, and gives the references of the primary rule
to further services their weights. So it leaves the rules as they are just if these references,
which the check has only seen one of, have them all. -/
theorem settled_of_weightsApplied (hne : canary ≠ stable) (hdesired : 0 ≤ desired)
    (hnodup : (destinations.map WeightDestination.service).Nodup)
    (h : weightsApplied kind rules canary stable desired destinations skip = .ok true) :
    ∃ p r, IsPrimary canary stable skip rules p r ∧
      distribute kind rules canary stable desired destinations skip =
        .ok (rules.modify p fun r => r.mapRefs (BackendRef.settle destinations)) ∧
      (distribute kind rules canary stable desired destinations skip = .ok rules ↔
        ∀ d ∈ destinations, Gives d.service d.weight r.refs) := by
  obtain ⟨p, r, hchecked⟩ := exists_checked_of_weightsApplied h
  refine ⟨p, r, hchecked.primary, hchecked.distribute_eq hne hdesired kind, ?_⟩
  rw [hchecked.distribute_eq hne hdesired, Except.ok.injEq, ← settle_eq_self_iff hnodup]
  constructor
  · intro hrules
    have hget := congrArg (·[p]?) hrules
    simpa [List.getElem?_modify, hchecked.primary.get] using hget
  · intro hself
    ext1 i
    rw [List.getElem?_modify]
    by_cases hi : p = i
    · subst hi
      simp [hchecked.primary.get, hself]
    · simp [hi]

end

/-- A rule in which a further service is referenced twice, for two ports. -/
def twicePreviewed (weight weight' : Int) : Rule :=
  { backendRefs := some [
      { name := "stable", weight := some 70 },
      { name := "canary", weight := some 20 },
      { name := "preview", port := some 80, weight := some weight },
      { name := "preview", port := some 90, weight := some weight' }] }

theorem settled_of_weightsApplied_twice :
    weightsApplied .http [twicePreviewed 10 10] "canary" "stable" 30
      [{ service := "preview", weight := 10 }] [] = .ok true ∧
    distribute .http [twicePreviewed 10 10] "canary" "stable" 30
      [{ service := "preview", weight := 10 }] [] = .ok [twicePreviewed 10 10] := by
  have haccepted : weightsApplied .http [twicePreviewed 10 10] "canary" "stable" 30
      [{ service := "preview", weight := 10 }] [] = .ok true := rfl
  refine ⟨haccepted, ?_⟩
  obtain ⟨p, r, hprimary, -, hsettled⟩ := settled_of_weightsApplied (by decide) (by decide)
    (by decide) haccepted
  apply hsettled.2
  have hr : r = twicePreviewed 10 10 := by
    simpa using List.mem_of_getElem? hprimary.get
  subst hr
  unfold Gives
  decide

/-- The check accepts rules in which only one of two references has the right weight, and a request
then changes the other one. -/
theorem seen_once :
    weightsApplied .http [twicePreviewed 10 99] "canary" "stable" 30
      [{ service := "preview", weight := 10 }] [] = .ok true ∧
    distribute .http [twicePreviewed 10 99] "canary" "stable" 30
      [{ service := "preview", weight := 10 }] [] = .ok [twicePreviewed 10 10] ∧
    twicePreviewed 10 10 ≠ twicePreviewed 10 99 := by
  refine ⟨rfl, rfl, ?_⟩
  decide

end CanaryRouting
