import CanaryRouting.Proofs.Shaping.Settled
import CanaryRouting.Shaping.Label

/-!
# Requests that are made twice

A request for weights that succeeds leaves nothing to do for a second one of the same kind
(`unchanged_of_repeated`). This holds for any names: further services may be repeated, they may be
the canary or the stable service, and these two may be the same.

Weights are written to references by their names, one after the other, and the last one that is
written to a name stays. So writing them once more changes nothing (`BackendRef.settle_settle`). In
the primary rule, the first request has dropped what the second one would drop, and has added what
the second one would add.
-/

namespace CanaryRouting

namespace BackendRef

/-- The weights that are written to the canary and the stable service, in the order in which they
are written. -/
def ownWeights (canary stable : String) (desired : Int) (destinations : List WeightDestination)
    (skipped : Bool) : List WeightDestination :=
  let own (weight : Int) : List WeightDestination :=
    if skipped then [] else [{ service := canary, weight }]
  own desired ++ { service := stable, weight := 100 - desired } ::
    if destinations.isEmpty then [] else own (splitWeights desired destinations).canary

section

variable {b : BackendRef} {canary stable : String} {desired : Int}
  {destinations : List WeightDestination} {skipped : Bool}

theorem share_eq_settle : b.share canary stable desired destinations skipped =
    b.settle (ownWeights canary stable desired destinations skipped) := by
  cases skipped <;> cases h : destinations.isEmpty <;> simp [share, ownWeights, h, settle]

theorem settle_append (b : BackendRef) (destinations destinations' : List WeightDestination) :
    b.settle (destinations ++ destinations') = (b.settle destinations).settle destinations' :=
  List.foldl_append

/-- Writing the same weights once more changes nothing. -/
theorem settle_settle : (b.settle destinations).settle destinations = b.settle destinations := by
  by_cases hplaced : ∃ d ∈ destinations, d.service = b.name
  · -- What was written first is written over.
    have hweight : b.MayReweigh (fun _ => True) (b.settle destinations) := .settle fun _ => trivial
    rcases hweight with hsame | ⟨-, w, hw⟩
    · rw [hsame, hsame]
    · calc (b.settle destinations).settle destinations
          = (b.withWeight w).settle destinations := by rw [hw]
        _ = b.settle destinations := settle_withWeight hplaced w
  · have hsame : b.settle destinations = b := by
      apply settle_of_notMem
      intro d hd hname
      exact hplaced ⟨d, hd, hname⟩
    rw [hsame, hsame]

/-- A reference that has got its weights keeps them. -/
theorem share_share : (b.share canary stable desired destinations skipped).share canary stable
    desired destinations skipped = b.share canary stable desired destinations skipped := by
  simp only [share_eq_settle, settle_settle]

/-- So does one in the primary rule. -/
theorem settle_share_settle_share :
    (((b.share canary stable desired destinations skipped).settle destinations).share canary stable
      desired destinations skipped).settle destinations =
    (b.share canary stable desired destinations skipped).settle destinations := by
  have hall : ∀ b : BackendRef, (b.share canary stable desired destinations skipped).settle
      destinations = b.settle (ownWeights canary stable desired destinations skipped ++
        destinations) := by
    intro b
    rw [share_eq_settle, settle_append]
  rw [hall, hall, settle_settle]

/-- A reference to a further service keeps the weight of this one. -/
theorem settle_share_settle (hplaced : ∃ d ∈ destinations, d.service = b.name) :
    ((b.settle destinations).share canary stable desired destinations skipped).settle destinations =
      b.settle destinations := by
  have hname : ∃ d ∈ destinations, d.service = (b.settle destinations).name := by
    simpa using hplaced
  rcases MayReweigh.share canary stable desired destinations skipped (b.settle destinations) with
    hsame | ⟨-, w, hw⟩
  · rw [hsame, settle_settle]
  · rw [hw, settle_withWeight hname, settle_settle]

end

end BackendRef

section

variable {canary stable : String} {desired : Int} {destinations : List WeightDestination}
  {skip : List Nat} {rules rules' : List Rule} {p : Nat} {r : Rule} {skipped : Bool}

/-! ### Rules -/

theorem mem_or_mem_newcomers {d : WeightDestination} (names : List String) (hd : d ∈ destinations) :
    d.service ∈ names ∨ d.service ∈ newcomers names destinations := by
  induction destinations generalizing names with
  | nil => cases hd
  | cons d' destinations ih =>
    rw [newcomers]
    rcases List.mem_cons.1 hd with rfl | hmem
    · split
      · next hknown => exact .inl hknown
      · exact .inr (List.mem_cons_self ..)
    · split
      · exact ih names hmem
      · rcases ih (d'.service :: names) hmem with hknown | hnew
        · rcases List.mem_cons.1 hknown with he | hmem'
          · exact .inr (he ▸ List.mem_cons_self ..)
          · exact .inl hmem'
        · exact .inr (List.mem_cons_of_mem _ hnew)

/-- What the primary rule references afterwards. -/
theorem refs_weighRule_true {first : BackendRef}
    (hfirst : (dropStale canary stable destinations r.refs).head? = some first) :
    (weighRule canary stable desired destinations skipped true r).refs =
      (dropStale canary stable destinations r.refs).map (fun b =>
        (b.share canary stable desired destinations skipped).settle destinations) ++
      (newcomers ((dropStale canary stable destinations r.refs).map BackendRef.name)
        destinations).map fun name => (first.retarget name).settle destinations := by
  rw [weighRule_true_of_head hfirst]
  rfl

/-- Every further service is then referenced. -/
theorem mem_names_weighRule_true {first : BackendRef}
    (hfirst : (dropStale canary stable destinations r.refs).head? = some first)
    {d : WeightDestination} (hd : d ∈ destinations) :
    d.service ∈ (weighRule canary stable desired destinations skipped true r).refs.map
      BackendRef.name := by
  rw [refs_weighRule_true hfirst, List.map_append, List.mem_append]
  rcases mem_or_mem_newcomers
    ((dropStale canary stable destinations r.refs).map BackendRef.name) hd with hkept | hnew
  · left
    obtain ⟨b, hb, hname⟩ := List.mem_map.1 hkept
    simp only [List.map_map, List.mem_map, Function.comp]
    exact ⟨b, hb, by simpa using hname⟩
  · right
    simp only [List.map_map, List.mem_map, Function.comp]
    exact ⟨d.service, hnew, by simp [BackendRef.retarget]⟩

/-- A rule that references one of the two services still does. -/
theorem references_weighRule_of_references {service : String}
    (hservice : service = canary ∨ service = stable) (primary : Bool)
    (hrefers : r.references service) :
    (weighRule canary stable desired destinations skipped primary r).references service := by
  obtain ⟨b, hb, hname⟩ := List.any_eq_true.1 hrefers
  rw [decide_eq_true_eq] at hname
  apply List.any_eq_true.2
  cases primary with
  | false =>
    rw [weighRule_false, Rule.refs_mapRefs]
    exact ⟨_, List.mem_map_of_mem hb, by simp [hname]⟩
  | true =>
    have hkept : b ∈ dropStale canary stable destinations r.refs :=
      mem_dropStale hb (hservice.imp hname.trans hname.trans)
    have hhead := List.head?_eq_some_head (List.ne_nil_of_mem hkept)
    rw [refs_weighRule_true hhead]
    exact ⟨_, List.mem_append_left _ (List.mem_map_of_mem hkept), by simp [hname]⟩

/-- A rule that has been weighed stays as it is when it is weighed again. -/
theorem weighRule_weighRule_false :
    weighRule canary stable desired destinations skipped false
        (weighRule canary stable desired destinations skipped false r) =
      weighRule canary stable desired destinations skipped false r := by
  simp only [weighRule_false, Rule.mapRefs_mapRefs, BackendRef.share_share]

/-- So does the primary rule. -/
theorem weighRule_weighRule_true {first : BackendRef}
    (hfirst : (dropStale canary stable destinations r.refs).head? = some first) :
    weighRule canary stable desired destinations skipped true
        (weighRule canary stable desired destinations skipped true r) =
      weighRule canary stable desired destinations skipped true r := by
  have hsome : (weighRule canary stable desired destinations skipped true r).refs ≠ [] := by
    have hkept : dropStale canary stable destinations r.refs ≠ [] := by
      intro hnil
      simp [hnil] at hfirst
    rw [refs_weighRule_true hfirst]
    simp [hkept]
  rw [weighRule_true_of_known hsome (fun b hb => name_of_mem_primary skipped r hb)
    (fun d hd => mem_names_weighRule_true hfirst hd)]
  apply Rule.mapRefs_eq_self
  intro b hb
  rw [refs_weighRule_true hfirst, List.mem_append, List.mem_map, List.mem_map] at hb
  rcases hb with ⟨b₀, -, rfl⟩ | ⟨name, hname, rfl⟩
  · exact BackendRef.settle_share_settle_share
  · exact BackendRef.settle_share_settle (mem_newcomers hname).2

/-! ### Lists of rules -/

/-- A request finds a primary rule, and weighs the rules one by one. -/
theorem exists_weighed_of_distribute {kind : RouteKind}
    (h : distribute kind rules canary stable desired destinations skip = .ok rules') :
    ∃ p r, IsPrimary canary stable skip rules p r ∧ ∀ i : Nat, rules'[i]? = rules[i]?.map
      (weighRule canary stable desired destinations (i ∈ skip) (i = p)) := by
  obtain ⟨p, r, hprimary, rfl⟩ := exists_isPrimary_of_distribute h
  refine ⟨p, r, hprimary, ?_⟩
  intro i
  rw [List.getElem?_mapIdx]

section

variable (hrules : ∀ i : Nat, rules'[i]? = rules[i]?.map
  (weighRule canary stable desired destinations (i ∈ skip) (i = p)))

include hrules

/-- The primary rule is the same one for the next request. -/
theorem IsPrimary.weighed (h : IsPrimary canary stable skip rules p r) :
    IsPrimary canary stable skip rules' p
      (weighRule canary stable desired destinations (p ∈ skip) true r) where
  get := by simp [hrules, h.get]
  notSkipped := h.notSkipped
  references := h.references.imp (references_weighRule_of_references (.inl rfl) true)
    (references_weighRule_of_references (.inr rfl) true)
  first := by
    intro i hi r' hr' hskip hrefers
    rw [hrules, Option.map_eq_some_iff] at hr'
    obtain ⟨r₀, hr₀, rfl⟩ := hr'
    rw [decide_eq_false (Nat.ne_of_lt hi), weighRule_false] at hrefers
    refine h.first i hi r₀ hr₀ hskip ?_
    simpa [Rule.references, List.any_map, Function.comp_def] using hrefers

/-- The two services are still referenced. -/
theorem anyReferences_weighed {service : String} (hservice : service = canary ∨ service = stable)
    (hany : anyReferences rules service) : anyReferences rules' service := by
  obtain ⟨r₀, hr₀, hrefers⟩ := List.any_eq_true.1 hany
  obtain ⟨i, hi⟩ := List.getElem?_of_mem hr₀
  have hr' := hrules i
  rw [hi, Option.map_some] at hr'
  apply List.any_eq_true.2
  exact ⟨_, List.mem_of_getElem? hr', references_weighRule_of_references hservice _ hrefers⟩

end

/-- A second request does nothing more. -/
theorem distribute_distribute {kind : RouteKind}
    (h : distribute kind rules canary stable desired destinations skip = .ok rules') :
    distribute kind rules' canary stable desired destinations skip = .ok rules' := by
  obtain ⟨hcanary, hstable, -⟩ := distribute_eq_ok_iff.1 h
  obtain ⟨p, r, hprimary, hrules⟩ := exists_weighed_of_distribute h
  rw [distribute_eq_ok_iff]
  refine ⟨anyReferences_weighed hrules (.inl rfl) hcanary,
    anyReferences_weighed hrules (.inr rfl) hstable, ?_⟩
  rw [weighRules_eq, isPrimary_iff.2 ⟨_, hprimary.weighed hrules⟩, Option.map_some,
    Option.some.injEq]
  ext1 i
  rw [List.getElem?_mapIdx, getElem?_marked, hrules, Option.map_map, Option.map_map]
  cases hr' : rules[i]? with
  | none => rfl
  | some r' =>
    simp only [Option.map_some, Option.some.injEq, Function.comp]
    by_cases hi : i = p
    · subst hi
      obtain rfl : r = r' := Option.some.inj (hprimary.get.symm.trans hr')
      obtain ⟨first, hfirst⟩ := hprimary.exists_head destinations
      rw [decide_eq_true rfl]
      exact weighRule_weighRule_true hfirst
    · rw [decide_eq_false hi]
      exact weighRule_weighRule_false

end

/-! ### The label -/

/-- The label is there already, or gone already. -/
theorem Metadata.ensureLabel_ensureLabel (m : Metadata) (weight : Int) (s : Settings) :
    (m.ensureLabel weight s).1.ensureLabel weight s = ((m.ensureLabel weight s).1, false) := by
  unfold ensureLabel
  by_cases hdisabled : s.disableLabel
  · simp [hdisabled]
  · by_cases hweight : weight = 0
    · cases m.labels with
      | none => simp [hdisabled, hweight]
      | some labels =>
        have herased : (labels.erase s.inProgressKey).erase s.inProgressKey =
            labels.erase s.inProgressKey := by
          ext1 key
          simp only [KeyMap.get?_erase]
          split <;> rfl
        simp [hdisabled, hweight, herased, KeyMap.get?_erase]
    · by_cases hset : (m.labels.getD KeyMap.empty).get? s.inProgressKey = some s.inProgressValue
      · simp [hdisabled, hweight, hset]
      · simp [hdisabled, hweight, hset]

/-- A request for weights that has succeeded succeeds once more, and leaves the rules and the label
as they are. -/
theorem unchanged_of_repeated (kind : RouteKind) (rules : List Rule) (canary stable : String)
    (desired : Int) (destinations : List WeightDestination) (skip : List Nat) (metadata : Metadata)
    (settings : Settings) :
    (∀ rules', distribute kind rules canary stable desired destinations skip = .ok rules' →
      distribute kind rules' canary stable desired destinations skip = .ok rules') ∧
    (metadata.ensureLabel desired settings).1.ensureLabel desired settings =
      ((metadata.ensureLabel desired settings).1, false) := by
  constructor
  · intro rules' h
    exact distribute_distribute h
  · exact metadata.ensureLabel_ensureLabel desired settings

/-- Rules of one service that is canary and stable at once. -/
def mergedRules : List Rule :=
  [{ backendRefs := some [{ name := "shadow", weight := some 7 }, { name := "web" }] },
   { backendRefs := some [{ name := "web", weight := some 1 }] }]

/-- Further services one of which is asked for twice, and one of which is the canary. -/
def mergedDestinations : List WeightDestination :=
  [{ service := "preview", weight := 10 }, { service := "web", weight := 4 },
   { service := "preview", weight := 5 }]

theorem unchanged_of_repeated_merged :
    ∃ rules', distribute .grpc mergedRules "web" "web" 30 mergedDestinations [1] = .ok rules' ∧
      rules' ≠ mergedRules ∧
      distribute .grpc rules' "web" "web" 30 mergedDestinations [1] = .ok rules' := by
  have hrepeated := (unchanged_of_repeated .grpc mergedRules "web" "web" 30 mergedDestinations [1]
    {} {}).1
  exact ⟨_, rfl, by decide, hrepeated _ rfl⟩

/-- What the first request makes of them. -/
example : distribute .grpc mergedRules "web" "web" 30 mergedDestinations [1] = .ok
    [{ backendRefs := some [
        { name := "web", weight := some 4 }, { name := "preview", weight := some 5 }] },
     { backendRefs := some [{ name := "web", weight := some 70 }] }] := by
  rfl

end CanaryRouting
