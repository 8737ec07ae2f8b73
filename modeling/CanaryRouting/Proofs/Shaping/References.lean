import CanaryRouting.Proofs.Shaping.Verifying

/-!
# Weights reference by reference

A request for weights changes a rule reference by reference. Outside the primary rule it changes
nothing but weights (`weighRule_false`). In the primary rule it also drops the references that are
not asked for, and adds one for each further service that has none (`weighRule_true`). Both are said
for any names: further services may be repeated, and may even be the canary or the stable service.
The last weight that is written to a reference is the one that stays (`BackendRef.settle`).
-/

namespace CanaryRouting

namespace BackendRef

/-- The reference with the weight, if it is one to the service. -/
def weigh (b : BackendRef) (service : String) (weight : Int) : BackendRef :=
  if b.name = service then b.withWeight (some weight) else b

/-- The reference with the weight of the further service that it is to, the last one if there are
several of this name. -/
def settle (destinations : List WeightDestination) (b : BackendRef) : BackendRef :=
  destinations.foldl (fun b d => b.weigh d.service d.weight) b

/-- The reference with the weights that the canary and the stable service get. -/
def share (canary stable : String) (desired : Int) (destinations : List WeightDestination)
    (skipped : Bool) (b : BackendRef) : BackendRef :=
  let own (weight : Int) (b : BackendRef) := if skipped then b else b.weigh canary weight
  let weighed := (own desired b).weigh stable (100 - desired)
  if destinations.isEmpty then weighed else own (splitWeights desired destinations).canary weighed

/-- Another weight, and only for services that are allowed one. -/
def MayReweigh (allowed : String → Prop) (b b' : BackendRef) : Prop :=
  b' = b ∨ allowed b.name ∧ ∃ weight, b' = b.withWeight weight

section

variable {b b' : BackendRef} {service : String} {weight : Int}
  {destinations : List WeightDestination}

theorem weigh_self (h : b.name = service) : b.weigh service weight = b.withWeight (some weight) :=
  if_pos h

theorem weigh_of_ne (h : b.name ≠ service) : b.weigh service weight = b := if_neg h

@[simp] theorem name_weigh : (b.weigh service weight).name = b.name := by
  unfold weigh
  split <;> rfl

@[simp] theorem settle_cons (d : WeightDestination) :
    b.settle (d :: destinations) = (b.weigh d.service d.weight).settle destinations := rfl

@[simp] theorem name_settle : (b.settle destinations).name = b.name := by
  induction destinations generalizing b with
  | nil => rfl
  | cons d destinations ih => rw [settle_cons, ih, name_weigh]

/-- A reference to no further service stays as it is. -/
theorem settle_of_notMem (h : ∀ d ∈ destinations, d.service ≠ b.name) :
    b.settle destinations = b := by
  induction destinations with
  | nil => rfl
  | cons d destinations ih =>
    rw [settle_cons, weigh_of_ne (h d (List.mem_cons_self ..)).symm]
    exact ih fun d' hd' => h d' (List.mem_cons_of_mem _ hd')

/-- If no further service is repeated, a reference to one gets the weight of this one. -/
theorem settle_of_mem (hnodup : (destinations.map WeightDestination.service).Nodup)
    {d : WeightDestination} (hd : d ∈ destinations) (h : b.name = d.service) :
    b.settle destinations = b.withWeight (some d.weight) := by
  induction destinations with
  | nil => cases hd
  | cons d' destinations ih =>
    rw [List.map_cons, List.nodup_cons] at hnodup
    rw [settle_cons]
    rcases List.mem_cons.1 hd with rfl | hmem
    · rw [weigh_self h]
      apply settle_of_notMem
      intro d' hd' he
      exact hnodup.1 (List.mem_map.2 ⟨d', hd', he.trans h⟩)
    · have hne : b.name ≠ d'.service := fun he =>
        hnodup.1 (List.mem_map.2 ⟨d, hmem, h.symm.trans he⟩)
      rw [weigh_of_ne hne]
      exact ih hnodup.2 hmem

/-- A further service that is not referenced makes no difference. -/
theorem map_settle_cons {refs : List BackendRef} {d : WeightDestination}
    (h : d.service ∉ refs.map name) :
    refs.map (settle (d :: destinations)) = refs.map (settle destinations) := by
  apply List.map_congr_left
  intro b hb
  have hne : b.name ≠ d.service := fun he => h (List.mem_map.2 ⟨b, hb, he⟩)
  rw [settle_cons, weigh_of_ne hne]

/-- The weight that a reference to a further service had before is lost. -/
theorem settle_withWeight (h : ∃ d ∈ destinations, d.service = b.name) (w : Option Int) :
    (b.withWeight w).settle destinations = b.settle destinations := by
  induction destinations generalizing b with
  | nil => simp at h
  | cons d destinations ih =>
    rw [settle_cons, settle_cons]
    by_cases hd : b.name = d.service
    · rw [weigh_self hd, weigh_self (b := b.withWeight w) hd]
      rfl
    · rw [weigh_of_ne hd, weigh_of_ne (b := b.withWeight w) hd]
      apply ih
      obtain ⟨d', hd', he⟩ := h
      rcases List.mem_cons.1 hd' with rfl | hmem
      · exact absurd he.symm hd
      · exact ⟨d', hmem, he⟩

end

/-! ### What may differ -/

namespace MayReweigh

variable {allowed allowed' : String → Prop} {b b' b'' : BackendRef}

theorem refl (b : BackendRef) : MayReweigh allowed b b := .inl rfl

theorem mono (h : MayReweigh allowed b b') (himp : allowed b.name → allowed' b.name) :
    MayReweigh allowed' b b' := h.imp id (And.imp_left himp)

theorem trans (h : MayReweigh allowed b b') (h' : MayReweigh allowed b' b'') :
    MayReweigh allowed b b'' := by
  rcases h with rfl | ⟨hallowed, w, rfl⟩
  · exact h'
  · rcases h' with rfl | ⟨-, w', rfl⟩
    · exact .inr ⟨hallowed, w, rfl⟩
    · exact .inr ⟨hallowed, w', rfl⟩

theorem weigh {service : String} (weight : Int) (h : b.name = service → allowed b.name) :
    MayReweigh allowed b (b.weigh service weight) := by
  unfold BackendRef.weigh
  split
  · next hname => exact .inr ⟨h hname, _, rfl⟩
  · exact refl b

theorem settle {destinations : List WeightDestination}
    (h : isRequested destinations b.name → allowed b.name) :
    MayReweigh allowed b (b.settle destinations) := by
  induction destinations generalizing b with
  | nil => exact refl b
  | cons d destinations ih =>
    have hfirst : MayReweigh allowed b (b.weigh d.service d.weight) := by
      apply weigh
      intro hname
      apply h
      simp [isRequested, hname]
    refine hfirst.trans (ih ?_)
    rw [name_weigh]
    intro hlater
    apply h
    rw [isRequested] at hlater
    simp [isRequested, hlater]

/-- A copy for a further service is the same whatever the weight of the reference was. -/
theorem settle_retarget (h : MayReweigh allowed b b') {destinations : List WeightDestination}
    {name : String} (hplaced : ∃ d ∈ destinations, d.service = name) :
    (b'.retarget name).settle destinations = (b.retarget name).settle destinations := by
  rcases h with rfl | ⟨-, w, rfl⟩
  · rfl
  · exact settle_withWeight (b := b.retarget name) hplaced w

/-- The canary may get another weight where it is not passed over, and the stable service
anywhere. -/
theorem share (canary stable : String) (desired : Int) (destinations : List WeightDestination)
    (skipped : Bool) (b : BackendRef) :
    MayReweigh (fun name => name = canary ∧ skipped = false ∨ name = stable) b
      (b.share canary stable desired destinations skipped) := by
  have hown : ∀ (weight : Int) (b : BackendRef),
      MayReweigh (fun name => name = canary ∧ skipped = false ∨ name = stable) b
        (if skipped then b else b.weigh canary weight) := by
    intro weight b
    cases skipped with
    | true => exact refl b
    | false => exact weigh weight fun hname => .inl ⟨hname, rfl⟩
  have hweighed := (hown desired b).trans
    (weigh (100 - desired) fun hname : _ = stable => .inr hname)
  unfold BackendRef.share
  simp only
  split
  · exact hweighed
  · exact hweighed.trans (hown _ _)

end MayReweigh

end BackendRef

/-! ### Placing further services -/

theorem isRequested_iff {destinations : List WeightDestination} {service : String} :
    isRequested destinations service ↔ ∃ d ∈ destinations, d.service = service := by
  simp [isRequested, List.any_eq_true]

/-- The names of the further services that are not among the names, each one once. -/
def newcomers : List String → List WeightDestination → List String
  | _, [] => []
  | names, d :: destinations =>
    if d.service ∈ names then newcomers names destinations
    else d.service :: newcomers (d.service :: names) destinations

section

variable {names names' : List String} {destinations : List WeightDestination} {name : String}

/-- The order of the names does not matter. -/
theorem newcomers_congr (h : ∀ name, name ∈ names ↔ name ∈ names') :
    newcomers names destinations = newcomers names' destinations := by
  induction destinations generalizing names names' with
  | nil => rfl
  | cons d destinations ih =>
    simp only [newcomers, h]
    split
    · exact ih h
    · congr 1
      apply ih
      intro name
      simp [h]

theorem mem_newcomers (h : name ∈ newcomers names destinations) :
    name ∉ names ∧ ∃ d ∈ destinations, d.service = name := by
  induction destinations generalizing names with
  | nil => cases h
  | cons d destinations ih =>
    rw [newcomers] at h
    split at h
    · obtain ⟨hnot, d', hd', he⟩ := ih h
      exact ⟨hnot, d', List.mem_cons_of_mem _ hd', he⟩
    · next hnew =>
      rcases List.mem_cons.1 h with rfl | hmem
      · exact ⟨hnew, d, List.mem_cons_self .., rfl⟩
      · obtain ⟨hnot, d', hd', he⟩ := ih hmem
        exact ⟨fun hname => hnot (List.mem_cons_of_mem _ hname), d', List.mem_cons_of_mem _ hd', he⟩

theorem mem_newcomers_of_notMem (hname : name ∉ names)
    (h : ∃ d ∈ destinations, d.service = name) : name ∈ newcomers names destinations := by
  induction destinations generalizing names with
  | nil => simp at h
  | cons d destinations ih =>
    obtain ⟨d', hd', rfl⟩ := h
    rw [newcomers]
    by_cases hfirst : d'.service = d.service
    · rw [if_neg (hfirst ▸ hname), hfirst]
      exact List.mem_cons_self ..
    · have hlater : ∃ d'' ∈ destinations, d''.service = d'.service := by
        rcases List.mem_cons.1 hd' with rfl | hmem
        · exact absurd rfl hfirst
        · exact ⟨d', hmem, rfl⟩
      split
      · exact ih hname hlater
      · exact List.mem_cons_of_mem _ (ih (by simp [hfirst, hname]) hlater)

/-- If no further service is repeated, these are just those that are not among the names. -/
theorem newcomers_of_nodup (hnodup : (destinations.map WeightDestination.service).Nodup) :
    newcomers names destinations =
      (destinations.filter fun d => d.service ∉ names).map WeightDestination.service := by
  induction destinations generalizing names with
  | nil => rfl
  | cons d destinations ih =>
    rw [List.map_cons, List.nodup_cons] at hnodup
    by_cases hd : d.service ∈ names
    · rw [newcomers, if_pos hd, List.filter_cons_of_neg (by simpa using hd)]
      exact ih hnodup.2
    · rw [newcomers, if_neg hd, List.filter_cons_of_pos (by simpa using hd), List.map_cons,
        ih hnodup.2]
      congr 2
      apply List.filter_congr
      intro d' hd'
      have hne : d'.service ≠ d.service := fun he => hnodup.1 (List.mem_map.2 ⟨d', hd', he⟩)
      simp [hne]

end

/-- Placing one further service. -/
theorem placeDestination_eq {refs : List BackendRef} {first : BackendRef}
    (hfirst : refs.head? = some first) (d : WeightDestination) :
    placeDestination refs d =
      if d.service ∈ refs.map BackendRef.name then refs.map fun b => b.weigh d.service d.weight
      else refs ++ [(first.retarget d.service).withWeight (some d.weight)] := by
  have hmem : d.service ∈ refs.map BackendRef.name ↔ refs.any fun b => b.name = d.service := by
    simp [List.any_eq_true]
  unfold placeDestination
  simp only [hmem, hfirst]
  rfl

/-- The references among which the further services have been placed: those that were there have the
weights of these, and behind them is a copy of `first` for each that had none. -/
def placed (first : BackendRef) (refs : List BackendRef) (destinations : List WeightDestination) :
    List BackendRef :=
  refs.map (BackendRef.settle destinations) ++
    (newcomers (refs.map BackendRef.name) destinations).map fun name =>
      (first.retarget name).settle destinations

section

variable {first : BackendRef} {refs : List BackendRef} {d : WeightDestination}
  {destinations : List WeightDestination}

/-- A copy for a further service does not get the weight of one that was placed before. -/
theorem settle_retarget_cons {names : List String} {name : String}
    (hname : name ∈ newcomers names destinations) (hd : d.service ∈ names) :
    (first.retarget name).settle (d :: destinations) =
      (first.retarget name).settle destinations := by
  have hne : name ≠ d.service := fun he => (mem_newcomers hname).1 (he ▸ hd)
  rw [BackendRef.settle_cons, BackendRef.weigh_of_ne (b := first.retarget name) hne]

/-- First comes a further service that is referenced. -/
theorem placed_weigh (hd : d.service ∈ refs.map BackendRef.name) :
    placed (first.weigh d.service d.weight) (refs.map fun b => b.weigh d.service d.weight)
      destinations = placed first refs (d :: destinations) := by
  have hnames : (BackendRef.name ∘ fun b : BackendRef => b.weigh d.service d.weight) =
      BackendRef.name := by
    funext b
    exact BackendRef.name_weigh
  rw [placed, placed, newcomers, if_pos hd, List.map_map, List.map_map, hnames]
  congr 1
  -- The reference that is copied may have got the weight of `d`, but this is written over.
  have hweighed : first.MayReweigh (fun _ => True) (first.weigh d.service d.weight) :=
    .weigh _ fun _ => trivial
  apply List.map_congr_left
  intro name hname
  rw [settle_retarget_cons hname hd]
  exact hweighed.settle_retarget (mem_newcomers hname).2

/-- First comes a further service that is not referenced. -/
theorem placed_append (hd : d.service ∉ refs.map BackendRef.name) :
    placed first (refs ++ [(first.retarget d.service).withWeight (some d.weight)]) destinations =
      placed first refs (d :: destinations) := by
  have hknown : ∀ name, name ∈ (refs ++
      [(first.retarget d.service).withWeight (some d.weight)]).map BackendRef.name ↔
        name ∈ d.service :: refs.map BackendRef.name := by
    intro name
    simp [BackendRef.withWeight, BackendRef.retarget, or_comm]
  have hnew : (first.retarget d.service).settle (d :: destinations) =
      ((first.retarget d.service).withWeight (some d.weight)).settle destinations := by
    have hname : (first.retarget d.service).name = d.service := rfl
    rw [BackendRef.settle_cons, BackendRef.weigh_self hname]
  rw [placed, placed, newcomers_congr hknown, newcomers, if_neg hd, BackendRef.map_settle_cons hd,
    List.map_append, List.append_assoc, List.map_cons (a := d.service), hnew, List.map_singleton,
    List.singleton_append]
  congr 2
  apply List.map_congr_left
  intro name hname
  exact (settle_retarget_cons hname (List.mem_cons_self ..)).symm

/-- Placing all of them, one after the other. -/
theorem placeDestinations_eq (hfirst : refs.head? = some first) :
    placeDestinations refs destinations = placed first refs destinations := by
  induction destinations generalizing refs first with
  | nil =>
    have hsame : refs.map (BackendRef.settle []) = refs := List.map_id' refs
    simp [placeDestinations, placed, newcomers, hsame]
  | cons d destinations ih =>
    have hcons : placeDestinations refs (d :: destinations) =
        placeDestinations (placeDestination refs d) destinations := rfl
    rw [hcons, placeDestination_eq hfirst]
    split
    · next hd =>
      rw [← placed_weigh hd]
      apply ih
      simp [hfirst]
    · next hd =>
      rw [← placed_append hd]
      apply ih
      simp [hfirst]

end

/-! ### Rules -/

namespace Rule

/-- The rule with every reference changed. -/
def mapRefs (r : Rule) (f : BackendRef → BackendRef) : Rule :=
  { r with backendRefs := r.backendRefs.map fun refs => refs.map f }

theorem weigh_eq (r : Rule) (service : String) (weight : Int) :
    r.weigh service weight = r.mapRefs fun b => b.weigh service weight := rfl

@[simp] theorem mapRefs_mapRefs (r : Rule) (f g : BackendRef → BackendRef) :
    (r.mapRefs f).mapRefs g = r.mapRefs fun b => g (f b) := by
  cases r with
  | mk n c fs t refs => cases refs <;> simp [mapRefs]

@[simp] theorem refs_mapRefs (r : Rule) (f : BackendRef → BackendRef) :
    (r.mapRefs f).refs = r.refs.map f := by
  cases r with
  | mk n c fs t refs => cases refs <;> rfl

theorem mapRefs_congr {r : Rule} {f g : BackendRef → BackendRef} (h : ∀ b ∈ r.refs, f b = g b) :
    r.mapRefs f = r.mapRefs g := by
  cases r with
  | mk n c fs t refs =>
    cases refs with
    | none => rfl
    | some refs =>
      have hmap : refs.map f = refs.map g := List.map_congr_left h
      simp [mapRefs, hmap]

/-- Nothing changes if no reference does. -/
theorem mapRefs_eq_self {r : Rule} {f : BackendRef → BackendRef} (h : ∀ b ∈ r.refs, f b = b) :
    r.mapRefs f = r := by
  rw [mapRefs_congr (g := fun b => b) h]
  simp [mapRefs]

@[simp] theorem modifyRefs_mapRefs (r : Rule) (f : BackendRef → BackendRef)
    (g : List BackendRef → List BackendRef) :
    (r.mapRefs f).modifyRefs g = r.modifyRefs fun refs => g (refs.map f) := by
  rw [modifyRefs, refs_mapRefs]
  rfl

@[simp] theorem modifyRefs_modifyRefs (r : Rule) (f g : List BackendRef → List BackendRef) :
    (r.modifyRefs f).modifyRefs g = r.modifyRefs fun refs => g (f refs) := rfl

end Rule

section

variable {canary stable : String} {desired : Int} {destinations : List WeightDestination}
  {skipped : Bool}

@[simp] theorem BackendRef.name_share (b : BackendRef) :
    (b.share canary stable desired destinations skipped).name = b.name := by
  rcases MayReweigh.share canary stable desired destinations skipped b with h | ⟨-, w, h⟩ <;> rw [h]
  rfl

/-- Which references are dropped does not depend on weights. -/
theorem dropStale_map {f : BackendRef → BackendRef} (hf : ∀ b, (f b).name = b.name)
    (refs : List BackendRef) :
    dropStale canary stable destinations (refs.map f) =
      (dropStale canary stable destinations refs).map f := by
  simp [dropStale, List.filter_map, Function.comp_def, hf]

/-- Outside the primary rule a request changes weights, and nothing else. -/
theorem weighRule_false (r : Rule) :
    weighRule canary stable desired destinations skipped false r =
      r.mapRefs fun b => b.share canary stable desired destinations skipped := by
  cases skipped <;> cases h : destinations.isEmpty <;>
    simp [weighRule, h, Rule.weigh_eq, BackendRef.share]

/-- In the primary rule it also drops references, and places the further services. -/
theorem weighRule_true (r : Rule) :
    weighRule canary stable desired destinations skipped true r = r.modifyRefs fun refs =>
      placeDestinations ((dropStale canary stable destinations refs).map fun b =>
        b.share canary stable desired destinations skipped) destinations := by
  cases h : destinations.isEmpty with
  | true =>
    have hnone : ∀ refs, placeDestinations refs destinations = refs := by
      intro refs
      rw [List.isEmpty_iff.1 h]
      rfl
    cases skipped <;>
      simp [weighRule, h, Rule.weigh_eq, dropStale_map, hnone, BackendRef.share]
  | false =>
    cases skipped <;>
      simp [weighRule, h, Rule.weigh_eq, dropStale_map, BackendRef.share, Function.comp_def]

/-- What the primary rule references afterwards, reference by reference. -/
theorem weighRule_true_of_head {r : Rule} {first : BackendRef}
    (hfirst : (dropStale canary stable destinations r.refs).head? = some first) :
    weighRule canary stable desired destinations skipped true r =
      { r with backendRefs := some (
        (dropStale canary stable destinations r.refs).map (fun b =>
          (b.share canary stable desired destinations skipped).settle destinations) ++
        (newcomers ((dropStale canary stable destinations r.refs).map BackendRef.name)
          destinations).map fun name => (first.retarget name).settle destinations) } := by
  have hhead : ((dropStale canary stable destinations r.refs).map fun b =>
      b.share canary stable desired destinations skipped).head? =
        some (first.share canary stable desired destinations skipped) := by
    simp [hfirst]
  rw [weighRule_true, Rule.modifyRefs, placeDestinations_eq hhead, placed, List.map_map,
    List.map_map]
  have hnames : (BackendRef.name ∘ fun b : BackendRef =>
      b.share canary stable desired destinations skipped) = BackendRef.name := by
    funext b
    exact BackendRef.name_share b
  rw [hnames]
  -- The copies are made of a reference that has its weight already, but this is written over.
  have hcopies : ∀ name ∈ newcomers
      ((dropStale canary stable destinations r.refs).map BackendRef.name) destinations,
      ((first.share canary stable desired destinations skipped).retarget name).settle destinations =
        (first.retarget name).settle destinations := by
    intro name hname
    exact (BackendRef.MayReweigh.share ..).settle_retarget (mem_newcomers hname).2
  rw [List.map_congr_left hcopies]
  rfl

end

end CanaryRouting
