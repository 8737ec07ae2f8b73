import CanaryRouting.Shaping.Weight
import Mathlib.Data.List.InsertIdx

/-!
# Weights rule by rule

What a request for weights makes of a rule depends on the rule, on whether it is passed over, and
on whether it is the primary one (`weighRule`). So the rules of a route are weighed one by one
(`distribute_eq_ok_iff`), and a rule that is passed over can be added or taken out before or after
that (`weighRules_append`, `weighRules_eraseIdx`).
-/

namespace CanaryRouting

section

variable (canary stable : String) (desired : Int) (destinations : List WeightDestination)

/-- What a request for weights makes of a rule. -/
def weighRule (skipped primary : Bool) (r : Rule) : Rule :=
  let own (weight : Int) (r : Rule) := if skipped then r else r.weigh canary weight
  let weighed := (own desired r).weigh stable (100 - desired)
  let kept := if primary then weighed.modifyRefs (dropStale canary stable destinations) else weighed
  if destinations.isEmpty then kept
  else
    let shared := own (splitWeights desired destinations).canary kept
    if primary then shared.modifyRefs (placeDestinations · destinations) else shared

/-- Whether a rule may be the primary one, if it is the first such rule. -/
def mayBePrimary (e : Rule × Bool) : Bool :=
  !e.2 && (e.1.references canary || e.1.references stable)

/-- What a request for weights makes of rules that are marked if they are passed over; nothing if
there is no primary one. -/
def weighRules : List (Rule × Bool) → Option (List Rule)
  | [] => none
  | e :: es =>
    if mayBePrimary canary stable e then
      some (weighRule canary stable desired destinations e.2 true e.1 ::
        es.map fun e => weighRule canary stable desired destinations e.2 false e.1)
    else (weighRules es).map (weighRule canary stable desired destinations e.2 false e.1 :: ·)

end

/-- The rules, marked at the positions to skip. -/
def marked (skip : List Nat) (rules : List Rule) : List (Rule × Bool) :=
  rules.mapIdx fun i r => (r, decide (i ∈ skip))

section

variable {canary stable : String} {desired : Int} {destinations : List WeightDestination}

theorem weighRules_eq (es : List (Rule × Bool)) :
    weighRules canary stable desired destinations es =
      (es.findIdx? (mayBePrimary canary stable)).map fun p =>
        es.mapIdx fun i e => weighRule canary stable desired destinations e.2 (i = p) e.1 := by
  induction es with
  | nil => rfl
  | cons e es ih =>
    rw [weighRules, List.findIdx?_cons]
    split
    · simp only [Option.map_some, List.mapIdx_cons, decide_true, Nat.add_one_ne_zero,
        decide_false, Option.some.injEq, List.cons.injEq, true_and]
      ext1 i
      simp
    · rw [ih]
      cases es.findIdx? (mayBePrimary canary stable) <;> simp [List.mapIdx_cons]

/-- A rule that is passed over can be added before or after the rules are weighed. -/
theorem weighRules_append (es : List (Rule × Bool)) (r : Rule) :
    weighRules canary stable desired destinations (es ++ [(r, true)]) =
      (weighRules canary stable desired destinations es).map
        (· ++ [weighRule canary stable desired destinations true false r]) := by
  induction es with
  | nil => simp [weighRules, mayBePrimary]
  | cons e es ih =>
    simp only [List.cons_append, weighRules, ih]
    split
    · simp
    · simp only [Option.map_map]
      rfl

/-- A rule that is passed over can be taken out before or after the rules are weighed. -/
theorem weighRules_eraseIdx {es : List (Rule × Bool)} {i : Nat} {r : Rule}
    (h : es[i]? = some (r, true)) :
    weighRules canary stable desired destinations (es.eraseIdx i) =
      (weighRules canary stable desired destinations es).map (·.eraseIdx i) := by
  induction es generalizing i with
  | nil => cases h
  | cons e es ih =>
    cases i with
    | zero =>
      cases h
      rw [List.eraseIdx_cons_zero, weighRules, if_neg (by simp [mayBePrimary]), Option.map_map]
      exact (Option.map_id' ..).symm
    | succ i =>
      rw [List.eraseIdx_cons_succ, weighRules, weighRules, ih h]
      split
      · simp [List.eraseIdx_map]
      · simp only [Option.map_map]
        rfl

/-- What no request for weights changes in a rule, it does not change in a list of rules. -/
theorem map_of_weighRules {γ : Type} {f : Rule → γ}
    (hf : ∀ skipped primary r, f (weighRule canary stable desired destinations skipped primary r) = f r)
    {es : List (Rule × Bool)} {rules : List Rule}
    (h : weighRules canary stable desired destinations es = some rules) :
    rules.map f = es.map fun e => f e.1 := by
  rw [weighRules_eq, Option.map_eq_some_iff] at h
  obtain ⟨p, -, rfl⟩ := h
  ext1 i
  rw [List.getElem?_map, List.getElem?_mapIdx, List.getElem?_map, Option.map_map]
  congr 1
  funext e
  exact hf _ _ _

/-! ### Marks -/

theorem getElem?_marked (skip : List Nat) (rules : List Rule) (i : Nat) :
    (marked skip rules)[i]? = rules[i]?.map fun r => (r, decide (i ∈ skip)) :=
  List.getElem?_mapIdx ..

theorem map_marked {γ : Type} (f : Rule → γ) (skip : List Nat) (rules : List Rule) :
    (marked skip rules).map (fun e => f e.1) = rules.map f := by
  ext1 i
  rw [List.getElem?_map, getElem?_marked, List.getElem?_map, Option.map_map]
  rfl

/-- Only the positions of rules count as marks. -/
theorem marked_congr {skip skip' : List Nat} {rules : List Rule}
    (h : ∀ i < rules.length, i ∈ skip' ↔ i ∈ skip) : marked skip' rules = marked skip rules := by
  ext1 i
  rw [getElem?_marked, getElem?_marked]
  cases hr : rules[i]? with
  | none => rfl
  | some r =>
    have hi : i < rules.length := (List.getElem?_eq_some_iff.1 hr).1
    simp only [h i hi]

/-- A rule that is added is marked if its position is. -/
theorem marked_append {skip skip' : List Nat} {rules : List Rule}
    (h : ∀ i < rules.length, i ∈ skip' ↔ i ∈ skip) (hlast : rules.length ∈ skip') (r : Rule) :
    marked skip' (rules ++ [r]) = marked skip rules ++ [(r, true)] := by
  rw [← marked_congr h, marked, List.mapIdx_append, List.mapIdx_singleton, Nat.zero_add]
  simp [hlast, marked]

/-- When a rule is taken out, the marks behind it move. -/
theorem marked_eraseIdx {skip skip' : List Nat} (rules : List Rule) {i : Nat}
    (hbelow : ∀ j < i, j ∈ skip' ↔ j ∈ skip) (habove : ∀ j, i ≤ j → (j ∈ skip' ↔ j + 1 ∈ skip)) :
    marked skip' (rules.eraseIdx i) = (marked skip rules).eraseIdx i := by
  ext1 j
  rw [getElem?_marked, List.getElem?_eraseIdx, List.getElem?_eraseIdx]
  split
  · next hj => rw [getElem?_marked]; simp only [hbelow j hj]
  · next hj => rw [getElem?_marked]; simp only [habove j (Nat.le_of_not_lt hj)]

/-! ### The rules of a request -/

/-- The first marked rule of its kind, found by its position. -/
theorem map_snd_find?_zipIdx (p : Rule × Nat → Bool) (rules : List Rule) (n : Nat) :
    ((rules.zipIdx n).find? p).map Prod.snd = ((rules.zipIdx n).findIdx? p).map (· + n) := by
  induction rules generalizing n with
  | nil => rfl
  | cons r rules ih =>
    rw [List.zipIdx_cons, List.find?_cons, List.findIdx?_cons]
    cases p (r, n) with
    | true => simp
    | false =>
      rw [ih]
      simp [Function.comp_def, Nat.add_assoc, Nat.add_comm 1 n]

/-- The primary rule is found by the marks. -/
theorem findPrimaryRule_eq (kind : RouteKind) (rules : List Rule) (canary stable : String)
    (skip : List Nat) :
    findPrimaryRule kind rules canary stable skip =
      ((marked skip rules).findIdx? (mayBePrimary canary stable)).elim
        (.error (.backendRefNotFound kind stable)) .ok := by
  have hfind := map_snd_find?_zipIdx
    (fun e => !skip.contains e.2 && (e.1.references canary || e.1.references stable)) rules 0
  have hmarked : (marked skip rules).findIdx? (mayBePrimary canary stable) =
      rules.zipIdx.findIdx? fun e =>
        !skip.contains e.2 && (e.1.references canary || e.1.references stable) := by
    rw [marked, List.mapIdx_eq_zipIdx_map, List.findIdx?_map]
    simp [Function.comp_def, mayBePrimary]
  rw [hmarked]
  simp only [Nat.add_zero, Option.map_id'] at hfind
  rw [← hfind, findPrimaryRule]
  cases rules.zipIdx.find? fun e =>
    !skip.contains e.2 && (e.1.references canary || e.1.references stable) <;> rfl

/-! ### What is referenced -/

theorem references_weigh (r : Rule) (service name : String) (weight : Int) :
    (r.weigh service weight).references name = r.references name := by
  cases r with
  | mk n c f t refs =>
    cases refs with
    | none => rfl
    | some refs =>
      simp only [Rule.references, Rule.refs, Rule.weigh, Option.map_some, Option.getD_some,
        List.any_map]
      congr 1
      funext b
      simp only [Function.comp]
      split <;> rfl

/-- The rules after the weights of the canary and the stable service have been set. -/
theorem getElem?_setWeights_setWeights (rules : List Rule) (skip : List Nat) (w w' : Int) (i : Nat) :
    (setWeights (setWeights rules canary w skip) stable w' [])[i]? =
      rules[i]?.map fun r => (if i ∈ skip then r else r.weigh canary w).weigh stable w' := by
  rw [setWeights, setWeights, List.getElem?_mapIdx, List.getElem?_mapIdx, Option.map_map]
  simp [Function.comp_def]

theorem references_setWeights_setWeights (canary stable : String) (rules : List Rule)
    (skip : List Nat) (w w' : Int) (name : String) (i : Nat) :
    ((setWeights (setWeights rules canary w skip) stable w' [])[i]?.map fun r => r.references name) =
      rules[i]?.map fun r => r.references name := by
  rw [getElem?_setWeights_setWeights, Option.map_map]
  congr 1
  funext r
  simp only [Function.comp, references_weigh]
  split
  · rfl
  · exact references_weigh ..

theorem anyReferences_congr {rules rules' : List Rule} {name : String}
    (h : ∀ i : Nat, (rules'[i]?.map fun r => r.references name) =
      rules[i]?.map fun r => r.references name) :
    anyReferences rules' name = anyReferences rules name := by
  have hmap : rules'.map (fun r => r.references name) = rules.map fun r => r.references name := by
    ext1 i
    rw [List.getElem?_map, List.getElem?_map, h]
  have hany : ∀ rules : List Rule,
      anyReferences rules name = (rules.map fun r => r.references name).any id := fun rules => by
    rw [anyReferences, List.any_map]
    rfl
  rw [hany, hany, hmap]

theorem findBackendRefs_isOk (kind : RouteKind) (rules : List Rule) (service : String)
    (skip : List Nat) :
    (∃ x, findBackendRefs kind rules service skip = .ok x) ↔ anyReferences rules service := by
  unfold findBackendRefs
  by_cases hany : anyReferences rules service
  · have href : anyRef rules := by
      obtain ⟨r, hr, href⟩ := List.any_eq_true.1 hany
      refine List.any_eq_true.2 ⟨r, hr, ?_⟩
      obtain ⟨b, hb, -⟩ := List.any_eq_true.1 href
      simpa using List.ne_nil_of_mem hb
    simp [hany, href]
  · simp only [hany, Bool.false_eq_true, if_false, iff_false, not_exists]
    intro x
    split <;> simp

/-- Both services have to be referenced. -/
theorem applyWeight_eq_ok_iff {kind : RouteKind} {rules rules' : List Rule} {skip : List Nat} :
    applyWeight kind rules canary stable desired skip = .ok rules' ↔
      anyReferences rules canary ∧ anyReferences rules stable ∧
        rules' = setWeights (setWeights rules canary desired skip) stable (100 - desired) [] := by
  rw [← findBackendRefs_isOk kind rules canary skip, ← findBackendRefs_isOk kind rules stable []]
  unfold applyWeight
  cases findBackendRefs kind rules canary skip with
  | error e => exact ⟨(nomatch ·), fun ⟨⟨_, h⟩, _⟩ => nomatch h⟩
  | ok x =>
    cases findBackendRefs kind rules stable [] with
    | error e => exact ⟨(nomatch ·), fun ⟨_, ⟨_, h⟩, _⟩ => nomatch h⟩
    | ok y =>
      exact ⟨fun h => ⟨⟨x, rfl⟩, ⟨y, rfl⟩, (Except.ok.inj h).symm⟩, fun ⟨_, _, h⟩ => h ▸ rfl⟩

theorem references_dropStale (r : Rule) :
    (r.modifyRefs (dropStale canary stable destinations)).references canary =
      r.references canary := by
  simp only [Rule.references, Rule.modifyRefs, Rule.refs, Option.getD_some, dropStale,
    List.any_filter]
  congr 1
  funext b
  by_cases h : b.name = canary <;> simp [h]

theorem applyDestinations_eq_ok_iff {kind : RouteKind} {rules rules' : List Rule}
    {skip : List Nat} (hcanary : anyReferences rules canary) :
    applyDestinations kind rules canary stable desired destinations skip = .ok rules' ↔
      ∃ p, findPrimaryRule kind rules canary stable skip = .ok p ∧
        let kept := rules.modify p fun r => r.modifyRefs (dropStale canary stable destinations)
        rules' = if destinations.isEmpty then kept
          else (setWeights kept canary (splitWeights desired destinations).canary skip).modify p
            fun r => r.modifyRefs (placeDestinations · destinations) := by
  unfold applyDestinations
  cases hp : findPrimaryRule kind rules canary stable skip with
  | error e => exact ⟨(nomatch ·), fun ⟨_, h, _⟩ => nomatch h⟩
  | ok p =>
    have hkept : anyReferences
        (rules.modify p fun r => r.modifyRefs (dropStale canary stable destinations)) canary := by
      rw [@anyReferences_congr rules _ _ fun i => ?_]
      · exact hcanary
      · rw [List.getElem?_modify, Option.map_eq_map, Option.map_map]
        congr 1
        funext r
        simp only [Function.comp]
        split
        · exact references_dropStale r
        · rfl
    obtain ⟨x, hx⟩ := (findBackendRefs_isOk kind _ canary skip).2 hkept
    simp only [Except.mapError, bind, Except.bind, pure, Except.pure, Except.ok.injEq,
      exists_eq_left']
    split
    · rw [Except.ok.injEq, eq_comm]
    · rw [hx]
      simp only [Except.ok.injEq]
      rw [eq_comm]

/-- The marks do not depend on weights, so the primary rule is the same before and after. -/
theorem findIdx?_marked_setWeights (rules : List Rule) (skip : List Nat) (w w' : Int) :
    (marked skip (setWeights (setWeights rules canary w skip) stable w' [])).findIdx?
        (mayBePrimary canary stable) =
      (marked skip rules).findIdx? (mayBePrimary canary stable) := by
  have hmap : ∀ es : List (Rule × Bool), es.findIdx? (mayBePrimary canary stable) =
      (es.map (mayBePrimary canary stable)).findIdx? id := fun es => by
    rw [List.findIdx?_map]
    rfl
  rw [hmap, hmap]
  congr 1
  ext1 i
  have hcanary := references_setWeights_setWeights canary stable rules skip w w' canary i
  have hstable := references_setWeights_setWeights canary stable rules skip w w' stable i
  simp only [marked, List.getElem?_map, List.getElem?_mapIdx]
  cases hr : rules[i]? with
  | none =>
    rw [getElem?_setWeights_setWeights, hr]
    rfl
  | some r =>
    rw [getElem?_setWeights_setWeights, hr] at hcanary hstable ⊢
    simp only [Option.map_some, Option.some.injEq] at hcanary hstable ⊢
    simp only [mayBePrimary, hcanary, hstable]

/-- What the two parts of a request make of the rules, rule by rule. -/
theorem mapIdx_weighRule (rules : List Rule) (skip : List Nat) (p : Nat) :
    let weighed := setWeights (setWeights rules canary desired skip) stable (100 - desired) []
    let kept := weighed.modify p fun r => r.modifyRefs (dropStale canary stable destinations)
    ((marked skip rules).mapIdx fun i e =>
        weighRule canary stable desired destinations e.2 (i = p) e.1) =
      if destinations.isEmpty then kept
      else (setWeights kept canary (splitWeights desired destinations).canary skip).modify p
        fun r => r.modifyRefs (placeDestinations · destinations) := by
  intro weighed kept
  ext1 i
  have hkept : kept[i]? = rules[i]?.map fun r =>
      let weighed := (if i ∈ skip then r else r.weigh canary desired).weigh stable (100 - desired)
      if p = i then weighed.modifyRefs (dropStale canary stable destinations) else weighed := by
    rw [List.getElem?_modify, getElem?_setWeights_setWeights, Option.map_eq_map, Option.map_map]
    rfl
  rw [List.getElem?_mapIdx, marked, List.getElem?_mapIdx, Option.map_map]
  split
  · next hempty =>
    rw [hkept]
    congr 1
    funext r
    by_cases hp : p = i
    · simp [weighRule, hempty, hp]
    · simp [weighRule, hempty, hp, Ne.symm hp]
  · next hsome =>
    rw [List.getElem?_modify, setWeights, List.getElem?_mapIdx, hkept, Option.map_eq_map,
      Option.map_map, Option.map_map]
    congr 1
    funext r
    by_cases hp : p = i
    · simp [weighRule, hsome, hp]
    · simp [weighRule, hsome, hp, Ne.symm hp]

/-- The rules are weighed one by one, provided that both services are referenced at all. -/
theorem distribute_eq_ok_iff {kind : RouteKind} {rules rules' : List Rule} {skip : List Nat} :
    distribute kind rules canary stable desired destinations skip = .ok rules' ↔
      anyReferences rules canary ∧ anyReferences rules stable ∧
        weighRules canary stable desired destinations (marked skip rules) = some rules' := by
  have hsplit : distribute kind rules canary stable desired destinations skip = .ok rules' ↔
      ∃ weighed, applyWeight kind rules canary stable desired skip = .ok weighed ∧
        applyDestinations kind weighed canary stable desired destinations skip = .ok rules' := by
    unfold distribute
    cases applyWeight kind rules canary stable desired skip with
    | error e => exact ⟨(nomatch ·), fun ⟨_, h, _⟩ => nomatch h⟩
    | ok weighed =>
      cases hd : applyDestinations kind weighed canary stable desired destinations skip with
      | error e => exact ⟨fun h => by simp [bind, Except.bind, hd, Except.mapError] at h,
          fun ⟨_, h, h'⟩ => by cases h; cases hd.symm.trans h'⟩
      | ok x => exact ⟨fun h => ⟨weighed, rfl, by simpa [bind, Except.bind, hd, Except.mapError] using h⟩,
          fun ⟨_, h, h'⟩ => by cases h; simpa [bind, Except.bind, hd, Except.mapError] using h'⟩
  have hcanary := fun hc : anyReferences rules canary => (@anyReferences_congr rules _ _
    (references_setWeights_setWeights canary stable rules skip desired (100 - desired) canary)).trans hc
  rw [hsplit, weighRules_eq]
  constructor
  · rintro ⟨weighed, hweighed, hdestinations⟩
    obtain ⟨hc, hs, rfl⟩ := applyWeight_eq_ok_iff.1 hweighed
    obtain ⟨p, hp, rfl⟩ := (applyDestinations_eq_ok_iff (hcanary hc)).1 hdestinations
    refine ⟨hc, hs, ?_⟩
    rw [findPrimaryRule_eq, findIdx?_marked_setWeights] at hp
    cases hfind : (marked skip rules).findIdx? (mayBePrimary canary stable) with
    | none => rw [hfind] at hp; cases hp
    | some p' =>
      rw [hfind] at hp
      cases hp
      rw [Option.map_some, mapIdx_weighRule]
  · rintro ⟨hc, hs, hrules⟩
    obtain ⟨p, hfind, rfl⟩ := Option.map_eq_some_iff.1 hrules
    refine ⟨_, applyWeight_eq_ok_iff.2 ⟨hc, hs, rfl⟩,
      (applyDestinations_eq_ok_iff (hcanary hc)).2 ⟨p, ?_, mapIdx_weighRule ..⟩⟩
    rw [findPrimaryRule_eq, findIdx?_marked_setWeights, hfind]
    rfl

end

end CanaryRouting
