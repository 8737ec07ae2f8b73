import CanaryRouting.Proofs.Atomicity.Carried
import CanaryRouting.Proofs.Registry.Tight

/-!
# Removing names from one route

Whether a name is passed over is decided by the registry as a whole, and whether its rule can be
removed by the route. So the removal of some names from a route goes through exactly if every one
that is recorded for any route is recorded for this one, and for this one alone if it is given twice
(`removal_ok_iff`). Then exactly the rules at the recorded positions are gone (`rules_of_removal`).
-/

namespace CanaryRouting

/-! ### What is left of a list of rules -/

/-- The rules that stand at other positions than these. -/
def rulesWithout (positions : List Nat) (rules : List Rule) : List Rule :=
  (rules.zipIdx.filter fun e => e.2 ∉ positions).map Prod.fst

theorem rulesWithout_nil (rules : List Rule) : rulesWithout [] rules = rules := by
  rw [rulesWithout, List.filter_eq_self.2 (by simp), List.zipIdx_map_fst]

theorem length_rulesWithout (positions : List Nat) (rules : List Rule) :
    (rulesWithout positions rules).length ≤ rules.length := by
  rw [rulesWithout, List.length_map, ← List.length_zipIdx (l := rules)]
  exact List.length_filter_le _ _

/-- Taking out a rule first, and then those at positions that are renumbered. -/
theorem rulesWithout_eraseIdx {rules : List Rule} {i : Nat} (hi : i < rules.length)
    {positions positions' : List Nat} (hmem : i ∈ positions)
    (hbelow : ∀ j < i, j ∈ positions' ↔ j ∈ positions)
    (habove : ∀ j, i ≤ j → (j ∈ positions' ↔ j + 1 ∈ positions)) :
    rulesWithout positions' (rules.eraseIdx i) = rulesWithout positions rules := by
  obtain ⟨front, back, x, rfl, rfl⟩ : ∃ front back x, rules = front ++ x :: back ∧ i = front.length :=
    ⟨rules.take i, rules.drop (i + 1), rules[i],
      by rw [List.getElem_cons_drop, List.take_append_drop], by simp [Nat.le_of_lt hi]⟩
  have hfront : (front.zipIdx.filter fun e => e.2 ∉ positions') =
      front.zipIdx.filter fun e => e.2 ∉ positions := by
    refine List.filter_congr fun e he => ?_
    have : e.2 < front.length := by
      have := List.snd_lt_of_mem_zipIdx he
      omega
    simp only [hbelow e.2 this]
  have hback : ((back.zipIdx front.length).filter fun e => e.2 ∉ positions').map Prod.fst =
      ((back.zipIdx (front.length + 1)).filter fun e => e.2 ∉ positions).map Prod.fst := by
    rw [List.zipIdx_succ, List.filter_map, List.map_map]
    congr 1
    refine List.filter_congr fun e he => ?_
    have := List.le_snd_of_mem_zipIdx he
    simp only [Function.comp, habove e.2 this]
  rw [List.eraseIdx_append_of_length_le (Nat.le_refl _), Nat.sub_self, List.eraseIdx_cons_zero]
  simp only [rulesWithout, List.zipIdx_append, List.zipIdx_cons, List.filter_append,
    List.map_append, Nat.zero_add, hfront, hback, List.filter_cons]
  simp [hmem]

/-- The positions that the names have in the route. -/
def ManagedRoutes.positionsOf (m : ManagedRoutes) (names : List String) (route : String) :
    List Nat :=
  names.filterMap fun name => m.index? name route

theorem ManagedRoutes.positionsOf_congr {m m' : ManagedRoutes} {route : String}
    (h : m.positions route = m'.positions route) (names : List String) :
    m.positionsOf names route = m'.positionsOf names route :=
  congrArg (names.filterMap ·) h

theorem ManagedRoutes.records_congr {m m' : ManagedRoutes} {route : String}
    (h : m.positions route = m'.positions route) (name : String) :
    m.Records name route ↔ m'.Records name route := by
  rw [Records, Records, ← positions_apply, ← positions_apply, h]

namespace Router

/-! ### One name -/

/-- The registry has no empty entries, and every position recorded for the route is that of a
rule of its own. -/
structure Removal.Valid (route : String) (r : Removal) : Prop where
  /-- There are no empty entries. -/
  tight : r.registry.Tight
  /-- The positions are those of rules. -/
  sound : Layout.Sound ⟨r.registry.positions route, r.rules⟩ fun _ _ => True

/-- A name can be removed if it is recorded for the route, or for no route. -/
theorem Removal.remove_ok_iff {route name : String} {r : Removal} (h : r.Valid route) :
    (∃ r', Removal.remove route r name = .ok r') ↔
      ((∃ x, r.registry.Records name x) → r.registry.Records name route) := by
  unfold Removal.remove
  by_cases hcontains : r.registry.contains name
  · rw [if_pos hcontains]
    have hsome := (h.tight.contains_iff name).1 hcontains
    constructor
    · rintro ⟨r', hr'⟩ -
      obtain ⟨⟨m, rules⟩, hm, -⟩ := Except.map_eq_ok.1 hr'
      obtain ⟨i, hpos, -⟩ := removeManagedRule_ok_iff.1 hm
      exact ⟨i, hpos⟩
    · intro hrecords
      obtain ⟨i, hi⟩ := hrecords hsome
      have hlen : i < r.rules.length := h.sound.lt_length hi
      have hentry : r.registry.removeEntry name route =
          .ok ((r.registry.drop name route).renumber route i, i) := by
        rw [ManagedRoutes.removeEntry, hi]
      exact ⟨_, by rw [removeManagedRule_ok_iff.2 ⟨i, hi, hlen, rfl, hentry⟩]; rfl⟩
  · rw [if_neg hcontains]
    exact ⟨fun _ hx => absurd ((h.tight.contains_iff name).2 hx) hcontains, fun _ => ⟨r, rfl⟩⟩

theorem Removal.tight_remove {route name : String} {r r' : Removal} (h : r.registry.Tight)
    (hr : Removal.remove route r name = .ok r') : r'.registry.Tight := by
  rcases Removal.remove_cases hr with ⟨-, rfl⟩ | ⟨i, m, -, -, he, rfl⟩
  · exact h
  · exact h.removeEntry he

theorem Removal.sound_remove {route name : String} {r r' : Removal}
    (h : Layout.Sound ⟨r.registry.positions route, r.rules⟩ fun _ _ => True)
    (hr : Removal.remove route r name = .ok r') :
    Layout.Sound ⟨r'.registry.positions route, r'.rules⟩ fun _ _ => True :=
  h.of_edits (Removal.remove_ok (fun _ _ => False) hr).1 fun _ _ h => h.elim

theorem Removal.Valid.remove {route name : String} {r r' : Removal} (h : r.Valid route)
    (hr : Removal.remove route r name = .ok r') : r'.Valid route :=
  ⟨Removal.tight_remove h.tight hr, Removal.sound_remove h.sound hr⟩

/-- What is recorded after a removal. -/
theorem Removal.records_remove {route name : String} {r r' : Removal}
    (h : Removal.remove route r name = .ok r') {n x : String} :
    r'.registry.Records n x ↔ r.registry.Records n x ∧ ¬ (n = name ∧ x = route) := by
  rcases Removal.remove_cases h with ⟨hnot, rfl⟩ | ⟨i, m, -, -, he, rfl⟩
  · exact ⟨fun hr => ⟨hr, fun e => hnot (e.1 ▸ hr.contains)⟩, fun hr => hr.1⟩
  · exact ManagedRoutes.records_removeEntry he

/-! ### Several names -/

/-- Every name that is recorded for any route is recorded for this one, and if it is given twice
for no other. -/
def Removable (m : ManagedRoutes) (names : List String) (route : String) : Prop :=
  ∀ name ∈ names, ∀ x, m.Records name x →
    m.Records name route ∧ (names.count name = 1 ∨ x = route)

/-- Removing the first name, and then the others. -/
theorem removable_cons_iff {route name : String} {names : List String} {r r' : Removal}
    (h : Removal.remove route r name = .ok r') :
    Removable r.registry (name :: names) route ↔
      ((∃ x, r.registry.Records name x) → r.registry.Records name route) ∧
        Removable r'.registry names route := by
  have hrecords {n x : String} := Removal.records_remove h (n := n) (x := x)
  constructor
  · refine fun hr => ⟨fun ⟨x, hx⟩ => (hr name (List.mem_cons_self ..) x hx).1, fun n hn x hx => ?_⟩
    obtain ⟨hx, hne⟩ := hrecords.1 hx
    obtain ⟨hroute, hcount⟩ := hr n (List.mem_cons_of_mem _ hn) x hx
    by_cases he : n = name
    · subst he
      have : 0 < names.count n := List.count_pos_iff.2 hn
      rw [List.count_cons_self] at hcount
      exact (hne ⟨rfl, hcount.resolve_left (by omega)⟩).elim
    · rw [List.count_cons_of_ne (Ne.symm he)] at hcount
      exact ⟨hrecords.2 ⟨hroute, fun h => he h.1⟩, hcount⟩
  · rintro ⟨hfirst, hr⟩ n hn x hx
    by_cases he : n = name
    · subst he
      refine ⟨hfirst ⟨x, hx⟩, ?_⟩
      rw [List.count_cons_self]
      by_cases hmem : n ∈ names
      · by_cases hxr : x = route
        · exact .inr hxr
        · have hroute := (hr n hmem x (hrecords.2 ⟨hx, fun h => hxr h.2⟩)).1
          exact ((hrecords.1 hroute).2 ⟨rfl, rfl⟩).elim
      · exact .inl (by rw [List.count_eq_zero_of_not_mem hmem])
    · have hmem := (List.mem_cons.1 hn).resolve_left he
      obtain ⟨hroute, hcount⟩ := hr n hmem x (hrecords.2 ⟨hx, fun h => he h.1⟩)
      rw [List.count_cons_of_ne (Ne.symm he)]
      exact ⟨(hrecords.1 hroute).1, hcount⟩

theorem removal_ok_iff {route : String} {names : List String} {r : Removal} (h : r.Valid route) :
    (∃ r', names.foldlM (Removal.remove route) r = .ok r') ↔ Removable r.registry names route := by
  induction names generalizing r with
  | nil => exact ⟨fun _ _ hn => (nomatch hn), fun _ => ⟨r, rfl⟩⟩
  | cons name names ih =>
    rw [List.foldlM_cons]
    cases hr : Removal.remove route r name with
    | ok r₁ =>
      rw [removable_cons_iff hr, ← ih (h.remove hr)]
      exact ⟨fun hrest => ⟨(Removal.remove_ok_iff h).1 ⟨r₁, hr⟩, hrest⟩, fun hrest => hrest.2⟩
    | error e =>
      refine ⟨fun ⟨_, hrest⟩ => (nomatch hrest), fun hremovable => ?_⟩
      obtain ⟨r₁, hr₁⟩ := (Removal.remove_ok_iff h).2 fun ⟨x, hx⟩ =>
        (hremovable name (List.mem_cons_self ..) x hx).1
      cases hr.symm.trans hr₁

/-- Deleting an entry moves the other positions as taking out the rule moves the rules. -/
theorem index?_removeEntry {m m' : ManagedRoutes} {name n route : String} {i : Nat}
    (h : m.removeEntry name route = .ok (m', i)) (hi : m.index? name route = some i)
    (hn : n ≠ name) :
    m'.index? n route = (m.index? n route).map fun j => if i < j then j - 1 else j := by
  have hpositions := congrFun (ManagedRoutes.positions_removeEntry_self h) n
  rwa [Positions.remove_of_some (p := m.positions route) hi hn] at hpositions

/-- A name that is given later has the position of another rule than the one that is taken out. -/
theorem mem_positionsOf_removeEntry {m m' : ManagedRoutes} {name route : String} {i : Nat}
    (h : m.removeEntry name route = .ok (m', i)) (hi : m.index? name route = some i)
    (hapart : ∀ n, m.index? n route = some i → n = name) (names : List String) (k : Nat) :
    k ∈ m'.positionsOf names route ↔
      ∃ n ∈ names, ∃ j, j ≠ i ∧ m.index? n route = some j ∧ (if i < j then j - 1 else j) = k := by
  simp only [ManagedRoutes.positionsOf, List.mem_filterMap]
  refine exists_congr fun n => and_congr_right fun _ => ?_
  by_cases hname : n = name
  · subst hname
    have hnone : m'.index? n route = none := ManagedRoutes.not_records_iff.1 fun hrecords =>
      ((ManagedRoutes.records_removeEntry h).1 hrecords).2 ⟨rfl, rfl⟩
    rw [hnone, hi]
    exact ⟨(nomatch ·), fun ⟨j, hj, e, _⟩ => absurd (Option.some.inj e).symm hj⟩
  · rw [index?_removeEntry h hi hname, Option.map_eq_some_iff]
    exact exists_congr fun j => ⟨fun ⟨hj, e⟩ => ⟨fun eji => hname (hapart n (eji ▸ hj)), hj, e⟩,
      fun ⟨_, hj, e⟩ => ⟨hj, e⟩⟩

/-- Taking out the rule of the first name, and then those of the others. -/
theorem rulesWithout_positionsOf_cons {m m' : ManagedRoutes} {name route : String} {i : Nat}
    (h : m.removeEntry name route = .ok (m', i)) (hi : m.index? name route = some i)
    (hapart : ∀ n, m.index? n route = some i → n = name) (names : List String) {rules : List Rule}
    (hlen : i < rules.length) :
    rulesWithout (m'.positionsOf names route) (rules.eraseIdx i) =
      rulesWithout (m.positionsOf (name :: names) route) rules := by
  have hmem := mem_positionsOf_removeEntry h hi hapart names
  have hcons : ∀ k, k ∈ m.positionsOf (name :: names) route ↔
      k = i ∨ ∃ n ∈ names, m.index? n route = some k := by
    intro k
    simp only [ManagedRoutes.positionsOf, List.filterMap_cons, hi, List.mem_cons,
      List.mem_filterMap]
  refine rulesWithout_eraseIdx hlen ((hcons i).2 (.inl rfl)) (fun j hj => ?_) fun j hj => ?_
  · rw [hmem, hcons]
    constructor
    · rintro ⟨n, hn, j', hne, hj', e⟩
      refine .inr ⟨n, hn, ?_⟩
      split at e
      · omega
      · exact e ▸ hj'
    · rintro (rfl | ⟨n, hn, hj'⟩)
      · omega
      · exact ⟨n, hn, j, by omega, hj', if_neg (by omega)⟩
  · rw [hmem, hcons]
    constructor
    · rintro ⟨n, hn, j', hne, hj', e⟩
      refine .inr ⟨n, hn, ?_⟩
      split at e
      · rw [hj']
        congr 1
        omega
      · omega
    · rintro (e | ⟨n, hn, hj'⟩)
      · omega
      · exact ⟨n, hn, j + 1, by omega, hj', by rw [if_pos (by omega)]; omega⟩

/-- A removal leaves exactly the rules at other positions than those of the names. -/
theorem rules_of_removal {route : String} {names : List String} {r r' : Removal}
    (h : Layout.Sound ⟨r.registry.positions route, r.rules⟩ fun _ _ => True)
    (hfold : names.foldlM (Removal.remove route) r = .ok r') :
    r'.rules = rulesWithout (r.registry.positionsOf names route) r.rules := by
  induction names generalizing r with
  | nil =>
    cases hfold
    exact (rulesWithout_nil _).symm
  | cons name names ih =>
    obtain ⟨r₁, hr, hrest⟩ := Except.foldlM_cons_eq_ok.1 hfold
    rw [ih (Removal.sound_remove h hr) hrest]
    rcases Removal.remove_cases hr with ⟨hnot, rfl⟩ | ⟨i, m, hi, hlen, he, rfl⟩
    · have hnone : r₁.registry.index? name route = none :=
        ManagedRoutes.not_records_iff.1 fun hrecords => hnot hrecords.contains
      simp only [ManagedRoutes.positionsOf, List.filterMap_cons, hnone]
    · exact rulesWithout_positionsOf_cons he hi (fun n hn => h.apart hn hi) names hlen

theorem tight_of_removal {route : String} {names : List String} {r r' : Removal}
    (h : r.registry.Tight) (hfold : names.foldlM (Removal.remove route) r = .ok r') :
    r'.registry.Tight := by
  induction names generalizing r with
  | nil =>
    cases hfold
    exact h
  | cons name names ih =>
    obtain ⟨r₁, hr, hrest⟩ := Except.foldlM_cons_eq_ok.1 hfold
    exact ih (Removal.tight_remove h hr) hrest

/-- After a removal the names are recorded for the route no more. -/
theorem records_of_removal {route : String} {names : List String} {r r' : Removal}
    (hfold : names.foldlM (Removal.remove route) r = .ok r') {n x : String} :
    r'.registry.Records n x ↔ r.registry.Records n x ∧ ¬ (n ∈ names ∧ x = route) := by
  induction names generalizing r with
  | nil =>
    cases hfold
    simp
  | cons name names ih =>
    obtain ⟨r₁, hr, hrest⟩ := Except.foldlM_cons_eq_ok.1 hfold
    rw [ih hrest, Removal.records_remove hr, List.mem_cons]
    tauto

/-- A removal reports a change, or has changed nothing. -/
theorem changed_of_removal {route : String} {names : List String} {r r' : Removal}
    (hfold : names.foldlM (Removal.remove route) r = .ok r') :
    r'.changed = true ∨ r' = r := by
  induction names generalizing r with
  | nil =>
    cases hfold
    exact .inr rfl
  | cons name names ih =>
    obtain ⟨r₁, hr, hrest⟩ := Except.foldlM_cons_eq_ok.1 hfold
    rcases ih hrest with hchanged | rfl
    · exact .inl hchanged
    · exact (Removal.remove_cases hr).symm.imp (fun ⟨_, _, _, _, _, e⟩ => by rw [e]) And.right

/-- A removal that changes nothing has passed over all the names. -/
theorem not_contains_of_removal {route : String} {names : List String} {r r' : Removal}
    (hfold : names.foldlM (Removal.remove route) r = .ok r') (hr' : r'.changed = false) :
    ∀ name ∈ names, ¬ r.registry.contains name := by
  induction names generalizing r with
  | nil => exact fun _ h => nomatch h
  | cons name names ih =>
    obtain ⟨r₁, hr, hrest⟩ := Except.foldlM_cons_eq_ok.1 hfold
    rcases Removal.remove_cases hr with ⟨hnot, rfl⟩ | ⟨_, _, _, _, _, rfl⟩
    · exact List.forall_mem_cons.2 ⟨hnot, ih hrest⟩
    · rcases changed_of_removal hrest with hchanged | rfl
      · exact absurd hchanged (by rw [hr']; decide)
      · cases hr'

/-- Names that are not in the registry are passed over. -/
theorem removal_of_not_contains {names : List String} {r : Removal} (route : String)
    (h : ∀ name ∈ names, ¬ r.registry.contains name) :
    names.foldlM (Removal.remove route) r = .ok r := by
  induction names with
  | nil => rfl
  | cons name names ih =>
    rw [List.foldlM_cons, Removal.remove, if_neg (h name (List.mem_cons_self ..))]
    exact ih fun n hn => h n (List.mem_cons_of_mem _ hn)

/-! ### Targets -/

/-- If a target is left as it is, that does not depend on its route. -/
theorem HeaderChange.on_eq_none {change : HeaderChange} {rollout : Rollout} {t : Target}
    {registry : ManagedRoutes} {route : Route}
    (h : change.on rollout t registry route = .ok none) (route' : Route) :
    change.on rollout t registry route' = .ok none := by
  cases change with
  | set name headers =>
    obtain ⟨_, _, _, he⟩ := HeaderChange.on_set_eq_ok.1 h
    cases he
  | remove names =>
    obtain ⟨removal, hfold, hnone⟩ := HeaderChange.on_remove_eq_ok.1 h
    have hchanged : removal.changed = false := by
      by_contra hne
      simp [hne] at hnone
    have hnames := not_contains_of_removal hfold hchanged
    exact HeaderChange.on_remove_eq_ok.2 ⟨_, removal_of_not_contains t.name hnames, rfl⟩

/-- What a removal makes of a target. -/
theorem removal_of_on {names : List String} {rollout : Rollout} {t : Target}
    {registry : ManagedRoutes} {route : Route} {x : Option RouteChange}
    (h : (HeaderChange.remove names).on rollout t registry route = .ok x) :
    ∃ removal : Removal, names.foldlM (Removal.remove t.name)
        { registry, rules := route.rules } = .ok removal ∧
      registryAfter registry x = removal.registry ∧ (routeAfter route x).rules = removal.rules := by
  obtain ⟨removal, hfold, hx⟩ := HeaderChange.on_remove_eq_ok.1 h
  refine ⟨removal, hfold, ?_⟩
  split at hx <;> cases hx
  · exact ⟨rfl, rfl⟩
  · next hnot =>
    rcases changed_of_removal hfold with hchanged | rfl
    · exact absurd hchanged hnot
    · exact ⟨rfl, rfl⟩

end Router

end CanaryRouting
