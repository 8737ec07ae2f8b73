import CanaryRouting.Proofs.Removal.Names
import CanaryRouting.Proofs.Shaping.InPlace
import Mathlib.Data.List.Basic

/-!
# Removing names in any order

Each removal of a managed route from a route moves the rules behind it, and the positions recorded
for them. After any number of removals a position has gone down by the number of removed rules that
stood below it, so it is still that of the same rule. This says what is left in one go (`TakenOut`),
and as it does not speak of an order, the order does not matter (`taken_out_in_any_order`).
-/

namespace CanaryRouting

/-- A registry is known by its names and by the positions that are recorded. -/
theorem ManagedRoutes.ext_index? {m m' : ManagedRoutes}
    (hcontains : ∀ n, m.contains n = m'.contains n)
    (hindex : ∀ n r, m.index? n r = m'.index? n r) : m = m' := by
  obtain ⟨entries⟩ := m
  obtain ⟨entries'⟩ := m'
  congr 1
  ext1 n
  have hn := hcontains n
  have hroutes := hindex n
  simp only [contains, KeyMap.contains, index?] at hn hroutes
  cases h : entries.get? n with
  | none =>
    rw [h, Option.isSome_none] at hn
    exact (Option.isSome_eq_false_iff.1 hn.symm |> Option.isNone_iff_eq_none.1).symm
  | some routes =>
    rw [h, Option.isSome_some] at hn
    obtain ⟨routes', h'⟩ := Option.isSome_iff_exists.1 hn.symm
    rw [h, h'] at hroutes
    rw [h']
    congr 1
    ext1 r
    exact hroutes r

/-- Takes the rules of managed routes out of a route, one after the other. -/
def removeManagedRules (m : ManagedRoutes) (rules : List Rule) (names : List String)
    (route : String) : Except RoutingError (ManagedRoutes × List Rule) :=
  names.foldlM (fun s name => removeManagedRule s.1 s.2 name route) (m, rules)

/-- How many of the positions are below the given one. -/
def below (positions : List Nat) (j : Nat) : Nat := positions.countP fun i => i < j

/-- The registry `m'` and the rules `rules'` are what is to be left of `m` and `rules` when the rules
of the names are taken out of the route. -/
structure TakenOut (route : String) (names : List String) (m : ManagedRoutes) (rules : List Rule)
    (m' : ManagedRoutes) (rules' : List Rule) : Prop where
  /-- The rules at the positions of the names are gone, and the others are left in their order. -/
  rules_eq : rules' = rulesWithout (m.positionsOf names route) rules
  /-- The names are not recorded for the route any more. -/
  gone : ∀ n ∈ names, m'.index? n route = none
  /-- The positions of other names have gone down by the number of removed rules below them. -/
  moved : ∀ n, n ∉ names → m'.index? n route =
    (m.index? n route).map fun j => j - below (m.positionsOf names route) j
  /-- They are those of the same rules. -/
  same : ∀ n, n ∉ names → ∀ j, m.index? n route = some j →
    rules'[j - below (m.positionsOf names route) j]? = rules[j]?
  /-- What is recorded for other routes stays. -/
  elsewhere : ∀ n r, r ≠ route → m'.index? n r = m.index? n r
  /-- A removed name stays just if it is recorded for another route. -/
  kept : ∀ n ∈ names, m'.contains n ↔ ∃ r, r ≠ route ∧ m.Records n r
  /-- Every other name stays. -/
  others : ∀ n, n ∉ names → m'.contains n = m.contains n

/-! ### Positions -/

section

variable {m m' : ManagedRoutes} {route name : String} {names names' : List String} {i : Nat}

/-- The position that a rule has when the one at `i` is taken out. -/
def renumbered (i j : Nat) : Nat := if i < j then j - 1 else j

theorem below_cons (positions : List Nat) (i j : Nat) :
    below (i :: positions) j = below positions j + if i < j then 1 else 0 := by
  simp [below, List.countP_cons]

/-- Taking out one rule after another, or counting them all at once. -/
theorem renumbered_sub_below {positions : List Nat} (hpositions : i ∉ positions) (j : Nat) :
    renumbered i j - below (positions.map (renumbered i)) (renumbered i j) =
      j - below (i :: positions) j := by
  have hbelow : below (positions.map (renumbered i)) (renumbered i j) = below positions j := by
    unfold below
    rw [List.countP_map]
    apply List.countP_congr
    intro k hk
    have hne : k ≠ i := fun he => hpositions (he ▸ hk)
    rw [Function.comp_apply, decide_eq_true_iff, decide_eq_true_iff]
    unfold renumbered
    split <;> split <;> omega
  rw [hbelow, below_cons, renumbered]
  split <;> omega

/-- The positions of the other names when the rule of one is taken out. -/
theorem positionsOf_removeEntry (h : m.removeEntry name route = .ok (m', i))
    (hi : m.index? name route = some i) (hname : name ∉ names) :
    m'.positionsOf names route = (m.positionsOf names route).map (renumbered i) := by
  rw [ManagedRoutes.positionsOf, ManagedRoutes.positionsOf, List.map_filterMap]
  apply List.filterMap_congr
  intro n hn
  have hne : n ≠ name := fun he => hname (he ▸ hn)
  exact Router.index?_removeEntry h hi hne

theorem positionsOf_cons (hi : m.index? name route = some i) :
    m.positionsOf (name :: names) route = i :: m.positionsOf names route := by
  simp [ManagedRoutes.positionsOf, hi]

theorem not_mem_positionsOf (hapart : ∀ n, m.index? n route = some i → n = name)
    (hname : name ∉ names) : i ∉ m.positionsOf names route := by
  intro hmem
  obtain ⟨n, hn, hn'⟩ := List.mem_filterMap.1 hmem
  exact hname (hapart n hn' ▸ hn)

/-- Where a rule of another name stands in the end does not depend on the way. -/
theorem renumbered_sub_below_removeEntry (hentry : m.removeEntry name route = .ok (m', i))
    (hi : m.index? name route = some i) (hapart : ∀ n, m.index? n route = some i → n = name)
    (hname : name ∉ names) (j : Nat) :
    renumbered i j - below (m'.positionsOf names route) (renumbered i j) =
      j - below (m.positionsOf (name :: names) route) j := by
  rw [positionsOf_removeEntry hentry hi hname, positionsOf_cons hi]
  exact renumbered_sub_below (not_mem_positionsOf hapart hname) j

end

/-! ### One name after the other -/

section

variable {m m₁ m' m'' : ManagedRoutes} {rules rules' rules'' : List Rule} {route name : String}
  {names names' : List String} {i : Nat}

namespace TakenOut

theorem nil : TakenOut route [] m rules m rules where
  rules_eq := (rulesWithout_nil rules).symm
  gone := by simp
  moved := by simp [ManagedRoutes.positionsOf, below]
  same := by simp [ManagedRoutes.positionsOf, below]
  elsewhere := by simp
  kept := by simp
  others := by simp

/-- The rule of the first name is taken out, and then those of the others. -/
theorem cons (hentry : m.removeEntry name route = .ok (m₁, i)) (hi : m.index? name route = some i)
    (hlen : i < rules.length) (hapart : ∀ n, m.index? n route = some i → n = name)
    (hname : name ∉ names) (h : TakenOut route names m₁ (rules.eraseIdx i) m' rules') :
    TakenOut route (name :: names) m rules m' rules' := by
  have hcount := renumbered_sub_below_removeEntry hentry hi hapart hname
  have hindex : ∀ n, n ≠ name → m₁.index? n route = (m.index? n route).map (renumbered i) :=
    fun n hn => Router.index?_removeEntry hentry hi hn
  have hrecords {n r : String} := ManagedRoutes.records_removeEntry hentry (n := n) (r := r)
  constructor
  case rules_eq =>
    rw [h.rules_eq]
    exact Router.rulesWithout_positionsOf_cons hentry hi hapart names hlen
  case gone =>
    intro n hn
    by_cases hmem : n ∈ names
    · exact h.gone n hmem
    · obtain rfl : n = name := (List.mem_cons.1 hn).resolve_right hmem
      have hnone : m₁.index? n route = none := by
        rw [← ManagedRoutes.not_records_iff, hrecords]
        simp
      rw [h.moved n hmem, hnone, Option.map_none]
  case moved =>
    intro n hn
    rw [List.mem_cons, not_or] at hn
    rw [h.moved n hn.2, hindex n hn.1]
    cases hj : m.index? n route with
    | none => rfl
    | some j => rw [Option.map_some, Option.map_some, Option.map_some, hcount j]
  case same =>
    intro n hn j hj
    rw [List.mem_cons, not_or] at hn
    have hne : j ≠ i := fun he => hn.1 (hapart n (he ▸ hj))
    rw [← hcount j, h.same n hn.2 (renumbered i j) (by rw [hindex n hn.1, hj]; rfl)]
    exact Layout.getElem?_eraseIdx_renumbered rules hne
  case elsewhere =>
    intro n r hr
    rw [h.elsewhere n r hr]
    exact congrFun (ManagedRoutes.positions_removeEntry_of_ne hentry hr) n
  case kept =>
    intro n hn
    by_cases hmem : n ∈ names
    · rw [h.kept n hmem]
      refine exists_congr fun r => and_congr_right fun hr => ?_
      rw [hrecords]
      simp [hr]
    · obtain rfl : n = name := (List.mem_cons.1 hn).resolve_right hmem
      rw [h.others n hmem]
      exact ManagedRoutes.contains_removeEntry_self hentry
  case others =>
    intro n hn
    rw [List.mem_cons, not_or] at hn
    rw [h.others n hn.2]
    exact ManagedRoutes.contains_removeEntry_of_ne hentry hn.1

/-- The order of the names does not matter. -/
theorem perm (h : TakenOut route names m rules m' rules') (hnames : names'.Perm names) :
    TakenOut route names' m rules m' rules' := by
  have hpositions : (m.positionsOf names' route).Perm (m.positionsOf names route) :=
    hnames.filterMap _
  have hbelow : ∀ j, below (m.positionsOf names' route) j = below (m.positionsOf names route) j :=
    fun j => hpositions.countP_eq _
  have hrules : rulesWithout (m.positionsOf names' route) rules =
      rulesWithout (m.positionsOf names route) rules := by
    unfold rulesWithout
    simp only [hpositions.mem_iff]
  constructor
  case rules_eq => rw [hrules, h.rules_eq]
  case gone => simpa only [hnames.mem_iff] using h.gone
  case moved => simpa only [hnames.mem_iff, hbelow] using h.moved
  case same => simpa only [hnames.mem_iff, hbelow] using h.same
  case elsewhere => exact h.elsewhere
  case kept => simpa only [hnames.mem_iff] using h.kept
  case others => simpa only [hnames.mem_iff] using h.others

/-- There is only one such registry, and one such list of rules. -/
theorem unique (h : TakenOut route names m rules m' rules')
    (h' : TakenOut route names m rules m'' rules'') : m'' = m' ∧ rules'' = rules' := by
  refine ⟨ManagedRoutes.ext_index? (fun n => ?_) (fun n r => ?_), h'.rules_eq.trans h.rules_eq.symm⟩
  · by_cases hn : n ∈ names
    · rw [Bool.eq_iff_iff, h'.kept n hn, h.kept n hn]
    · rw [h'.others n hn, h.others n hn]
  · by_cases hr : r = route
    · subst hr
      by_cases hn : n ∈ names
      · rw [h'.gone n hn, h.gone n hn]
      · rw [h'.moved n hn, h.moved n hn]
    · rw [h'.elsewhere n r hr, h.elsewhere n r hr]

end TakenOut

/-- Removing names one after the other succeeds if all of them are recorded, and takes their rules
out. -/
theorem exists_takenOut (hsound : Layout.Sound ⟨m.positions route, rules⟩ fun _ _ => True)
    (hnodup : names.Nodup) (hrecords : ∀ n ∈ names, m.Records n route) :
    ∃ m' rules', removeManagedRules m rules names route = .ok (m', rules') ∧
      TakenOut route names m rules m' rules' := by
  induction names generalizing m rules with
  | nil => exact ⟨m, rules, rfl, TakenOut.nil⟩
  | cons name names ih =>
    rw [List.nodup_cons] at hnodup
    obtain ⟨i, hi⟩ := hrecords name List.mem_cons_self
    have hlen : i < rules.length := hsound.lt_length hi
    obtain ⟨m₁, hentry⟩ : ∃ m₁, m.removeEntry name route = .ok (m₁, i) := by
      simp [ManagedRoutes.removeEntry, hi]
    have hstep : removeManagedRule m rules name route = .ok (m₁, rules.eraseIdx i) :=
      removeManagedRule_ok_iff.2 ⟨i, hi, hlen, rfl, hentry⟩
    -- What is recorded after the first removal is recorded for the rules that are left.
    have hsound₁ : Layout.Sound ⟨m₁.positions route, rules.eraseIdx i⟩ fun _ _ => True := by
      rw [ManagedRoutes.positions_removeEntry_self hentry]
      exact hsound.of_edit (Layout.Edit.remove hi hlen) fun _ _ h => h
    have hrecords₁ : ∀ n ∈ names, m₁.Records n route := by
      intro n hn
      rw [ManagedRoutes.records_removeEntry hentry]
      exact ⟨hrecords n (List.mem_cons_of_mem _ hn), fun h => hnodup.1 (h.1 ▸ hn)⟩
    obtain ⟨m', rules', hrest, htaken⟩ := ih hsound₁ hnodup.2 hrecords₁
    refine ⟨m', rules', ?_, htaken.cons hentry hi hlen (fun n hn => hsound.apart hn hi) hnodup.1⟩
    unfold removeManagedRules at hrest ⊢
    rw [List.foldlM_cons, hstep]
    exact hrest

/-- A removal fails if nothing is recorded, or a position behind the last rule. -/
theorem removeManagedRule_error_iff {e : RoutingError} :
    removeManagedRule m rules name route = .error e ↔
      m.index? name route = none ∧ e = ManagedRoutes.missing name route ∨
      ∃ i, m.index? name route = some i ∧ rules.length ≤ i ∧
        e = .managedRuleOutOfRange name route i rules.length := by
  unfold removeManagedRule ManagedRoutes.removeEntry
  cases hi : m.index? name route with
  | none => simp [eq_comm]
  | some i =>
    by_cases hlen : rules.length ≤ i
    · simp [hlen, eq_comm]
    · simp [hlen, Except.map]

end

/-- Different recorded names can be removed in any order: all removals succeed, and they take the
rules of these names out. A removal that fails changes nothing. -/
theorem taken_out_in_any_order (m : ManagedRoutes) (rules : List Rule) (route : String) :
    ((∀ n i, m.index? n route = some i → i < rules.length) →
      (∀ n n' i, m.index? n route = some i → m.index? n' route = some i → n = n') →
      ∀ names : List String, names.Nodup → (∀ n ∈ names, m.Records n route) →
      ∃ m' rules', TakenOut route names m rules m' rules' ∧
        ∀ names' : List String, names'.Perm names →
          removeManagedRules m rules names' route = .ok (m', rules')) ∧
    ∀ name,
      (∀ e, removeManagedRule m rules name route = .error e ↔
        m.index? name route = none ∧ e = ManagedRoutes.missing name route ∨
        ∃ i, m.index? name route = some i ∧ rules.length ≤ i ∧
          e = .managedRuleOutOfRange name route i rules.length) ∧
      (removeInPlace name route).carryOut (m, rules) =
        match removeManagedRule m rules name route with
        | .ok (m', rules') => (.ok (), m', rules')
        | .error e => (.error e, m, rules) := by
  constructor
  · intro hrange hapart names hnodup hrecords
    have hsound : Layout.Sound ⟨m.positions route, rules⟩ fun _ _ => True := by
      constructor
      case points =>
        intro n i hi
        have hlen := hrange n i hi
        exact ⟨rules[i], rules[i], List.getElem?_eq_getElem hlen, trivial, rfl⟩
      case apart =>
        intro n n' i hi hi'
        exact hapart n n' i hi hi'
    obtain ⟨m', rules', -, htaken⟩ := exists_takenOut hsound hnodup hrecords
    refine ⟨m', rules', htaken, fun names' hperm => ?_⟩
    obtain ⟨m'', rules'', hok, htaken'⟩ := exists_takenOut hsound (hperm.nodup_iff.2 hnodup)
      fun n hn => hrecords n (hperm.mem_iff.1 hn)
    obtain ⟨rfl, rfl⟩ := htaken.unique (htaken'.perm hperm.symm)
    exact hok
  · intro name
    refine ⟨fun e => removeManagedRule_error_iff, ?_⟩
    rw [realizes_removeInPlace name route (m, rules)]
    cases h : removeManagedRule m rules name route with
    | ok s => simp [h, Except.map]
    | error e => simp [h, Except.map]

/-- The rules of a route of which the first, the third and the fourth are those of header routes. -/
def labelledRules : List Rule :=
  [{ name := some "first" }, { name := some "plain" }, { name := some "second" },
    { name := some "third" }]

/-- Their positions, and one of the first header route in a shorter route. -/
def labelledRoutes : ManagedRoutes :=
  (((ManagedRoutes.empty.record "first" "web" 0).record "second" "web" 2).record
    "third" "web" 3).record "first" "api" 5

theorem taken_out_in_any_order_labelled :
    (∃ m' rules', TakenOut "web" ["first", "second"] labelledRoutes labelledRules m' rules' ∧
      removeManagedRules labelledRoutes labelledRules ["second", "first"] "web" =
        .ok (m', rules')) ∧
    (removeInPlace "first" "api").carryOut (labelledRoutes, labelledRules) =
      (.error (.managedRuleOutOfRange "first" "api" 5 4), labelledRoutes, labelledRules) := by
  have hindex : ∀ n i, labelledRoutes.index? n "web" = some i →
      n = "first" ∧ i = 0 ∨ n = "second" ∧ i = 2 ∨ n = "third" ∧ i = 3 := by
    intro n i hi
    have hempty : ManagedRoutes.empty.index? n "web" = none := rfl
    simp only [labelledRoutes, ManagedRoutes.index?_record, hempty] at hi
    grind
  constructor
  · have hrange : ∀ n i, labelledRoutes.index? n "web" = some i → i < labelledRules.length := by
      intro n i hi
      rcases hindex n i hi with ⟨-, rfl⟩ | ⟨-, rfl⟩ | ⟨-, rfl⟩ <;> decide
    have hapart : ∀ n n' i, labelledRoutes.index? n "web" = some i →
        labelledRoutes.index? n' "web" = some i → n = n' := by
      intro n n' i hi hi'
      have h := hindex n i hi
      have h' := hindex n' i hi'
      grind
    have hrecords : ∀ n ∈ ["first", "second"], labelledRoutes.Records n "web" := by
      simp [ManagedRoutes.Records, labelledRoutes, ManagedRoutes.index?_record]
    obtain ⟨m', rules', htaken, hok⟩ := (taken_out_in_any_order labelledRoutes labelledRules "web").1
      hrange hapart ["first", "second"] (by decide) hrecords
    exact ⟨m', rules', htaken, hok ["second", "first"] (List.Perm.swap ..)⟩
  · rw [((taken_out_in_any_order labelledRoutes labelledRules "api").2 "first").2]
    rfl

end CanaryRouting
