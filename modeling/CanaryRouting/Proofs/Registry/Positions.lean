import CanaryRouting.Shaping.Registry
import Mathlib.Data.List.InsertIdx
import Mathlib.Logic.Relation

/-!
# The registry as seen from one route

For one route the registry is a map from managed routes to positions (`ManagedRoutes.positions`).
Here are the effects of the registry's operations on these maps: recording sets one position, and
deleting an entry drops one and renumbers those above it. Other routes see no change.

A `Layout` is a route's rules with the positions recorded for it. Rules come and go in two ways
only, `Edit.add` and `Edit.remove`, and both keep a layout `Sound`: every position is that of a
rule which was injected under the name, and no two names share a position
(`Layout.Sound.of_edits`).
-/

namespace CanaryRouting

/-- The positions that managed routes have in one route. -/
abbrev Positions := String → Option Nat

namespace Positions

/-- Gives a managed route a position. -/
def put (p : Positions) (name : String) (i : Nat) : Positions := fun n =>
  if n = name then some i else p n

/-- Takes away the position of a managed route, if it has one; those above it go down by one. -/
def remove (p : Positions) (name : String) : Positions := fun n =>
  match p name with
  | none => p n
  | some i => if n = name then none else (p n).map fun j => if i < j then j - 1 else j

theorem put_self (p : Positions) (name : String) (i : Nat) : p.put name i name = some i := by
  simp [put]

theorem put_of_ne (p : Positions) {name n : String} (i : Nat) (h : n ≠ name) :
    p.put name i n = p n := by
  simp [put, h]

theorem remove_self (p : Positions) (name : String) : p.remove name name = none := by
  unfold remove
  split
  · next h => exact h
  · simp

theorem remove_of_some {p : Positions} {name n : String} {i : Nat} (h : p name = some i)
    (hn : n ≠ name) : p.remove name n = (p n).map fun j => if i < j then j - 1 else j := by
  simp [remove, h, hn]

end Positions

namespace ManagedRoutes

/-- The positions that are recorded for a route. -/
def positions (m : ManagedRoutes) (route : String) : Positions := fun managed =>
  m.index? managed route

/-! ### Recording and deleting -/

theorem index?_record (m : ManagedRoutes) (managed route n r : String) (i : Nat) :
    (m.record managed route i).index? n r =
      if n = managed ∧ r = route then some i else m.index? n r := by
  simp only [index?, record, KeyMap.get?_insert]
  by_cases hn : n = managed
  · subst hn
    rw [if_pos rfl]
    by_cases hr : r = route
    · subst hr; simp
    · rw [if_neg (fun h => hr h.2), Option.bind_some, KeyMap.get?_insert, if_neg (Ne.symm hr)]
      cases m.entries.get? n <;> simp
  · rw [if_neg (Ne.symm hn), if_neg (fun h => hn h.1)]

theorem index?_drop (m : ManagedRoutes) (managed route n r : String) :
    (m.drop managed route).index? n r =
      if n = managed ∧ r = route then none else m.index? n r := by
  cases hm : m.entries.get? managed with
  | none =>
    simp only [drop, hm]
    split
    · next h => simp [index?, h.1, hm]
    · rfl
  | some routes =>
    simp only [drop, hm]
    by_cases hn : n = managed
    · subst hn
      simp only [true_and]
      split
      · next he =>
        have hnil : (routes.erase route).entries = [] := List.isEmpty_iff.1 he
        have hr : (routes.erase route).get? r = none := by
          simp [KeyMap.get?, hnil, KeyMap.lookupIn]
        rw [KeyMap.get?_erase] at hr
        simp only [index?, KeyMap.get?_erase, if_true, Option.bind_none, hm, Option.bind_some]
        split
        · rfl
        · next hrr => rw [if_neg hrr] at hr; exact hr.symm
      · simp only [index?, KeyMap.get?_insert_self, Option.bind_some, KeyMap.get?_erase, hm]
    · have hne : ¬ (n = managed ∧ r = route) := fun h => hn h.1
      rw [if_neg hne]
      split
      · simp [index?, KeyMap.get?_erase, hn]
      · simp [index?, KeyMap.get?_insert, Ne.symm hn]

theorem index?_renumber (m : ManagedRoutes) (route : String) (removed : Nat) (n r : String) :
    (m.renumber route removed).index? n r =
      if r = route then (m.index? n r).map fun j => if removed < j then j - 1 else j
      else m.index? n r := by
  simp only [index?, renumber, KeyMap.get?_mapValues]
  cases m.entries.get? n with
  | none => simp
  | some routes =>
    simp only [Option.map_some, Option.bind_some]
    by_cases hr : r = route
    · subst hr
      rw [if_pos rfl]
      cases hi : routes.get? r with
      | none => simp [hi]
      | some i =>
        simp only [Option.map_some]
        split
        · rw [KeyMap.get?_insert_self]
        · rw [hi]
    · rw [if_neg hr]
      split
      · split
        · rw [KeyMap.get?_insert, if_neg (Ne.symm hr)]
        · rfl
      · rfl

@[simp] theorem positions_apply (m : ManagedRoutes) (route n : String) :
    m.positions route n = m.index? n route := rfl

theorem positions_record_self (m : ManagedRoutes) (managed route : String) (i : Nat) :
    (m.record managed route i).positions route = (m.positions route).put managed i := by
  funext n
  simp [index?_record, Positions.put]

theorem positions_record_of_ne (m : ManagedRoutes) (managed : String) {route r : String} (i : Nat)
    (h : r ≠ route) : (m.record managed route i).positions r = m.positions r := by
  funext n
  simp [index?_record, h]

theorem positions_removeEntry_self {m m' : ManagedRoutes} {managed route : String} {i : Nat}
    (h : m.removeEntry managed route = .ok (m', i)) :
    m'.positions route = (m.positions route).remove managed := by
  unfold removeEntry at h
  split at h
  · next j hj =>
    cases h
    funext n
    simp only [positions_apply, index?_renumber, index?_drop, Positions.remove, hj]
    by_cases hn : n = managed <;> simp [hn]
  · cases h

theorem positions_removeEntry_of_ne {m m' : ManagedRoutes} {managed route r : String} {i : Nat}
    (h : m.removeEntry managed route = .ok (m', i)) (hr : r ≠ route) :
    m'.positions r = m.positions r := by
  unfold removeEntry at h
  split at h
  · cases h
    funext n
    simp [index?_renumber, index?_drop, hr]
  · cases h

/-! ### The positions of a route -/

theorem mem_insertAscending {i n : Nat} {ns : List Nat} :
    i ∈ insertAscending n ns ↔ i = n ∨ i ∈ ns := by
  induction ns with
  | nil => simp [insertAscending]
  | cons k ks ih =>
    rw [insertAscending]
    split
    · simp
    · split
      · next e => subst e; simp
      · rw [List.mem_cons, ih, List.mem_cons]
        tauto

/-- The positions to skip are those that are recorded. -/
theorem mem_indices {m : ManagedRoutes} {route : String} {i : Nat} :
    i ∈ m.indices route ↔ ∃ name, m.positions route name = some i := by
  have hfold : ∀ ns : List Nat, i ∈ ns.foldr insertAscending [] ↔ i ∈ ns := by
    intro ns
    induction ns with
    | nil => rfl
    | cons n ns ih => rw [List.foldr_cons, mem_insertAscending, ih, List.mem_cons]
  rw [indices, hfold, List.mem_filterMap]
  simp only [KeyMap.values, List.mem_map, positions_apply, index?, Option.bind_eq_some_iff]
  constructor
  · rintro ⟨routes, ⟨e, he, rfl⟩, hi⟩
    exact ⟨e.1, e.2, KeyMap.mem_entries.1 he, hi⟩
  · rintro ⟨name, routes, hroutes, hi⟩
    exact ⟨routes, ⟨(name, routes), KeyMap.mem_entries.2 hroutes, rfl⟩, hi⟩

theorem mem_indices_congr {m m' : ManagedRoutes} {route : String}
    (h : m'.positions route = m.positions route) (i : Nat) :
    i ∈ m'.indices route ↔ i ∈ m.indices route := by
  rw [mem_indices, mem_indices, h]

end ManagedRoutes

/-! ### Removing a rule -/

/-- Removing a rule succeeds exactly when a position is recorded that a rule has. -/
theorem removeManagedRule_ok_iff {m m' : ManagedRoutes} {rules rules' : List Rule}
    {managed route : String} :
    removeManagedRule m rules managed route = .ok (m', rules') ↔
      ∃ i, m.positions route managed = some i ∧ i < rules.length ∧ rules' = rules.eraseIdx i ∧
        m.removeEntry managed route = .ok (m', i) := by
  unfold removeManagedRule
  cases hi : m.index? managed route with
  | none => simp [hi]
  | some i =>
    simp only [ManagedRoutes.positions_apply, hi, Option.some.injEq, exists_eq_left',
      ManagedRoutes.removeEntry]
    by_cases hlen : rules.length ≤ i
    · rw [if_pos hlen]
      simp only [reduceCtorEq, false_iff, not_and]
      intro h
      omega
    · rw [if_neg hlen]
      simp only [Except.map, Except.ok.injEq, Prod.mk.injEq, and_true]
      constructor
      · rintro ⟨rfl, rfl⟩
        exact ⟨by omega, rfl, rfl⟩
      · rintro ⟨-, rfl, rfl⟩
        exact ⟨rfl, rfl⟩

/-! ### Layouts -/

/-- A rule apart from its backend references. -/
def Rule.bare (r : Rule) : Rule := { r with backendRefs := none }

/-- The rules of a route with the positions recorded for it. -/
structure Layout where
  /-- The recorded positions. -/
  positions : Positions
  /-- The rules. -/
  rules : List Rule

namespace Layout

/-- Every recorded position is that of a rule that was injected under the name, its backend
references apart, and no two names share a position. -/
structure Sound (l : Layout) (injected : String → Rule → Prop) : Prop where
  /-- A recorded position is that of a rule injected under the name. -/
  points : ∀ {name i}, l.positions name = some i →
    ∃ rule r, l.rules[i]? = some rule ∧ injected name r ∧ rule.bare = r.bare
  /-- No two names share a position. -/
  apart : ∀ {name name' i}, l.positions name = some i → l.positions name' = some i → name = name'

/-- How rules come and go together with their positions. -/
inductive Edit (mayAdd : String → Rule → Prop) : Layout → Layout → Prop where
  /-- A rule is added behind the others, and its position recorded. -/
  | add {p : Positions} {rules : List Rule} {name : String} {rule : Rule} :
    mayAdd name rule → Edit mayAdd ⟨p, rules⟩ ⟨p.put name rules.length, rules ++ [rule]⟩
  /-- The rule of a name is taken out, and its position dropped. -/
  | remove {p : Positions} {rules : List Rule} {name : String} {i : Nat} :
    p name = some i → i < rules.length → Edit mayAdd ⟨p, rules⟩ ⟨p.remove name, rules.eraseIdx i⟩

/-- Any number of edits. -/
abbrev Edits (mayAdd : String → Rule → Prop) : Layout → Layout → Prop :=
  Relation.ReflTransGen (Edit mayAdd)

variable {l l' : Layout} {injected injected' mayAdd : String → Rule → Prop}

theorem Edit.mono {mayAdd mayAdd' : String → Rule → Prop} (h : Edit mayAdd l l')
    (hsub : ∀ name rule, mayAdd name rule → mayAdd' name rule) : Edit mayAdd' l l' := by
  cases h with
  | add h => exact .add (hsub _ _ h)
  | remove h hi => exact .remove h hi

theorem Edits.mono {mayAdd mayAdd' : String → Rule → Prop} (h : Edits mayAdd l l')
    (hsub : ∀ name rule, mayAdd name rule → mayAdd' name rule) : Edits mayAdd' l l' :=
  Relation.ReflTransGen.mono (fun _ _ he => Edit.mono he hsub) _ _ h

theorem Sound.lt_length (h : l.Sound injected) {name : String} {i : Nat}
    (hi : l.positions name = some i) : i < l.rules.length := by
  obtain ⟨rule, -, hr, -⟩ := h.points hi
  exact (List.getElem?_eq_some_iff.1 hr).1

theorem Sound.mono (h : l.Sound injected)
    (hsub : ∀ name rule, injected name rule → injected' name rule) : l.Sound injected' where
  points hi :=
    let ⟨rule, r, hrule, hinj, hbare⟩ := h.points hi
    ⟨rule, r, hrule, hsub _ _ hinj, hbare⟩
  apart := h.apart

/-- The backend references do not matter. -/
theorem Sound.of_bare (h : l.Sound injected) (hp : l'.positions = l.positions)
    (hr : l'.rules.map Rule.bare = l.rules.map Rule.bare) : l'.Sound injected where
  points {name i} hi := by
    obtain ⟨rule, r, hrule, hinj, hbare⟩ := h.points (hp ▸ hi)
    have hmap : (l'.rules.map Rule.bare)[i]? = some rule.bare := by
      rw [hr, List.getElem?_map, hrule]; rfl
    rw [List.getElem?_map, Option.map_eq_some_iff] at hmap
    obtain ⟨rule', hrule', hbare'⟩ := hmap
    exact ⟨rule', r, hrule', hinj, hbare'.trans hbare⟩
  apart hi hi' := h.apart (hp ▸ hi) (hp ▸ hi')

/-- The rule at a position that survives a removal is found at its new position. -/
theorem getElem?_eraseIdx_renumbered (rules : List Rule) {i j : Nat} (h : j ≠ i) :
    (rules.eraseIdx i)[if i < j then j - 1 else j]? = rules[j]? := by
  rw [List.getElem?_eraseIdx]
  by_cases hlt : i < j
  · rw [if_pos hlt, if_neg (by omega), Nat.sub_add_cancel (by omega)]
  · rw [if_neg hlt, if_pos (by omega)]

theorem Sound.of_edit (h : l.Sound injected) (he : Edit mayAdd l l')
    (hmay : ∀ name rule, mayAdd name rule → injected name rule) : l'.Sound injected := by
  cases he with
  | @add p rules name rule hadd =>
    have hlt : ∀ {n i}, p n = some i → i < rules.length := fun hi => h.lt_length hi
    refine ⟨fun {n i} hi => ?_, fun {n n' i} hi hi' => ?_⟩
    · simp only [Positions.put] at hi
      split at hi
      · next hn =>
        cases hi
        exact ⟨rule, rule, by simp, hn ▸ hmay _ _ hadd, rfl⟩
      · obtain ⟨rule', r, hrule', hinj, hbare⟩ := h.points hi
        exact ⟨rule', r, by rw [List.getElem?_append_left (hlt hi)]; exact hrule', hinj, hbare⟩
    · simp only [Positions.put] at hi hi'
      split at hi <;> split at hi'
      · next hn hn' => rw [hn, hn']
      · cases hi; exact absurd (hlt hi') (by omega)
      · cases hi'; exact absurd (hlt hi) (by omega)
      · exact h.apart hi hi'
  | @remove p rules name i hname hi =>
    have hold : ∀ {n k}, p.remove name n = some k →
        ∃ j, p n = some j ∧ j ≠ i ∧ k = if i < j then j - 1 else j := by
      intro n k hk
      have hne : n ≠ name := fun e => by rw [e, p.remove_self] at hk; cases hk
      rw [Positions.remove_of_some hname hne, Option.map_eq_some_iff] at hk
      obtain ⟨j, hj, rfl⟩ := hk
      exact ⟨j, hj, fun e => hne (h.apart hj (e ▸ hname)), rfl⟩
    refine ⟨fun {n k} hk => ?_, fun {n n' k} hk hk' => ?_⟩
    · obtain ⟨j, hj, hji, rfl⟩ := hold hk
      obtain ⟨rule, r, hrule, hinj, hbare⟩ := h.points hj
      exact ⟨rule, r, (getElem?_eraseIdx_renumbered rules hji).trans hrule, hinj, hbare⟩
    · obtain ⟨j, hj, hji, rfl⟩ := hold hk
      obtain ⟨j', hj', hji', e⟩ := hold hk'
      have : j = j' := by split at e <;> split at e <;> omega
      exact h.apart hj (this ▸ hj')

/-- Edits keep a layout sound. -/
theorem Sound.of_edits (h : l.Sound injected) (he : Edits mayAdd l l')
    (hmay : ∀ name rule, mayAdd name rule → injected name rule) : l'.Sound injected := by
  induction he with
  | refl => exact h
  | tail _ hedit ih => exact ih.of_edit hedit hmay

/-- What holds of all rules, and of those that may be added, holds of all rules afterwards. -/
theorem Edits.forall_rules {p : Rule → Prop} (he : Edits mayAdd l l')
    (hmay : ∀ name rule, mayAdd name rule → p rule) (h : ∀ rule ∈ l.rules, p rule) :
    ∀ rule ∈ l'.rules, p rule := by
  induction he with
  | refl => exact h
  | tail _ hedit ih =>
    cases hedit with
    | add hadd => exact List.forall_mem_append.2 ⟨ih, List.forall_mem_singleton.2 (hmay _ _ hadd)⟩
    | remove => exact fun rule hrule => ih rule (List.mem_of_mem_eraseIdx hrule)

end Layout

end CanaryRouting
