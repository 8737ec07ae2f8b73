import CanaryRouting.Proofs.Removal.Names
import Mathlib.Data.List.Nodup

/-!
# Registries of one route

If header routes are added to one route only, and its other rules are left in place, the registry
has the names of the header routes in the order in which they were added, at consecutive positions
behind the other rules (`ManagedRoutes.Catalogues`). Recording a new name goes on with the positions,
and deleting a name closes the gap.
-/

namespace CanaryRouting.ManagedRoutes

/-- The registry has these names and no others, each for this route only, and at consecutive
positions from `start` on. -/
structure Catalogues (m : ManagedRoutes) (route : String) (start : Nat) (names : List String) :
    Prop where
  /-- The names have one position each, one after the other. -/
  listed : ∀ (i : Nat) (name : String), names[i]? = some name →
    m.entries.get? name = some (KeyMap.empty.insert route (start + i))
  /-- Other names have no entry. -/
  unlisted : ∀ name, name ∉ names → m.entries.get? name = none

variable {m m' : ManagedRoutes} {route : String} {start : Nat} {names : List String}

theorem catalogues_empty (route : String) (start : Nat) : empty.Catalogues route start [] where
  listed _ _ h := nomatch h
  unlisted _ _ := rfl

namespace Catalogues

theorem get?_eq_some (h : m.Catalogues route start names) {name : String}
    {routes : KeyMap String Nat} (hname : m.entries.get? name = some routes) :
    ∃ i : Nat, names[i]? = some name ∧ routes = KeyMap.empty.insert route (start + i) := by
  by_cases hmem : name ∈ names
  · obtain ⟨i, hi⟩ := List.getElem?_of_mem hmem
    exact ⟨i, hi, Option.some.inj (hname.symm.trans (h.listed i name hi))⟩
  · cases (h.unlisted name hmem).symm.trans hname

/-- The recorded positions are those of the names. -/
theorem index?_eq_some_iff (h : m.Catalogues route start names) {name r : String} {j : Nat} :
    m.index? name r = some j ↔ r = route ∧ ∃ i : Nat, names[i]? = some name ∧ j = start + i := by
  rw [index?, Option.bind_eq_some_iff]
  constructor
  · rintro ⟨routes, hroutes, hr⟩
    obtain ⟨i, hi, rfl⟩ := h.get?_eq_some hroutes
    rw [KeyMap.get?_insert] at hr
    split at hr
    · next he => exact ⟨he.symm, i, hi, (Option.some.inj hr).symm⟩
    · cases hr
  · rintro ⟨rfl, i, hi, rfl⟩
    exact ⟨_, h.listed i name hi, KeyMap.get?_insert_self ..⟩

/-- No name is there twice. -/
theorem nodup (h : m.Catalogues route start names) : names.Nodup := by
  rw [List.nodup_iff_getElem?_ne_getElem?]
  intro i j hlt hj he
  have hi := h.index?_eq_some_iff.2 ⟨rfl, i, he.trans (List.getElem?_eq_getElem hj), rfl⟩
  have hj' := h.index?_eq_some_iff.2 ⟨rfl, j, List.getElem?_eq_getElem hj, rfl⟩
  have := Option.some.inj (hi.symm.trans hj')
  omega

theorem contains_iff (h : m.Catalogues route start names) {name : String} :
    m.contains name ↔ name ∈ names := by
  rw [contains, KeyMap.contains]
  constructor
  · intro hsome
    obtain ⟨routes, hroutes⟩ := Option.isSome_iff_exists.1 hsome
    obtain ⟨i, hi, -⟩ := h.get?_eq_some hroutes
    exact List.mem_of_getElem? hi
  · intro hmem
    obtain ⟨i, hi⟩ := List.getElem?_of_mem hmem
    rw [h.listed i name hi]
    rfl

theorem mem_indices (h : m.Catalogues route start names) {j : Nat} :
    j ∈ m.indices route ↔ start ≤ j ∧ j < start + names.length := by
  simp only [ManagedRoutes.mem_indices, positions_apply, h.index?_eq_some_iff, true_and]
  constructor
  · rintro ⟨name, i, hi, rfl⟩
    have := (List.getElem?_eq_some_iff.1 hi).1
    omega
  · rintro ⟨hle, hlt⟩
    exact ⟨names[j - start], j - start, List.getElem?_eq_getElem (by omega), by omega⟩

theorem fits (h : m.Catalogues route start names) (hlen : start + names.length ≤ 2 ^ 64) :
    m.Fits := by
  intro name r j hj
  obtain ⟨-, i, hi, rfl⟩ := h.index?_eq_some_iff.1 hj
  have := (List.getElem?_eq_some_iff.1 hi).1
  omega

/-- A new name gets the next position. -/
theorem record (h : m.Catalogues route start names) {name : String} (hnew : name ∉ names) :
    (m.record name route (start + names.length)).Catalogues route start (names ++ [name]) where
  listed i n hi := by
    rw [ManagedRoutes.record, KeyMap.get?_insert]
    by_cases hlt : i < names.length
    · rw [List.getElem?_append_left hlt] at hi
      rw [if_neg fun (e : name = n) => hnew (e ▸ List.mem_of_getElem? hi), h.listed i n hi]
    · have hi' := (List.getElem?_eq_some_iff.1 hi).1
      rw [List.length_append, List.length_singleton] at hi'
      obtain rfl : i = names.length := by omega
      rw [List.getElem?_concat_length, Option.some.injEq] at hi
      rw [if_pos hi, h.unlisted name hnew, Option.getD_none]
  unlisted n hn := by
    rw [List.mem_append, List.mem_singleton, not_or] at hn
    rw [ManagedRoutes.record, KeyMap.get?_insert, if_neg (Ne.symm hn.2), h.unlisted n hn.1]

/-- What becomes of a name with one position when a rule is taken out. -/
theorem get?_renumber {name : String} {j : Nat}
    (h : m.entries.get? name = some (KeyMap.empty.insert route j)) (removed : Nat) :
    (m.renumber route removed).entries.get? name =
      some (KeyMap.empty.insert route (if removed < j then j - 1 else j)) := by
  rw [renumber, KeyMap.get?_mapValues, h, Option.map_some, KeyMap.get?_insert_self]
  simp only
  split
  · congr 1
    refine KeyMap.ext fun r => ?_
    rw [KeyMap.get?_insert, KeyMap.get?_insert, KeyMap.get?_insert]
    split <;> rfl
  · rfl

/-- A name with one position is dropped as a whole. -/
theorem drop_eq_erase {name : String} {j : Nat}
    (h : m.entries.get? name = some (KeyMap.empty.insert route j)) :
    m.drop name route = ⟨m.entries.erase name⟩ := by
  have hempty : ((KeyMap.empty.insert route j).erase route).isEmpty := by
    simp [KeyMap.isEmpty, KeyMap.erase, KeyMap.insert, KeyMap.empty, KeyMap.insertIn]
  rw [drop, h]
  simp only [hempty, if_true]

/-- Where a name was before another one was taken out. -/
theorem exists_position {front back : List String} {n : String} {j : Nat} (start : Nat)
    (name : String) (h : (front ++ back)[j]? = some n) : ∃ j' : Nat, (front ++ name :: back)[j']? = some n ∧
      start + j = if start + front.length < start + j' then start + j' - 1 else start + j' := by
  by_cases hlt : j < front.length
  · rw [List.getElem?_append_left hlt] at h
    exact ⟨j, by rw [List.getElem?_append_left hlt, h], by rw [if_neg (by omega)]⟩
  · rw [List.getElem?_append_right (Nat.le_of_not_lt hlt)] at h
    refine ⟨j + 1, ?_, by rw [if_pos (by omega)]; omega⟩
    rw [List.getElem?_append_right (by omega), show j + 1 - front.length = j - front.length + 1 by omega,
      List.getElem?_cons_succ, h]

/-- Without a name the later ones move up. -/
theorem removeEntry {front back : List String} {name : String} {i : Nat}
    (h : m.Catalogues route start (front ++ name :: back))
    (hremove : m.removeEntry name route = .ok (m', i)) :
    i = start + front.length ∧ m'.Catalogues route start (front ++ back) := by
  have hat : (front ++ name :: back)[front.length]? = some name := by simp
  have hname := h.listed front.length name hat
  have hindex : m.index? name route = some (start + front.length) :=
    h.index?_eq_some_iff.2 ⟨rfl, front.length, hat, rfl⟩
  have hnodup := h.nodup
  rw [List.nodup_middle, List.nodup_cons] at hnodup
  have hdrop : m.drop name route = ⟨m.entries.erase name⟩ := drop_eq_erase hname
  rw [ManagedRoutes.removeEntry, hindex] at hremove
  cases hremove
  refine ⟨rfl, fun j n hj => ?_, fun n hn => ?_⟩
  · have hne : n ≠ name := fun e => hnodup.1 (e ▸ List.mem_of_getElem? hj)
    obtain ⟨j', hj', he⟩ := exists_position start name hj
    rw [hdrop, he]
    refine get?_renumber ?_ _
    rw [KeyMap.get?_erase, if_neg hne, h.listed j' n hj']
  · rw [hdrop, renumber, KeyMap.get?_mapValues, KeyMap.get?_erase]
    split
    · rfl
    · next hne =>
      rw [h.unlisted n fun hmem => ?_]
      · rfl
      · rw [List.mem_append, List.mem_cons] at hmem
        rw [List.mem_append, not_or] at hn
        rcases hmem with hmem | rfl | hmem
        · exact hn.1 hmem
        · exact hne rfl
        · exact hn.2 hmem

end Catalogues

end CanaryRouting.ManagedRoutes
