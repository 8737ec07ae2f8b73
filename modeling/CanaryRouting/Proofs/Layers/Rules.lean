import CanaryRouting.Proofs.Layers.Catalogue
import CanaryRouting.Proofs.Shaping.Commuting

/-!
# Rules in two layers

The rules of header routes stand behind the other rules of a route. They are made from the other rules
alone (`headerRule?_append`), weights pass them over (`distribute_append`), and removing header
routes leaves the other rules in place (`removal_append`).
-/

namespace CanaryRouting

open Router

/-- A header route: its name, and the header predicates that requests have to meet. -/
structure Injection where
  /-- The name. -/
  name : String
  /-- The header predicates. -/
  headers : List HeaderPredicate

/-- The rule is the one that is made for a header route from these rules. -/
def Injection.Makes (canary stable : String) (base : List Rule) (x : Injection × Rule) : Prop :=
  headerRule? x.1.headers (base.map (Rule.blueprint canary stable)) = some x.2

section

variable {canary stable : String} {desired : Int} {destinations : List WeightDestination}
  {base : List Rule} {live : List (Injection × Rule)} {kind : RouteKind}

/-! ### The rule of a header route -/

/-- The rule of a header route does not reference the stable service. -/
theorem refTo?_stable_of_headerRule (hne : canary ≠ stable) {headers : List HeaderPredicate}
    {rule : Rule}
    (h : headerRule? headers (base.map (Rule.blueprint canary stable)) = some rule) :
    refTo? stable rule.refs = none := by
  obtain ⟨b, hrefs, rfl, -⟩ := backendRefs_of_headerRule h
  rw [Rule.refs, hrefs, Option.getD_some, refTo?, List.find?_singleton, if_neg (by simpa using hne),
    Option.map_none]

/-- The rules of header routes do not count when another is made. -/
theorem headerRule?_append (hne : canary ≠ stable)
    (hlive : ∀ x ∈ live, Injection.Makes canary stable base x) (headers : List HeaderPredicate) :
    headerRule? headers ((base ++ live.map Prod.snd).map (Rule.blueprint canary stable)) =
      headerRule? headers (base.map (Rule.blueprint canary stable)) := by
  have hnone : (((live.map Prod.snd).map (Rule.blueprint canary stable)).find?
      fun b => b.2.1.isSome && b.2.2.isSome) = none := by
    rw [List.find?_eq_none]
    intro b hb
    obtain ⟨rule, hrule, rfl⟩ := List.mem_map.1 hb
    obtain ⟨x, hx, rfl⟩ := List.mem_map.1 hrule
    simp [Rule.blueprint, refTo?_stable_of_headerRule hne (hlive x hx)]
  rw [headerRule?, List.map_append, List.find?_append, hnone, Option.or_none, headerRule?]

/-- If there is such a rule, both services are referenced by the other rules. -/
theorem anyReferences_of_append {service : String} (hservice : service = canary ∨ service = stable)
    (hlive : ∀ x ∈ live, Injection.Makes canary stable base x)
    (h : anyReferences (base ++ live.map Prod.snd) service) : anyReferences base service := by
  cases live with
  | nil => simpa using h
  | cons x live =>
    obtain ⟨hcanary, hstable⟩ := references_of_headerRule (hlive x (List.mem_cons_self ..))
    rcases hservice with rfl | rfl
    · exact hcanary
    · exact hstable

/-! ### Weights -/

/-- Marks at the positions of the rules of header routes. -/
theorem marked_append_injected {skip : List Nat} {injected : List Rule}
    (hskip : ∀ i, i ∈ skip ↔ base.length ≤ i ∧ i < base.length + injected.length) :
    marked skip (base ++ injected) = marked [] base ++ injected.map fun r => (r, true) := by
  have hlength : (marked [] base).length = base.length := List.length_mapIdx
  ext1 i
  rw [getElem?_marked]
  by_cases hi : i < base.length
  · rw [List.getElem?_append_left hi, List.getElem?_append_left (hlength.symm ▸ hi), getElem?_marked,
      decide_eq_false fun hmem => absurd ((hskip i).1 hmem).1 (Nat.not_le.2 hi)]
    rfl
  · rw [List.getElem?_append_right (Nat.le_of_not_lt hi),
      List.getElem?_append_right (hlength.symm ▸ Nat.le_of_not_lt hi), hlength, List.getElem?_map]
    cases hr : injected[i - base.length]? with
    | none => rfl
    | some r =>
      have hlt := (List.getElem?_eq_some_iff.1 hr).1
      rw [Option.map_some, Option.map_some, decide_eq_true ((hskip i).2 (by omega))]

/-- Weights pass over the rules of header routes, and leave them as they are. -/
theorem weighRules_append_injected (hne : canary ≠ stable)
    (hlive : ∀ x ∈ live, Injection.Makes canary stable base x) (es : List (Rule × Bool)) :
    weighRules canary stable desired destinations
        (es ++ (live.map Prod.snd).map fun r => (r, true)) =
      (weighRules canary stable desired destinations es).map (· ++ live.map Prod.snd) := by
  induction live generalizing es with
  | nil => simp
  | cons x live ih =>
    have hx : weighRule canary stable desired destinations true false x.2 = x.2 :=
      weighRule_headerRule hne (hlive x (List.mem_cons_self ..))
    have hfirst : weighRules canary stable desired destinations (es ++ [(x.2, true)]) = _ :=
      weighRules_append es x.2
    rw [List.map_cons, List.map_cons, List.append_cons, ih fun y hy => hlive y (List.mem_cons_of_mem _ hy),
      hfirst, hx, Option.map_map]
    congr 1
    funext rules
    simp

/-- The weights of a request change the other rules as if there were no header routes. -/
theorem distribute_append (hne : canary ≠ stable) {rules' : List Rule} {skip : List Nat}
    (hlive : ∀ x ∈ live, Injection.Makes canary stable base x)
    (hskip : ∀ i, i ∈ skip ↔ base.length ≤ i ∧ i < base.length + live.length)
    (h : distribute kind (base ++ live.map Prod.snd) canary stable desired destinations skip =
      .ok rules') :
    ∃ base', distribute kind base canary stable desired destinations [] = .ok base' ∧
      rules' = base' ++ live.map Prod.snd := by
  obtain ⟨hcanary, hstable, hweigh⟩ := distribute_eq_ok_iff.1 h
  rw [marked_append_injected (by simpa using hskip), weighRules_append_injected hne hlive,
    Option.map_eq_some_iff] at hweigh
  obtain ⟨base', hbase', rfl⟩ := hweigh
  exact ⟨base', distribute_eq_ok_iff.2 ⟨anyReferences_of_append (.inl rfl) hlive hcanary,
    anyReferences_of_append (.inr rfl) hlive hstable, hbase'⟩, rfl⟩

/-- A request for weights does not change what header routes are made from. -/
theorem map_blueprint_distribute {base' : List Rule} {skip : List Nat}
    (hapart : ∀ d ∈ destinations, d.service ≠ canary ∧ d.service ≠ stable)
    (h : distribute kind base canary stable desired destinations skip = .ok base') :
    base'.map (Rule.blueprint canary stable) = base.map (Rule.blueprint canary stable) := by
  obtain ⟨-, -, hweigh⟩ := distribute_eq_ok_iff.1 h
  rw [map_of_weighRules (blueprint_weighRule hapart) hweigh, map_marked]

end

/-! ### Removals -/

/-- Removing one name. -/
theorem remove_append {route name : String} {base : List Rule} {live : List (Injection × Rule)}
    {r r' : Removal} (hrules : r.rules = base ++ live.map Prod.snd)
    (h : r.registry.Catalogues route base.length (live.map fun x => x.1.name))
    (hr : Removal.remove route r name = .ok r') :
    r'.rules = base ++ (live.filter fun x => x.1.name ≠ name).map Prod.snd ∧
      r'.registry.Catalogues route base.length
        ((live.filter fun x => x.1.name ≠ name).map fun x => x.1.name) := by
  rcases Removal.remove_cases hr with ⟨hnot, rfl⟩ | ⟨i, m', hi, -, he, rfl⟩
  · have hall : live.filter (fun x => x.1.name ≠ name) = live := by
      refine List.filter_eq_self.2 fun x hx => ?_
      have : x.1.name ≠ name := fun e => hnot (h.contains_iff.2 (e ▸ List.mem_map.2 ⟨x, hx, rfl⟩))
      simpa using this
    rw [hall]
    exact ⟨hrules, h⟩
  · -- The name is that of one header route, which stands between others.
    obtain ⟨-, j, hj, -⟩ := h.index?_eq_some_iff.1 hi
    rw [List.getElem?_map, Option.map_eq_some_iff] at hj
    obtain ⟨x, hx, rfl⟩ := hj
    obtain ⟨front, back, rfl⟩ := List.append_of_mem (List.mem_of_getElem? hx)
    have hnodup := h.nodup
    simp only [List.map_append, List.map_cons] at h hnodup
    rw [List.nodup_middle, List.nodup_cons, ← List.map_append] at hnodup
    obtain ⟨rfl, hm'⟩ := h.removeEntry he
    have hothers : (front ++ x :: back).filter (fun y => y.1.name ≠ x.1.name) = front ++ back := by
      have hne : ∀ y ∈ front ++ back, y.1.name ≠ x.1.name := fun y hy e =>
        hnodup.1 (e ▸ List.mem_map.2 ⟨y, hy, rfl⟩)
      rw [List.filter_append, List.filter_cons_of_neg (by simp), ← List.filter_append]
      exact List.filter_eq_self.2 fun y hy => by simpa using hne y hy
    rw [hothers, hrules]
    rw [← List.map_append] at hm'
    refine ⟨?_, hm'⟩
    simp only [List.map_append, List.map_cons, List.length_map]
    rw [List.eraseIdx_append_of_length_le (Nat.le_add_right ..), Nat.add_sub_cancel_left,
      List.eraseIdx_append_of_length_le (by simp), List.length_map, Nat.sub_self,
      List.eraseIdx_cons_zero]

/-- Removing names leaves the other rules in place, and the header routes of other names in their
order. -/
theorem removal_append {route : String} {names : List String} {base : List Rule}
    {live : List (Injection × Rule)} {r r' : Removal}
    (hrules : r.rules = base ++ live.map Prod.snd)
    (h : r.registry.Catalogues route base.length (live.map fun x => x.1.name))
    (hfold : names.foldlM (Removal.remove route) r = .ok r') :
    r'.rules = base ++ (live.filter fun x => x.1.name ∉ names).map Prod.snd ∧
      r'.registry.Catalogues route base.length
        ((live.filter fun x => x.1.name ∉ names).map fun x => x.1.name) := by
  induction names generalizing r live with
  | nil =>
    cases hfold
    simpa using ⟨hrules, h⟩
  | cons name names ih =>
    obtain ⟨r₁, hr, hrest⟩ := Except.foldlM_cons_eq_ok.1 hfold
    obtain ⟨hrules₁, h₁⟩ := remove_append hrules h hr
    have hfilter : (live.filter fun x => x.1.name ≠ name).filter (fun x => x.1.name ∉ names) =
        live.filter fun x => x.1.name ∉ name :: names := by
      rw [List.filter_filter]
      refine List.filter_congr fun x _ => ?_
      simp [Bool.and_comm]
    rw [← hfilter]
    exact ih hrules₁ h₁ hrest

end CanaryRouting
