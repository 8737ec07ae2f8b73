import CanaryRouting.Proofs.Serial.Treatment

/-!
# How two operations meet at one route

Two operations use a route, each as `Treats` says, and the first one writes it. Then the second one
finds what the first has left, or the first one finds what the second has left: the writes of the
one do not come between the read and the write of the other (`meets_of_treats`).
-/

namespace CanaryRouting

/-- The event replaces one route by another. -/
structure Event.Replaces (e : Event) (k : RouteKey) (r r' : Route) : Prop where
  /-- The route that was stored. -/
  found : e.before.routes.get? k = some r
  /-- The route that is stored. -/
  left : (Cluster.respond e.request e.before).2.routes.get? k =
    some (r'.withVersion e.before.fresh)

theorem eventsOf_filter (i : Nat) (es : List Event) (p : Event → Bool) :
    eventsOf i (es.filter p) = (eventsOf i es).filter p := by
  rw [eventsOf, eventsOf, List.filter_filter, List.filter_filter]
  exact List.filter_congr fun e _ => Bool.and_comm ..

/-- Of some elements only the second of two that follow each other is kept. -/
theorem filter_around {α : Type} {p : α → Bool} {front back : List α} {a b : α}
    (h : ∀ x ∈ front ++ back, ¬ p x) (ha : ¬ p a) (hb : p b) :
    (front ++ a :: b :: back).filter p = [b] := by
  rw [List.filter_append, List.filter_cons_of_neg ha, List.filter_cons_of_pos hb,
    List.filter_eq_nil_iff.2 fun x hx => h x (List.mem_append_left _ hx),
    List.filter_eq_nil_iff.2 fun x hx => h x (List.mem_append_right _ hx)]
  rfl

/-- The events of two programs, one of which has one event and the other at most one. -/
theorem cases_of_eventsOf {es : List Event} (hes : ∀ e ∈ es, e.caller < 2) {w : Event}
    (h? : Option Event) (hw : eventsOf 0 es = [w]) (hh : eventsOf 1 es = h?.toList) :
    es = w :: h?.toList ∨ ∃ h, h? = some h ∧ es = [h, w] := by
  have hsame : ∀ {i : Nat} {es : List Event}, (∀ e ∈ es, e.caller < 2) → eventsOf (1 - i) es = [] →
      i < 2 → eventsOf i es = es := by
    intro i es hes hnone hi
    refine List.filter_eq_self.2 fun e he => ?_
    have hlt := hes e he
    have hne := List.filter_eq_nil_iff.1 hnone e he
    simp only [decide_eq_true_eq] at hne ⊢
    omega
  cases es with
  | nil => cases hw
  | cons e es =>
    have hrest : ∀ e ∈ es, e.caller < 2 := fun e he => hes e (List.mem_cons_of_mem _ he)
    have hcaller := hes e (List.mem_cons_self ..)
    rcases Nat.lt_succ_iff_lt_or_eq.1 hcaller with hlt | h1
    · have h0 : e.caller = 0 := by omega
      rw [eventsOf, List.filter_cons_of_pos (by simpa using h0)] at hw
      rw [eventsOf, List.filter_cons_of_neg (by simp [h0])] at hh
      obtain ⟨rfl, hnone⟩ := List.cons.inj hw
      refine .inl (congrArg _ ?_)
      exact (@hsame 1 es hrest hnone (by decide)).symm.trans hh
    · rw [eventsOf, List.filter_cons_of_neg (by simp [h1])] at hw
      rw [eventsOf, List.filter_cons_of_pos (by simpa using h1)] at hh
      cases h? with
      | none => cases hh
      | some h =>
        obtain ⟨rfl, hnone⟩ := List.cons.inj hh
        exact .inr ⟨e, rfl, congrArg _ ((@hsame 0 es hrest hnone (by decide)).symm.trans hw)⟩

namespace Treats

variable {c c' : Cluster} {es : List Event} {k : RouteKey} {i : Nat} {route after : Route}

/-- What is read is stored at some time. -/
theorem found {after? : Option Route} (h : Treats k (eventsOf i es) route after?)
    (hes : ∀ e ∈ es, e.Genuine) : ∃ e ∈ es, e.before.routes.get? k = some route := by
  have hmem : ∀ e, e ∈ eventsOf i es → e ∈ es := fun e he => (mem_eventsOf.1 he).1
  generalize eventsOf i es = own at h hmem
  cases h with
  | read =>
    have hread := hmem _ (List.mem_append_right _ (List.mem_cons_self ..))
    exact ⟨_, hread, (hes _ hread).read.2.1⟩
  | write =>
    have hread := hmem _ (List.mem_append_right _ (List.mem_cons_self ..))
    exact ⟨_, hread, (hes _ hread).read.2.1⟩

/-- A caller that only reads the route does not write it. -/
theorem unwritten (h : Treats k (eventsOf i es) route none) :
    eventsOf i (es.filter (Event.writes k)) = [] := by
  rw [eventsOf_filter]
  generalize eventsOf i es = own at h
  cases h with
  | @read es₁ es₂ j _ found hothers =>
    refine List.filter_eq_nil_iff.2 fun e he => ?_
    rcases List.mem_append.1 he with he | he
    · exact hothers e (List.mem_append_left _ he)
    rcases List.mem_cons.1 he with rfl | he
    · exact Bool.false_ne_true
    · exact hothers e (List.mem_append_right _ he)

/-- The one event of a caller that writes the route replaces the route that it has read. -/
theorem replaces (h : Treats k (eventsOf i es) route (some after)) (hhistory : c.History es c')
    (hes : ∀ e ∈ es, e.Genuine) :
    ∃ e, eventsOf i (es.filter (Event.writes k)) = [e] ∧ e.Replaces k route after := by
  rw [eventsOf_filter]
  generalize hown : eventsOf i es = own at h
  cases h with
  | @write es₁ es₂ j j' _ _ stored found before hothers hat hversion =>
    refine ⟨⟨j', .updateRoute k.space after, .ok stored, before⟩, ?_, ?_⟩
    · exact filter_around hothers Bool.false_ne_true ((Event.writes_updateRoute hat).2 rfl)
    · obtain ⟨front, back, rfl, -, hback⟩ := eventsOf_split hown
      obtain ⟨between, later, rfl, -, -⟩ := eventsOf_split (hback.trans (List.nil_append _).symm)
      have hread := hes _ (List.mem_append_right _ (List.mem_cons_self ..))
      obtain ⟨hfound, hleft⟩ := hhistory.replaced hread.wellFormed hat hversion
      refine ⟨hfound, ?_⟩
      simp only [hleft, Cluster.get?_putRoute_self]

end Treats

/-- The callers that write a route, in the order in which they do. -/
def writersOf (k : RouteKey) (es : List Event) : List Nat := (es.filter (Event.writes k)).map Event.caller

/-- How two callers meet at a route. The first one replaces `r` by `z`; the second one reads `s`, and
replaces it if `after?` says by what. -/
inductive Meets (k : RouteKey) (c c' : Cluster) (es : List Event) (r z s : Route)
    (after? : Option Route) : Prop where
  /-- The second one does not write the route; it reads it before or after it is written. -/
  | apart : writersOf k es = [0] → after? = none → c.routes.get? k = some r →
    (s = r ∨ ∃ v, s = z.withVersion v) → c'.Holds k z → Meets k c c' es r z s after?
  /-- The first one is the first to write the route. -/
  | before {after : Route} {v : Option String} : writersOf k es = [0, 1] → after? = some after →
    c.routes.get? k = some r → s = z.withVersion v → c'.Holds k after → Meets k c c' es r z s after?
  /-- The second one is the first to write the route. -/
  | behind {after : Route} {v : Option String} : writersOf k es = [1, 0] → after? = some after →
    c.routes.get? k = some s → r = after.withVersion v → c'.Holds k z → Meets k c c' es r z s after?

section

variable {c c' : Cluster} {es : List Event} {k : RouteKey} {r z s : Route} {after? : Option Route}

theorem Rewritten.of_replaces {x y : Option Route} {w : Event} {rest : List Event}
    (h : Rewritten k x (w :: rest) y) (hw : w.Replaces k r z) :
    x = some r ∧ Rewritten k (some (z.withVersion w.before.fresh)) rest y := by
  obtain ⟨hx, hrest⟩ := rewritten_cons_iff.1 h
  rw [hw.left] at hrest
  exact ⟨hx.trans hw.found, hrest⟩

/-- What is left when nothing is written any more. -/
theorem Rewritten.holds {v : Option String} (h : Rewritten k (some (z.withVersion v)) []
    (c.routes.get? k)) : c.Holds k z :=
  ⟨_, (rewritten_nil_iff.1 h).symm, rfl⟩

/-- The caller of the only event of a program. -/
theorem caller_of_eventsOf {i : Nat} {w : Event} (h : eventsOf i es = [w]) : w.caller = i :=
  (mem_eventsOf.1 (h ▸ List.mem_cons_self ..)).2

/-- A caller that is the only one to write a route replaces what was there by what is left. -/
theorem Treats.alone (h : Treats k (eventsOf 0 es) r (some z)) (hhistory : c.History es c')
    (hes : ∀ e ∈ es, e.Genuine) (hcallers : ∀ e ∈ es, e.caller < 2)
    (hother : eventsOf 1 (es.filter (Event.writes k)) = []) :
    ∃ w : Event, es.filter (Event.writes k) = [w] ∧ w.caller = 0 ∧ w.Replaces k r z ∧
      c.routes.get? k = some r ∧ c'.Holds k z := by
  obtain ⟨w, hw, hreplaces⟩ := h.replaces hhistory hes
  have honly : es.filter (Event.writes k) = [w] :=
    (cases_of_eventsOf (fun e he => hcallers e (List.mem_filter.1 he).1) none hw hother).resolve_right
      fun ⟨_, h, _⟩ => nomatch h
  have hrewritten := hhistory.rewritten k
  rw [honly] at hrewritten
  obtain ⟨hr, hlast⟩ := hrewritten.of_replaces hreplaces
  exact ⟨w, honly, caller_of_eventsOf hw, hreplaces, hr, hlast.holds⟩

/-- Two callers, of which one writes the route and the other may do so, meet in one of three
ways. -/
theorem meets_of_treats (hhistory : c.History es c') (hes : ∀ e ∈ es, e.Genuine)
    (hcallers : ∀ e ∈ es, e.caller < 2) (hfirst : Treats k (eventsOf 0 es) r (some z))
    (hsecond : Treats k (eventsOf 1 es) s after?) : Meets k c c' es r z s after? := by
  cases after? with
  | none =>
    obtain ⟨w, honly, hw, hreplaces, hr, hholds⟩ :=
      hfirst.alone hhistory hes hcallers hsecond.unwritten
    refine .apart (by rw [writersOf, honly, List.map_singleton, hw]) rfl hr ?_ hholds
    -- the second one reads the route before or after the only write
    obtain ⟨e, he, hs⟩ := hsecond.found hes
    obtain ⟨es₁, es₂, rfl⟩ := List.append_of_mem he
    have hread := hhistory.of_middle.1.rewritten k
    rw [List.filter_append] at honly
    rcases List.append_eq_cons_iff.1 honly with ⟨hnone, -⟩ | ⟨rest, hsome, hrest⟩
    · rw [hnone, rewritten_nil_iff, hr, hs] at hread
      exact .inl (Option.some.inj hread).symm
    · obtain ⟨rfl, -⟩ := List.append_eq_nil_iff.1 hrest.symm
      rw [hsome] at hread
      have hlast := rewritten_nil_iff.1 (hread.of_replaces hreplaces).2
      exact .inr ⟨_, (Option.some.inj (hlast.trans hs)).symm⟩
  | some after =>
    obtain ⟨w, hw, hreplaces⟩ := hfirst.replaces hhistory hes
    obtain ⟨h, hh, hreplaces'⟩ := hsecond.replaces hhistory hes
    have hrewritten := hhistory.rewritten k
    have hlt : ∀ e ∈ es.filter (Event.writes k), e.caller < 2 := fun e he =>
      hcallers e (List.mem_filter.1 he).1
    have hw0 := caller_of_eventsOf hw
    have hh1 := caller_of_eventsOf hh
    rcases cases_of_eventsOf hlt (some h) hw hh with hboth | ⟨_, e, hboth⟩
    · have hwriters : writersOf k es = [0, 1] := by
        rw [writersOf, hboth, ← hw0, ← hh1]
        rfl
      rw [hboth] at hrewritten
      obtain ⟨hr, hlater⟩ := hrewritten.of_replaces hreplaces
      obtain ⟨hs, hlast⟩ := hlater.of_replaces hreplaces'
      exact .before hwriters rfl hr (Option.some.inj hs).symm hlast.holds
    · cases e
      have hwriters : writersOf k es = [1, 0] := by
        rw [writersOf, hboth, ← hw0, ← hh1]
        rfl
      rw [hboth] at hrewritten
      obtain ⟨hs, hlater⟩ := hrewritten.of_replaces hreplaces'
      obtain ⟨hr, hlast⟩ := hlater.of_replaces hreplaces
      exact .behind hwriters rfl hs (Option.some.inj hr).symm hlast.holds

end

end CanaryRouting
