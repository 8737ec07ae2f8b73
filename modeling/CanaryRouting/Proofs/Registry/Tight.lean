import CanaryRouting.Proofs.Registry.Text

/-!
# Registries without empty entries

Whether a name is in the registry is decided by the name alone, whichever routes it is recorded for.
In a registry without empty entries (`ManagedRoutes.Tight`) such a name has a position in some route
(`Tight.contains_iff`). Recording and deleting keep it that way.
-/

namespace CanaryRouting.ManagedRoutes

/-- Whether a position is recorded for the managed route and the route. -/
def Records (m : ManagedRoutes) (name route : String) : Prop := ∃ i, m.index? name route = some i

/-- Every managed route with an entry has a position in some route. -/
def Tight (m : ManagedRoutes) : Prop := ∀ name, m.contains name → ∃ route, m.Records name route

theorem not_records_iff {m : ManagedRoutes} {name route : String} :
    ¬ m.Records name route ↔ m.index? name route = none := by
  rw [Records, Option.eq_none_iff_forall_ne_some]
  exact not_exists

theorem not_records_empty (name route : String) : ¬ empty.Records name route :=
  not_records_iff.2 rfl

theorem Records.contains {m : ManagedRoutes} {name route : String} (h : m.Records name route) :
    m.contains name := by
  obtain ⟨i, hi⟩ := h
  rw [index?, Option.bind_eq_some_iff] at hi
  obtain ⟨routes, hroutes, -⟩ := hi
  simp [ManagedRoutes.contains, KeyMap.contains, hroutes]

theorem Tight.contains_iff {m : ManagedRoutes} (h : m.Tight) (name : String) :
    m.contains name ↔ ∃ route, m.Records name route :=
  ⟨h name, fun ⟨_, hr⟩ => hr.contains⟩

theorem tight_empty : empty.Tight := fun _ h => nomatch h

/-! ### Recording and deleting -/

theorem records_record {m : ManagedRoutes} {managed route n r : String} {i : Nat} :
    (m.record managed route i).Records n r ↔ m.Records n r ∨ n = managed ∧ r = route := by
  simp only [Records, index?_record]
  split
  · next h => simp [h]
  · next h => simp [h]

theorem contains_record {m : ManagedRoutes} {managed route n : String} {i : Nat} :
    (m.record managed route i).contains n ↔ n = managed ∨ m.contains n := by
  simp only [contains, record, KeyMap.contains, KeyMap.get?_insert]
  split
  · next h => simp [h]
  · next h => simp [Ne.symm h]

theorem Tight.record {m : ManagedRoutes} (h : m.Tight) (managed route : String) (i : Nat) :
    (m.record managed route i).Tight := by
  intro n hn
  simp only [records_record]
  rcases contains_record.1 hn with rfl | hold
  · exact ⟨route, .inr ⟨rfl, rfl⟩⟩
  · exact (h n hold).imp fun _ => .inl

/-- Deleting an entry takes away the position of its pair only. -/
theorem records_removeEntry {m m' : ManagedRoutes} {managed route n r : String} {i : Nat}
    (h : m.removeEntry managed route = .ok (m', i)) :
    m'.Records n r ↔ m.Records n r ∧ ¬ (n = managed ∧ r = route) := by
  unfold removeEntry at h
  split at h
  · cases h
    simp only [Records, index?_renumber, index?_drop]
    by_cases hpair : n = managed ∧ r = route
    · simp [hpair]
    · simp only [hpair, not_false_eq_true, and_true]
      split <;> simp
  · cases h

theorem contains_renumber (m : ManagedRoutes) (route : String) (removed : Nat) (n : String) :
    (m.renumber route removed).contains n = m.contains n := by
  simp [contains, KeyMap.contains, renumber]

theorem contains_removeEntry_of_ne {m m' : ManagedRoutes} {managed route n : String} {i : Nat}
    (h : m.removeEntry managed route = .ok (m', i)) (hn : n ≠ managed) :
    m'.contains n = m.contains n := by
  unfold removeEntry at h
  split at h
  · cases h
    rw [contains_renumber, drop]
    split
    · rfl
    · split
      · simp [contains, KeyMap.contains, KeyMap.get?_erase, hn]
      · simp [contains, KeyMap.contains, KeyMap.get?_insert, Ne.symm hn]
  · cases h

/-- The managed route whose entry is deleted stays as long as it has another one. -/
theorem contains_removeEntry_self {m m' : ManagedRoutes} {managed route : String} {i : Nat}
    (h : m.removeEntry managed route = .ok (m', i)) :
    m'.contains managed ↔ ∃ r, r ≠ route ∧ m.Records managed r := by
  unfold removeEntry at h
  split at h
  · next j hj =>
    cases h
    obtain ⟨routes, hroutes, -⟩ := Option.bind_eq_some_iff.1 hj
    have hleft : (∃ r, r ≠ route ∧ m.Records managed r) ↔ ¬ (routes.erase route).isEmpty := by
      rw [KeyMap.isEmpty_iff, not_forall]
      refine exists_congr fun r => ?_
      rw [KeyMap.get?_erase, Records, index?, hroutes, Option.bind_some, ← Option.isSome_iff_exists]
      by_cases hr : r = route
      · simp [hr]
      · simp [hr, Option.isSome_iff_ne_none]
    rw [hleft, contains_renumber, drop]
    simp only [hroutes]
    by_cases hempty : (routes.erase route).isEmpty
    · simp [hempty, contains, KeyMap.contains, KeyMap.get?_erase]
    · simp [hempty, contains, KeyMap.contains]
  · cases h

/-- What is left of a managed route after an entry was deleted has a position. -/
theorem Tight.removeEntry {m m' : ManagedRoutes} (h : m.Tight) {managed route : String} {i : Nat}
    (hremove : m.removeEntry managed route = .ok (m', i)) : m'.Tight := by
  intro n hn
  simp only [records_removeEntry hremove]
  by_cases hname : n = managed
  · subst hname
    obtain ⟨r, hne, hr⟩ := (contains_removeEntry_self hremove).1 hn
    exact ⟨r, hr, fun hpair => hne hpair.2⟩
  · rw [contains_removeEntry_of_ne hremove hname] at hn
    obtain ⟨r, hr⟩ := h n hn
    exact ⟨r, hr, fun hpair => hname hpair.1⟩

/-! ### In a document -/

/-- The document has the managed routes under a key: they are read from there, or they have been
written there. -/
def KeptIn (m : ManagedRoutes) (d : Document) (key : String) : Prop :=
  load d key = .ok m ∨ d.text? key = some m.toJson.compress

theorem text?_store_self (m : ManagedRoutes) (d : Document) (key : String) :
    (m.store d key).text? key = some m.toJson.compress := by
  rw [store, Document.text?_setText, if_pos rfl]

theorem keptIn_store (m : ManagedRoutes) (d : Document) (key : String) :
    m.KeptIn (m.store d key) key := .inr (text?_store_self m d key)

theorem KeptIn.of_text?_eq {m : ManagedRoutes} {d d' : Document} {key : String}
    (h : m.KeptIn d key) (htext : d'.text? key = d.text? key) : m.KeptIn d' key :=
  h.imp (load_congr htext).trans htext.trans

theorem KeptIn.store_of_ne {m : ManagedRoutes} {d : Document} {key key' : String}
    (h : m.KeptIn d key') (hne : key' ≠ key) (m' : ManagedRoutes) :
    m.KeptIn (m'.store d key) key' :=
  h.of_text?_eq (by rw [ManagedRoutes.store, Document.text?_setText, if_neg hne.symm])

/-- What is read from the document is what it has. -/
theorem KeptIn.eq_of_load {m m' : ManagedRoutes} {d : Document} {key : String}
    (h : m.KeptIn d key) (hload : load d key = .ok m') : m' = m := by
  rcases h with hread | htext
  · exact Except.ok.inj (hload.symm.trans hread)
  · have hstored : load (m.store d key) key = .ok m' :=
      (load_congr ((text?_store_self m d key).trans htext.symm)).trans hload
    exact eq_of_load_store hstored

theorem KeptIn.load {m : ManagedRoutes} {d : Document} {key : String} (h : m.KeptIn d key)
    (hfits : m.Fits) : load d key = .ok m := by
  rcases h with hread | htext
  · exact hread
  · rw [← load_store hfits d key]
    exact load_congr (htext.trans (text?_store_self m d key).symm)

end CanaryRouting.ManagedRoutes
