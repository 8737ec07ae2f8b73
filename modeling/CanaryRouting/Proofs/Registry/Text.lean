import CanaryRouting.Proofs.Json.Shown
import CanaryRouting.Proofs.Registry.Positions
import CanaryRouting.Shaping.RegistryText

/-!
# The registry text gives back the registry

What `ManagedRoutes.store` writes under a key of a document, `ManagedRoutes.load` reads from there
(`load_store`), provided that every position fits into 64 bits. Positions that do not fit make the
text unreadable, so whatever is read after storing is what was stored (`eq_of_load_store`). The
texts under the other keys stay as they are (`load_store_of_ne`), and so does everything else in
the document (`recovered_of_store`). The names may be any texts: what a JSON text has to escape is
escaped when it is written and read back as it was.

Positions that are read fit (`fits_of_load`), so reading managed routes and storing them again
changes the text at most.
-/

namespace CanaryRouting.ManagedRoutes

open Json

/-- Every recorded position fits into 64 bits. -/
def Fits (m : ManagedRoutes) : Prop := ∀ managed route i, m.index? managed route = some i → i < 2 ^ 64

/-- What the text of the positions of one managed route shows. -/
def routesWire (routes : KeyMap String Nat) : Wire :=
  .object (routes.entries.map fun r => (some r.1, .number (natural r.2)))

/-- What the text of a registry shows. -/
def wire (m : ManagedRoutes) : Wire :=
  .object (m.entries.entries.map fun e => (some e.1, routesWire e.2))

theorem shows_toJson (m : ManagedRoutes) : Shows m.toJson m.wire := by
  have hroutes : ∀ routes : KeyMap String Nat,
      Shows (.object (routes.entries.map fun r => (r.1, .ofInt r.2))) (routesWire routes) :=
    fun _ => Shows.object (f := fun i : Nat => .ofInt i) (w := fun i => .number (natural i))
      fun r _ => Shows.ofInt r.2
  exact Shows.object (f := fun routes : KeyMap String Nat =>
    .object (routes.entries.map fun r => (r.1, .ofInt r.2))) (w := routesWire)
    fun e _ => hroutes e.2

/-- A registry is not nested deep. -/
theorem limitDepth_wire (m : ManagedRoutes) : m.wire.limitDepth Wire.maxDepth = m.wire := by
  have hnumbers : ∀ (depth : Nat) (rs : List (String × Nat)),
      Wire.limitMembers (depth + 1) (rs.map fun r => (some r.1, .number (natural r.2))) =
        rs.map fun r => (some r.1, .number (natural r.2)) := by
    intro depth rs
    induction rs with
    | nil => rfl
    | cons r rs ih => rw [List.map_cons, Wire.limitMembers, ih]; rfl
  have hroutes : ∀ (depth : Nat) (es : List (String × KeyMap String Nat)),
      Wire.limitMembers (depth + 2) (es.map fun e => (some e.1, routesWire e.2)) =
        es.map fun e => (some e.1, routesWire e.2) := by
    intro depth es
    induction es with
    | nil => rfl
    | cons e es ih =>
      rw [List.map_cons, Wire.limitMembers, ih, routesWire, Wire.limitDepth, hnumbers]
  simp only [wire, Wire.maxDepth, Wire.limitDepth, hroutes]

theorem ofText_toJson (m : ManagedRoutes) :
    decode.ofText m.toJson.compress = decode m.wire := by
  simp only [Decoder.ofText, (shows_toJson m).ofText, limitDepth_wire]

/-! ### Decoding -/

theorem position_natural {i : Nat} (h : i < 2 ^ 64) :
    Decoder.position (.number (natural i)) = .ok i := by
  rw [natural_of_lt h]
  simp only [Decoder.position, Decoder.map, Decoder.whole]
  rw [if_pos (by omega)]
  rfl

theorem eq_of_position_natural {i j : Nat} (h : Decoder.position (.number (natural i)) = .ok j) :
    j = i := by
  by_cases hi : i < 2 ^ 64
  · rw [position_natural hi] at h
    cases h
    rfl
  · exfalso
    have hne := natural_of_le (Nat.not_lt.1 hi)
    unfold Decoder.position Decoder.map Decoder.whole at h
    split at h
    · next n hn => exact hne n (Wire.number.inj hn)
    · cases h

theorem keyed_routesWire {routes : KeyMap String Nat} (h : ∀ e ∈ routes.entries, e.2 < 2 ^ 64) :
    Decoder.keyed Decoder.position (routesWire routes) = .ok routes :=
  (Decoder.keyedMembers_eq_ok (d := Decoder.position) (w := fun i : Nat => .number (natural i))
    KeyMap.empty fun e he => position_natural (h e he)).trans
    (congrArg Except.ok (KeyMap.ofList_entries routes))

theorem eq_of_keyed_routesWire {routes routes' : KeyMap String Nat}
    (h : Decoder.keyed Decoder.position (routesWire routes) = .ok routes') : routes' = routes :=
  (Decoder.eq_of_keyedMembers_eq_ok (d := Decoder.position)
    (w := fun i : Nat => .number (natural i)) (fun _ _ _ => eq_of_position_natural) h).trans
    (KeyMap.ofList_entries routes)

theorem Fits.lt {m : ManagedRoutes} (h : m.Fits) {e : String × KeyMap String Nat}
    (he : e ∈ m.entries.entries) {r : String × Nat} (hr : r ∈ e.2.entries) : r.2 < 2 ^ 64 := by
  refine h e.1 r.1 r.2 ?_
  rw [index?, KeyMap.mem_entries.1 he]
  exact KeyMap.mem_entries.1 hr

theorem fits_iff {m : ManagedRoutes} :
    m.Fits ↔ ∀ e ∈ m.entries.entries, ∀ r ∈ e.2.entries, r.2 < 2 ^ 64 := by
  refine ⟨fun h e he r hr => h.lt he hr, fun h managed route i hi => ?_⟩
  rw [index?, Option.bind_eq_some_iff] at hi
  obtain ⟨routes, hroutes, hi⟩ := hi
  exact h (managed, routes) (KeyMap.mem_entries.2 hroutes) (route, i) (KeyMap.mem_entries.2 hi)

theorem decode_wire {m : ManagedRoutes} (h : m.Fits) : decode m.wire = .ok m := by
  have hkeyed : Decoder.keyed (Decoder.keyed Decoder.position) m.wire = .ok m.entries :=
    (Decoder.keyedMembers_eq_ok (w := routesWire) KeyMap.empty fun e he =>
      keyed_routesWire fun r hr => h.lt he hr).trans
      (congrArg Except.ok (KeyMap.ofList_entries m.entries))
  rw [decode, Decoder.map, hkeyed]
  rfl

theorem eq_of_decode_wire {m m' : ManagedRoutes} (h : decode m.wire = .ok m') : m' = m := by
  obtain ⟨entries, hk, rfl⟩ := Except.map_eq_ok.1 h
  have hentries : entries = m.entries :=
    (Decoder.eq_of_keyedMembers_eq_ok (w := routesWire)
      (fun _ _ _ => eq_of_keyed_routesWire) hk).trans
      (KeyMap.ofList_entries m.entries)
  rw [hentries]

/-! ### Loading what was stored -/

theorem load_store_eq_decode (m : ManagedRoutes) (d : Document) (key : String) :
    load (m.store d key) key = (decode m.wire).mapError fun _ => .documentDecode key := by
  have hblank : Text.allBlank m.toJson.compress = false := by
    simp [Text.allBlank, compress, toJson, chars, Text.isBlank, Text.blankRanges]
  simp only [load, store, Document.text?_setText, if_true, Option.getD_some, hblank,
    Bool.false_eq_true, if_false, ofText_toJson]

/-- What is stored is loaded again. -/
theorem load_store {m : ManagedRoutes} (h : m.Fits) (d : Document) (key : String) :
    load (m.store d key) key = .ok m := by
  rw [load_store_eq_decode, decode_wire h]
  rfl

/-- What is loaded after storing is what was stored. -/
theorem eq_of_load_store {m m' : ManagedRoutes} {d : Document} {key : String}
    (h : load (m.store d key) key = .ok m') : m' = m := by
  rw [load_store_eq_decode] at h
  exact eq_of_decode_wire (Except.mapError_eq_ok.1 h)

/-- Storing does not change what is loaded from another key. -/
theorem load_store_of_ne {key key' : String} (h : key' ≠ key) (m : ManagedRoutes) (d : Document) :
    load (m.store d key) key' = load d key' := by
  simp only [load, store, Document.text?_setText, if_neg (Ne.symm h)]

/-- Loading looks at the text under the key only. -/
theorem load_congr {d d' : Document} {key : String} (h : d.text? key = d'.text? key) :
    load d key = load d' key := by
  simp only [load, h]

/-! ### The whole document -/

/-- **Storing and loading are inverse, and storing stays in its key.** Managed routes whose
positions fit are read back as they were stored, whatever the names in them are and whatever the
document held before. Under every other key the text is the one that was there, so what is loaded
from it is the same as before or fails as before, and the rest of the document is the same. -/
theorem recovered_of_store {m : ManagedRoutes} (h : m.Fits) (d : Document) (key : String) :
    (m.store d key).text? key = some m.toJson.compress ∧
      load (m.store d key) key = .ok m ∧
      (∀ key', key' ≠ key → (m.store d key).text? key' = d.text? key' ∧
        load (m.store d key) key' = load d key') ∧
      (m.store d key).metadata = d.metadata ∧ (m.store d key).others = d.others := by
  refine ⟨?_, load_store h d key, fun key' hne => ⟨?_, load_store_of_ne hne m d⟩, rfl, rfl⟩
  · rw [store, Document.text?_setText, if_pos rfl]
  · rw [store, Document.text?_setText, if_neg hne.symm]

/-- Managed routes with a name that has to be escaped, one without characters, the greatest
position that fits, and no position at all. -/
def awkward : ManagedRoutes :=
  ⟨KeyMap.ofList [
    ("", KeyMap.ofList [("\"\\\n\u0001é", 0), ("", 18446744073709551615)]),
    ("\x7b\x7d", KeyMap.empty)]⟩

/-- A document whose text for routes of gRPC cannot be read. -/
def spoiled : Document := { data := some (KeyMap.ofList [(RouteKind.grpc.registryKey, "\x7b")]) }

theorem recovered_of_store_awkward :
    awkward.Fits ∧
      load (awkward.store spoiled RouteKind.http.registryKey) RouteKind.http.registryKey =
        .ok awkward ∧
      load (awkward.store spoiled RouteKind.http.registryKey) RouteKind.grpc.registryKey =
        .error (.documentDecode RouteKind.grpc.registryKey) := by
  have h : awkward.Fits := fits_iff.2 (by decide +kernel)
  have hstored := recovered_of_store h spoiled RouteKind.http.registryKey
  refine ⟨h, hstored.2.1, ?_⟩
  rw [(hstored.2.2.1 RouteKind.grpc.registryKey (by decide)).2]
  decide +kernel

example : awkward.toJson.compress =
    "\x7b\"\":\x7b\"\":18446744073709551615,\"\\\"\\\\\\n\\u0001é\":0\x7d," ++
      "\"\x7b\x7d\":\x7b\x7d\x7d" := by
  decide +kernel

/-! ### Positions that are read -/

theorem lt_of_position {w : Wire} {i : Nat} (h : Decoder.position w = .ok i) : i < 2 ^ 64 := by
  unfold Decoder.position Decoder.map Decoder.whole at h
  split at h
  · next n =>
    split at h
    · next hn =>
      cases h
      omega
    · cases h
  · cases h

theorem fits_of_decode {w : Wire} {m : ManagedRoutes} (h : decode w = .ok m) : m.Fits := by
  obtain ⟨entries, hk, rfl⟩ := Except.map_eq_ok.1 h
  refine fits_iff.2 (Decoder.of_keyed (p := fun routes : KeyMap String Nat =>
    ∀ r ∈ routes.entries, r.2 < 2 ^ 64) (fun w routes hw => ?_) hk)
  exact Decoder.of_keyed (p := (· < 2 ^ 64)) (fun _ _ => lt_of_position) hw

/-- Positions that are loaded fit. -/
theorem fits_of_load {d : Document} {key : String} {m : ManagedRoutes} (h : load d key = .ok m) :
    m.Fits := by
  rw [load] at h
  split at h
  · cases h
    exact fun _ _ _ hi => nomatch hi
  · obtain ⟨w, hw⟩ := Decoder.of_ofText (Except.mapError_eq_ok.1 h)
    exact fits_of_decode hw

/-- Loading managed routes and storing them again changes nothing for who loads them. -/
theorem load_store_load {d : Document} {key : String} {m : ManagedRoutes}
    (h : load d key = .ok m) (key' : String) : load (m.store d key) key' = load d key' := by
  by_cases hkey : key' = key
  · subst hkey
    rw [load_store (fits_of_load h), h]
  · exact load_store_of_ne hkey m d

end CanaryRouting.ManagedRoutes
