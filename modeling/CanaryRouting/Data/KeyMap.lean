/-!
# Key-ordered maps

A `KeyMap` is the list of its entries in strictly increasing key order. The order is part of
the type, so two maps with the same look-ups are the same map (`KeyMap.ext`), and every listing
of a map comes in key order. Each operation is described by what it does to look-ups:
`get?_insert`, `get?_erase`, `get?_mapValues`.
-/

namespace CanaryRouting

universe u v w

/-- A strict total order to sort the keys of a map by. -/
class KeyOrder (κ : Type u) extends LT κ where
  /-- Equality of keys can be decided. -/
  decideEq : DecidableEq κ
  /-- The order can be decided. -/
  decideLt : DecidableLT κ
  /-- No key is below itself. -/
  irrefl : ∀ a : κ, ¬ a < a
  /-- The order is transitive. -/
  trans : ∀ {a b c : κ}, a < b → b < c → a < c
  /-- Two different keys are comparable. -/
  connected : ∀ a b : κ, a < b ∨ a = b ∨ b < a

instance KeyOrder.instDecidableLT {κ : Type u} [KeyOrder κ] : DecidableLT κ :=
  KeyOrder.decideLt

instance (priority := low) KeyOrder.instDecidableEq {κ : Type u} [KeyOrder κ] : DecidableEq κ :=
  KeyOrder.decideEq

/-- Strings are ordered character by character, which is also the order of their UTF-8 bytes. -/
instance : KeyOrder String where
  decideEq := inferInstance
  decideLt := inferInstance
  irrefl := String.lt_irrefl
  trans := String.lt_trans
  connected := Std.lt_trichotomy

/-- Lists of strings are ordered lexicographically. -/
instance : KeyOrder (List String) where
  decideEq := inferInstance
  decideLt := inferInstance
  irrefl := List.lt_irrefl
  trans := List.lt_trans
  connected := Std.lt_trichotomy

namespace KeyOrder

variable {κ : Type u} [KeyOrder κ]

theorem ne_of_lt {a b : κ} (h : a < b) : a ≠ b := fun e => irrefl a (e ▸ h)

end KeyOrder

/-- A finite map, as its entries in strictly increasing key order. -/
structure KeyMap (κ : Type u) (α : Type v) [KeyOrder κ] where
  /-- The entries, in key order. -/
  entries : List (κ × α)
  /-- The keys increase strictly. -/
  ordered : entries.Pairwise (fun a b => a.1 < b.1) := by exact .nil

namespace KeyMap

variable {κ : Type u} {α : Type v} {β : Type w} [KeyOrder κ]

/-! ### Entry lists -/

/-- The value stored under `k` in a list of entries. -/
def lookupIn (k : κ) : List (κ × α) → Option α
  | [] => none
  | e :: es => if e.1 = k then some e.2 else lookupIn k es

/-- Puts an entry at its place in an ordered list of entries, over an entry of the same key. -/
def insertIn (k : κ) (x : α) : List (κ × α) → List (κ × α)
  | [] => [(k, x)]
  | e :: es =>
    if k < e.1 then (k, x) :: e :: es
    else if e.1 < k then e :: insertIn k x es
    else (k, x) :: es

theorem mem_insertIn {k : κ} {x : α} {e : κ × α} {es : List (κ × α)} :
    e ∈ insertIn k x es → e = (k, x) ∨ e ∈ es := by
  induction es with
  | nil => simp [insertIn]
  | cons d ds ih => rw [insertIn]; grind

theorem ordered_insertIn (k : κ) (x : α) {es : List (κ × α)}
    (h : es.Pairwise (fun a b => a.1 < b.1)) :
    (insertIn k x es).Pairwise (fun a b => a.1 < b.1) := by
  induction es with
  | nil => simp [insertIn]
  | cons d ds ih =>
    rw [List.pairwise_cons] at h
    rw [insertIn]
    split
    · next hk =>
      refine List.pairwise_cons.2 ⟨fun e he => ?_, List.pairwise_cons.2 h⟩
      rcases List.mem_cons.1 he with rfl | he
      · exact hk
      · exact KeyOrder.trans hk (h.1 e he)
    · next hk =>
      split
      · next hd =>
        refine List.pairwise_cons.2 ⟨fun e he => ?_, ih h.2⟩
        rcases mem_insertIn he with rfl | he
        · exact hd
        · exact h.1 e he
      · next hd =>
        have hkd : k = d.1 := (KeyOrder.connected k d.1).elim (absurd · hk) (·.elim id (absurd · hd))
        exact List.pairwise_cons.2 ⟨fun e he => hkd ▸ h.1 e he, h.2⟩

theorem lookupIn_insertIn (k j : κ) (x : α) (es : List (κ × α)) :
    lookupIn j (insertIn k x es) = if k = j then some x else lookupIn j es := by
  induction es with
  | nil => simp [insertIn, lookupIn]
  | cons d ds ih =>
    rw [insertIn]
    split
    · simp [lookupIn]
    · next hk =>
      split
      · next hd =>
        have := KeyOrder.ne_of_lt hd
        simp only [lookupIn, ih]
        grind
      · next hd =>
        have hkd : k = d.1 := (KeyOrder.connected k d.1).elim (absurd · hk) (·.elim id (absurd · hd))
        simp only [lookupIn, ← hkd]
        grind

theorem lookupIn_eq_none {k : κ} {es : List (κ × α)} (h : ∀ e ∈ es, e.1 ≠ k) :
    lookupIn k es = none := by
  induction es with
  | nil => rfl
  | cons d ds ih => grind [lookupIn]

theorem lookupIn_filter (j : κ) (p : κ → Bool) (es : List (κ × α)) :
    lookupIn j (es.filter (fun e => p e.1)) = if p j then lookupIn j es else none := by
  induction es with
  | nil => simp [lookupIn]
  | cons d ds ih => grind [lookupIn]

theorem lookupIn_map (j : κ) (f : κ → α → β) (es : List (κ × α)) :
    lookupIn j (es.map (fun e => (e.1, f e.1 e.2))) = (lookupIn j es).map (f j) := by
  induction es with
  | nil => rfl
  | cons d ds ih => grind [lookupIn]

theorem mem_iff_lookupIn {k : κ} {x : α} {es : List (κ × α)}
    (h : es.Pairwise (fun a b => a.1 < b.1)) : (k, x) ∈ es ↔ lookupIn k es = some x := by
  induction es with
  | nil => simp [lookupIn]
  | cons d ds ih =>
    rw [List.pairwise_cons] at h
    rw [List.mem_cons, ih h.2, lookupIn]
    split
    · next hd =>
      have hnone : lookupIn k ds = none :=
        lookupIn_eq_none fun e he => hd ▸ (KeyOrder.ne_of_lt (h.1 e he)).symm
      subst hd
      simp [hnone, Prod.ext_iff, eq_comm]
    · next hd => grind

/-! ### Maps -/

/-- The map without entries. -/
def empty : KeyMap κ α := ⟨[], .nil⟩

instance : EmptyCollection (KeyMap κ α) := ⟨empty⟩

instance : Inhabited (KeyMap κ α) := ⟨empty⟩

instance [DecidableEq α] : DecidableEq (KeyMap κ α) := fun m n =>
  if h : m.entries = n.entries then isTrue (by cases m; cases n; cases h; rfl)
  else isFalse (fun e => h (e ▸ rfl))

/-- The value stored under `k`. -/
def get? (m : KeyMap κ α) (k : κ) : Option α := lookupIn k m.entries

/-- Whether `k` has an entry. -/
def contains (m : KeyMap κ α) (k : κ) : Bool := (m.get? k).isSome

/-- Stores `x` under `k`, over any earlier value. -/
def insert (m : KeyMap κ α) (k : κ) (x : α) : KeyMap κ α :=
  ⟨insertIn k x m.entries, ordered_insertIn k x m.ordered⟩

/-- Drops the entry of `k`, if there is one. -/
def erase (m : KeyMap κ α) (k : κ) : KeyMap κ α :=
  ⟨m.entries.filter (fun e => decide (e.1 ≠ k)), m.ordered.filter _⟩

/-- Whether the map has no entry. -/
def isEmpty (m : KeyMap κ α) : Bool := m.entries.isEmpty

/-- The number of entries. -/
def size (m : KeyMap κ α) : Nat := m.entries.length

/-- The keys, in order. -/
def keys (m : KeyMap κ α) : List κ := m.entries.map (·.1)

/-- The values, in the order of their keys. -/
def values (m : KeyMap κ α) : List α := m.entries.map (·.2)

/-- Changes every value, knowing its key. -/
def mapValues (f : κ → α → β) (m : KeyMap κ α) : KeyMap κ β :=
  ⟨m.entries.map (fun e => (e.1, f e.1 e.2)), List.pairwise_map.2 m.ordered⟩

/-- The map of a list of entries; of two entries with one key the later counts. -/
def ofList (es : List (κ × α)) : KeyMap κ α := es.foldl (fun m e => m.insert e.1 e.2) empty

@[simp] theorem get?_empty (k : κ) : (empty : KeyMap κ α).get? k = none := rfl

@[grind =] theorem get?_insert (m : KeyMap κ α) (k j : κ) (x : α) :
    (m.insert k x).get? j = if k = j then some x else m.get? j :=
  lookupIn_insertIn k j x m.entries

@[simp] theorem get?_insert_self (m : KeyMap κ α) (k : κ) (x : α) :
    (m.insert k x).get? k = some x := by simp [get?_insert]

@[grind =] theorem get?_erase (m : KeyMap κ α) (k j : κ) :
    (m.erase k).get? j = if j = k then none else m.get? j := by
  have := lookupIn_filter j (fun i => decide (i ≠ k)) m.entries
  simp only [get?, erase, this]
  grind

@[simp, grind =] theorem get?_mapValues (m : KeyMap κ α) (f : κ → α → β) (k : κ) :
    (m.mapValues f).get? k = (m.get? k).map (f k) :=
  lookupIn_map k f m.entries

theorem mem_entries {m : KeyMap κ α} {k : κ} {x : α} :
    (k, x) ∈ m.entries ↔ m.get? k = some x :=
  mem_iff_lookupIn m.ordered

theorem isEmpty_iff {m : KeyMap κ α} : m.isEmpty ↔ ∀ k, m.get? k = none := by
  constructor
  · intro h k
    have hnil : m.entries = [] := List.isEmpty_iff.1 h
    simp [get?, hnil, lookupIn]
  · intro h
    cases hentries : m.entries with
    | nil => simp [isEmpty, hentries]
    | cons e es =>
      have hget : m.get? e.1 = some e.2 := mem_entries.1 (hentries ▸ List.mem_cons_self ..)
      rw [h] at hget
      cases hget

theorem eq_of_lookupIn_eq {as bs : List (κ × α)} (ha : as.Pairwise (fun a b => a.1 < b.1))
    (hb : bs.Pairwise (fun a b => a.1 < b.1)) (h : ∀ k, lookupIn k as = lookupIn k bs) :
    as = bs := by
  induction as generalizing bs with
  | nil =>
    cases bs with
    | nil => rfl
    | cons b bs => simpa [lookupIn] using h b.1
  | cons a as ih =>
    cases bs with
    | nil => simpa [lookupIn] using h a.1
    | cons b bs =>
      rw [List.pairwise_cons] at ha hb
      have hkey : a.1 = b.1 := by
        rcases KeyOrder.connected a.1 b.1 with hlt | heq | hgt
        · have hnone : lookupIn a.1 bs = none := lookupIn_eq_none fun e he =>
            (KeyOrder.ne_of_lt (KeyOrder.trans hlt (hb.1 e he))).symm
          have := h a.1
          simp [lookupIn, hnone, (KeyOrder.ne_of_lt hlt).symm] at this
        · exact heq
        · have hnone : lookupIn b.1 as = none := lookupIn_eq_none fun e he =>
            (KeyOrder.ne_of_lt (KeyOrder.trans hgt (ha.1 e he))).symm
          have := h b.1
          simp [lookupIn, hnone, (KeyOrder.ne_of_lt hgt).symm] at this
      have hval : a.2 = b.2 := by
        have := h a.1
        simpa [lookupIn, hkey] using this
      have htail : as = bs := by
        refine ih ha.2 hb.2 fun k => ?_
        have hk := h k
        by_cases hak : a.1 = k
        · rw [lookupIn_eq_none fun e he => hak ▸ (KeyOrder.ne_of_lt (ha.1 e he)).symm,
            lookupIn_eq_none fun e he => hak ▸ hkey ▸ (KeyOrder.ne_of_lt (hb.1 e he)).symm]
        · simpa [lookupIn, hak, hkey ▸ hak] using hk
      rw [htail, Prod.ext hkey hval]

/-- Two maps with the same look-ups are the same map. -/
@[ext] theorem ext {m n : KeyMap κ α} (h : ∀ k, m.get? k = n.get? k) : m = n := by
  cases m with
  | mk es hes =>
    cases n with
    | mk fs hfs =>
      have : es = fs := eq_of_lookupIn_eq hes hfs h
      subst this
      rfl

end KeyMap

end CanaryRouting
