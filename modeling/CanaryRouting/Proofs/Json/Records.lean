import CanaryRouting.Json.Decoder
import Mathlib.Data.List.Forall2
import Mathlib.Data.List.Nodup

/-!
# Reading records

What a record is read from is said by the values under the names of its fields alone
(`Record.Takes`), and composed along the record (`Takes.map`, `Takes.seq`). From an object in which
no field is repeated the record is then read, whatever the order of its members and whatever other
members there are (`Takes.decoder`, `Takes.lenientDecoder`).

`Json.Rearranged` relates a record that has been written to the objects that say the same: they have
its members, perhaps written differently themselves, in any order and among others. A reader that
takes all of them for what was written reads it back (`Decoder.ReadsBack`); for a record this comes
down to its fields, with a rule for each way in which one is written and declared (`Takes.written`
and those that follow it).
-/

namespace CanaryRouting

/-! ### Members by their names -/

section Lookup

variable {α β : Type} {ms ms' : List (String × α)} {k : String}

theorem lookup_cons_eq (j : String) (x : α) (ms : List (String × α)) :
    ((j, x) :: ms).lookup k = if k = j then some x else ms.lookup k := by
  by_cases hk : k = j
  · simp [hk]
  · simp [List.lookup_cons, hk, beq_eq_false_iff_ne.2 hk]

theorem lookup_filter {p : String → Bool} (h : p k) :
    (ms.filter fun m => p m.1).lookup k = ms.lookup k := by
  induction ms with
  | nil => rfl
  | cons m ms ih =>
    obtain ⟨j, x⟩ := m
    by_cases hj : p j
    · simp only [hj, List.filter_cons_of_pos, lookup_cons_eq, ih]
    · have hk : k ≠ j := fun e => hj (e ▸ h)
      rw [List.filter_cons_of_neg (by simpa using hj), ih, lookup_cons_eq, if_neg hk]

theorem lookup_map_snd (f : α → β) :
    (ms.map fun m => (m.1, f m.2)).lookup k = (ms.lookup k).map f := by
  induction ms with
  | nil => rfl
  | cons m ms ih =>
    obtain ⟨j, x⟩ := m
    rw [List.map_cons, lookup_cons_eq, lookup_cons_eq, ih]
    split <;> rfl

theorem lookup_eq_none_of_notMem (h : k ∉ ms.map Prod.fst) : ms.lookup k = none := by
  rw [List.lookup_eq_none_iff]
  intro m hm
  simpa using fun e : k = m.1 => h (e ▸ List.mem_map_of_mem hm)

/-- What stands under a name that is not repeated is the value of a member of that name. -/
theorem lookup_eq_some_iff_mem (hkeys : (ms.map Prod.fst).Nodup) {x : α} :
    ms.lookup k = some x ↔ (k, x) ∈ ms := by
  induction ms with
  | nil => simp
  | cons m ms ih =>
    obtain ⟨j, y⟩ := m
    rw [List.map_cons, List.nodup_cons] at hkeys
    rw [lookup_cons_eq, List.mem_cons, Prod.mk.injEq]
    by_cases hk : k = j
    · subst hk
      have hmem : (k, x) ∉ ms := fun h => hkeys.1 (List.mem_map.2 ⟨_, h, rfl⟩)
      simp [hmem, eq_comm]
    · simp [hk, ih hkeys.2]

/-- The order of members does not matter if no name is repeated. -/
theorem lookup_perm (h : ms.Perm ms') (hkeys : (ms.map Prod.fst).Nodup) :
    ms.lookup k = ms'.lookup k := by
  ext x
  rw [lookup_eq_some_iff_mem hkeys,
    lookup_eq_some_iff_mem ((h.map Prod.fst).nodup_iff.1 hkeys), h.mem_iff]

/-- Members that correspond to each other in order do so by their names. -/
theorem lookup_forall₂ {p : String → α → α → Prop}
    (h : List.Forall₂ (fun m m' => m.1 = m'.1 ∧ p m.1 m.2 m'.2) ms ms') :
    Option.Rel (p k) (ms.lookup k) (ms'.lookup k) := by
  induction h with
  | nil => exact .none
  | @cons m m' ms ms' hm _ ih =>
    obtain ⟨j, x⟩ := m
    obtain ⟨j', x'⟩ := m'
    obtain ⟨rfl, hx⟩ := hm
    rw [lookup_cons_eq, lookup_cons_eq]
    split
    · next hk => subst hk; exact .some hx
    · exact ih

end Lookup

/-! ### Values in hand -/

namespace Json

mutual

/-- What the text of a value shows is sound. -/
theorem passable_wire : ∀ x : Json, x.wire.passable = true
  | .null | .bool _ | .number _ | .string _ => rfl
  | .array xs => passable_wireItems xs
  | .object ms => passable_wireMembers ms

theorem passable_wireItems : ∀ xs : List Json, Wire.passableItems (wireItems xs) = true
  | [] => rfl
  | x :: xs => by
    rw [wireItems, Wire.passableItems, passable_wire x, passable_wireItems xs, Bool.and_self]

theorem passable_wireMembers :
    ∀ ms : List (String × Json), Wire.passableMembers (wireMembers ms) = true
  | [] => rfl
  | (_, x) :: ms => by
    rw [wireMembers, Wire.passableMembers, passable_wire x, passable_wireMembers ms, Bool.and_self]

end

end Json

/-! ### Taking a record from values -/

namespace Record

variable {α β : Type}

/-- A record is taken from the values that stand under the names of its fields. -/
structure Takes (r : Record α) (ms : List (String × Json)) (x : α) : Prop where
  /-- Every value is right for its field. -/
  checks : ∀ slot ∈ r.slots, ∀ j, ms.lookup slot.name = some j → slot.check j.wire = .ok ()
  /-- There is a value for every required field. -/
  present : ∀ slot ∈ r.slots, slot.required → (ms.lookup slot.name).isSome
  /-- The record is what is built from the values. -/
  builds : ∀ fields : List (String × Wire),
    (∀ slot ∈ r.slots, fields.lookup slot.name = (ms.lookup slot.name).map Json.wire) →
      r.build fields = .ok x

namespace Takes

variable {ms : List (String × Json)}

theorem map {r : Record α} {x : α} (h : r.Takes ms x) (f : α → β) : (f <$> r).Takes ms (f x) where
  checks := h.checks
  present := h.present
  builds fields hfields := congrArg (Except.map f) (h.builds fields hfields)

theorem seq {f : Record (α → β)} {r : Record α} {g : α → β} {x : α} (hf : f.Takes ms g)
    (hr : r.Takes ms x) : (f <*> r).Takes ms (g x) where
  checks slot hslot := (List.mem_append.1 hslot).elim (hf.checks slot) (hr.checks slot)
  present slot hslot := (List.mem_append.1 hslot).elim (hf.present slot) (hr.present slot)
  builds fields hfields := by
    have hg := hf.builds fields fun slot hslot => hfields slot (List.mem_append_left _ hslot)
    have hx := hr.builds fields fun slot hslot => hfields slot (List.mem_append_right _ hslot)
    change (f.build fields).bind (fun g => (r.build fields).map g) = _
    rw [hg, hx]
    rfl

variable {name : String} {d : Decoder α}

/-- A required field is taken from the value under its name. -/
theorem required {j : Json} {x : α} (hlookup : ms.lookup name = some j) (hd : d j.wire = .ok x) :
    (Record.required name d).Takes ms x where
  checks slot hslot j' hj' := by
    cases List.mem_singleton.1 hslot
    cases hlookup.symm.trans hj'
    simp [hd, Except.map]
  present slot hslot _ := by
    cases List.mem_singleton.1 hslot
    simp [hlookup]
  builds fields hfields := by
    have hfield := hfields _ (List.mem_singleton.2 rfl)
    simp only [hlookup, Option.map_some] at hfield
    simp only [Record.required, hfield, hd]

/-- A field with a default is taken from the value under its name, if there is one. -/
theorem defaulted {default x : α} (hsome : ∀ j, ms.lookup name = some j → d j.wire = .ok x)
    (hnone : ms.lookup name = none → default = x) :
    (Record.defaulted name d default).Takes ms x where
  checks slot hslot j hj := by
    cases List.mem_singleton.1 hslot
    simp [hsome j hj, Except.map]
  present slot hslot hrequired := by
    cases List.mem_singleton.1 hslot
    cases hrequired
  builds fields hfields := by
    have hfield := hfields _ (List.mem_singleton.2 rfl)
    cases hlookup : ms.lookup name with
    | none =>
      simp only [hlookup, Option.map_none] at hfield
      simp only [Record.defaulted, hfield, hnone hlookup]
    | some j =>
      simp only [hlookup, Option.map_some] at hfield
      simp only [Record.defaulted, hfield, hsome j hlookup]

end Takes

/-! ### Reading an object -/

variable {r : Record α} {ms : List (String × Json)} {x : α}

/-- The name is that of a field. -/
def hasField (r : Record α) (name : String) : Bool := r.slots.any (·.name == name)

/-- A name is that of a field exactly if there is a slot for it. -/
theorem slot_cases (r : Record α) (key : String) :
    (r.slots.find? (·.name == key) = none ∧ r.hasField key = false) ∨
    ∃ slot ∈ r.slots, slot.name = key ∧ r.slots.find? (·.name == key) = some slot ∧
      r.hasField key = true := by
  cases hfind : r.slots.find? (·.name == key) with
  | none => exact .inl ⟨rfl, by simpa [hasField] using List.find?_eq_none.1 hfind⟩
  | some slot =>
    have hslot := List.mem_of_find?_eq_some hfind
    have hname : slot.name = key := by simpa using List.find?_some hfind
    exact .inr ⟨slot, hslot, hname, rfl, List.any_eq_true.2 ⟨slot, hslot, by simpa using hname⟩⟩

/-- The members of an object that are fields. -/
def fieldsIn (r : Record α) (ms : List (String × Json)) : List (String × Json) :=
  ms.filter fun m => r.hasField m.1

theorem fieldsIn_cons_of_field {key : String} (j : Json) (h : r.hasField key = true) :
    r.fieldsIn ((key, j) :: ms) = (key, j) :: r.fieldsIn ms :=
  List.filter_cons_of_pos h

theorem fieldsIn_cons_of_other {key : String} (j : Json) (h : r.hasField key = false) :
    r.fieldsIn ((key, j) :: ms) = r.fieldsIn ms :=
  List.filter_cons_of_neg (by simp [h])

/-- The members of the fields are kept, if all of them are right and none is repeated. -/
theorem checkMembers_eq_ok (seen : List String)
    (hchecks : ∀ slot ∈ r.slots, ∀ m ∈ ms, m.1 = slot.name → slot.check m.2.wire = .ok ())
    (hkeys : ((r.fieldsIn ms).map Prod.fst).Nodup)
    (hseen : ∀ m ∈ r.fieldsIn ms, m.1 ∉ seen) :
    checkMembers r.slots seen (Json.wireMembers ms) =
      .ok ((r.fieldsIn ms).map fun m => (m.1, m.2.wire)) := by
  induction ms generalizing seen with
  | nil => rfl
  | cons m ms ih =>
    obtain ⟨key, j⟩ := m
    have hchecks' : ∀ slot ∈ r.slots, ∀ m ∈ ms, m.1 = slot.name → slot.check m.2.wire = .ok () :=
      fun slot hslot m hm => hchecks slot hslot m (List.mem_cons_of_mem _ hm)
    rw [Json.wireMembers, checkMembers]
    rcases r.slot_cases key with ⟨hfind, hother⟩ | ⟨slot, hslot, hname, hfind, hfield⟩
    · rw [fieldsIn_cons_of_other j hother] at hkeys hseen ⊢
      simp only [hfind, Json.passable_wire, if_true]
      exact ih seen hchecks' hkeys hseen
    · rw [fieldsIn_cons_of_field j hfield] at hkeys hseen ⊢
      rw [List.map_cons, List.nodup_cons] at hkeys
      have hnew : key ∉ seen := hseen _ (List.mem_cons_self ..)
      have hlater := ih (key :: seen) hchecks' hkeys.2 fun m hm => by
        rw [List.mem_cons, not_or]
        exact ⟨fun e => hkeys.1 (List.mem_map.2 ⟨m, hm, e⟩), hseen m (List.mem_cons_of_mem _ hm)⟩
      simp only [hfind, hnew, if_false]
      rw [hchecks slot hslot _ (List.mem_cons_self ..) hname.symm, hlater]
      rfl

/-- A lenient reader does not mind repeated members. -/
theorem checkLenient_eq_ok
    (hchecks : ∀ slot ∈ r.slots, ∀ m ∈ ms, m.1 = slot.name → slot.check m.2.wire = .ok ()) :
    lenientDecoder.checkLenient r (Json.wireMembers ms) =
      .ok ((r.fieldsIn ms).map fun m => (m.1, m.2.wire)) := by
  induction ms with
  | nil => rfl
  | cons m ms ih =>
    obtain ⟨key, j⟩ := m
    have hlater := ih fun slot hslot m hm => hchecks slot hslot m (List.mem_cons_of_mem _ hm)
    rw [Json.wireMembers, lenientDecoder.checkLenient]
    rcases r.slot_cases key with ⟨hfind, hother⟩ | ⟨slot, hslot, hname, hfind, hfield⟩
    · rw [fieldsIn_cons_of_other j hother]
      simp only [hfind, Json.passable_wire, if_true]
      exact hlater
    · rw [fieldsIn_cons_of_field j hfield]
      simp only [hfind]
      rw [hchecks slot hslot _ (List.mem_cons_self ..) hname.symm, hlater]
      rfl

theorem lookup_fieldsIn {key : String} (h : r.hasField key) :
    (r.fieldsIn ms).lookup key = ms.lookup key := lookup_filter h

theorem hasField_of_mem {slot : Slot} (h : slot ∈ r.slots) : r.hasField slot.name :=
  List.any_eq_true.2 ⟨slot, h, by simp⟩

variable (ms) in
/-- The fields show what stands under their names. -/
theorem lookup_shown {slot : Slot} (h : slot ∈ r.slots) :
    ((r.fieldsIn ms).map fun m => (m.1, m.2.wire)).lookup slot.name =
      (ms.lookup slot.name).map Json.wire := by
  rw [lookup_map_snd, lookup_fieldsIn (hasField_of_mem h)]

/-- No field is repeated if no member with one of some names is, and the fields have such names. -/
theorem nodup_fieldsIn {names : List String} (hslots : r.slots.map Slot.name ⊆ names)
    (hkeys : ((ms.filter fun m => m.1 ∈ names).map Prod.fst).Nodup) :
    ((r.fieldsIn ms).map Prod.fst).Nodup := by
  refine hkeys.sublist ((List.monotone_filter_right ms fun m hm => ?_).map _)
  obtain ⟨slot, hslot, hname⟩ := List.any_eq_true.1 hm
  simpa [← beq_iff_eq.1 hname] using hslots (List.mem_map_of_mem hslot)

namespace Takes

variable (h : r.Takes ms x) (hkeys : ((r.fieldsIn ms).map Prod.fst).Nodup)

include h hkeys

theorem check_member {slot : Slot} (hslot : slot ∈ r.slots) {m : String × Json} (hm : m ∈ ms)
    (hname : m.1 = slot.name) : slot.check m.2.wire = .ok () := by
  have hfield := hasField_of_mem hslot
  refine h.checks slot hslot m.2 ?_
  rw [← lookup_fieldsIn hfield, lookup_eq_some_iff_mem hkeys, ← hname]
  exact List.mem_filter.2 ⟨hm, hname ▸ hfield⟩

/-- A record is read from an object that has its fields, each of them once. -/
theorem decoder (name : String) : (r.decoder name).ofJson (.object ms) = .ok x := by
  have hfields := checkMembers_eq_ok [] (fun slot hslot m hm => h.check_member hkeys hslot hm)
    hkeys fun _ _ => List.not_mem_nil
  have hpresent : (r.slots.find? fun slot => slot.required &&
      (((r.fieldsIn ms).map fun m => (m.1, m.2.wire)).lookup slot.name).isNone) = none := by
    rw [List.find?_eq_none]
    intro slot hslot hmissing
    rw [lookup_shown ms hslot, Option.isNone_map, Bool.and_eq_true] at hmissing
    have hsome := h.present slot hslot hmissing.1
    rw [Option.isNone_iff_eq_none.1 hmissing.2] at hsome
    cases hsome
  simp only [Decoder.ofJson, Json.wire, Record.decoder]
  rw [hfields]
  simp only [Except.bind, hpresent]
  exact h.builds _ fun slot hslot => lookup_shown ms hslot

/-- The same for a record that is read leniently. -/
theorem lenientDecoder (name : String) : (r.lenientDecoder name).ofJson (.object ms) = .ok x := by
  have hfields := checkLenient_eq_ok fun slot hslot m hm => h.check_member hkeys hslot hm
  simp only [Decoder.ofJson, Json.wire, Record.lenientDecoder]
  rw [hfields]
  refine h.builds _ fun slot hslot => ?_
  rw [← lookup_shown ms hslot]
  refine lookup_perm (List.reverse_perm _) ?_
  rw [List.map_reverse, List.nodup_reverse, List.map_map]
  exact hkeys

end Takes

end Record

/-! ### Records that are written -/

namespace Json

/-- The values of two lists correspond to each other in order. -/
def ItemsRelated (p : Json → Json → Prop) : Json → Json → Prop
  | .array xs, .array ys => List.Forall₂ p xs ys
  | _, _ => False

/-- The written values of a list are so if each of them is related to itself. -/
theorem itemsRelated_map {α : Type} {f : α → Json} {p : Json → Json → Prop}
    (h : ∀ x, p (f x) (f x)) (xs : List α) :
    ItemsRelated p (.array (xs.map f)) (.array (xs.map f)) :=
  List.forall₂_map_left_iff.2 (List.forall₂_map_right_iff.2 (List.forall₂_same.2 fun x _ => h x))

/-- The second value is an object that has the members of the first, with values related by `p`, in
any order and among others of different names; `names` are those that the members may have. -/
def Rearranged (names : List String) (p : String → Json → Json → Prop) : Json → Json → Prop
  | .object ms, .object ms' =>
    ∃ kept, List.Forall₂ (fun m m' => m.1 = m'.1 ∧ p m.1 m.2 m'.2) ms kept ∧
      kept.Perm (ms'.filter fun m => m.1 ∈ names)
  | _, _ => False

/-- Members that are written or left out, each under its own name. -/
def Named (names : List String) (members : List (Option (String × Json))) : Prop :=
  List.Forall₂ (fun name member => ∀ m ∈ member, m.1 = name) names members

section Members

variable {names : List String} {members : List (Option (String × Json))} {key : String}

@[simp] theorem named_nil : Named [] [] := .nil

@[simp] theorem named_always {x : Json} :
    Named (key :: names) (always key x :: members) ↔ Named names members := by
  simp [Named, always]

variable {α : Type} {f : α → Json} {x : Option α}

@[simp] theorem named_whenSome :
    Named (key :: names) (whenSome key f x :: members) ↔ Named names members := by
  cases x <;> simp [Named, whenSome]

@[simp] theorem map_snd_always (x : Json) : (always key x).map Prod.snd = some x := rfl

@[simp] theorem map_snd_whenSome : (whenSome key f x).map Prod.snd = x.map f := by
  cases x <;> rfl

theorem forall_mem_always {x : Json} {q : String × Json → Prop} :
    (∀ m ∈ always key x, q m) ↔ q (key, x) := by
  simp [always]

theorem forall_mem_whenSome {q : String × Json → Prop} :
    (∀ m ∈ whenSome key f x, q m) ↔ ∀ y ∈ x, q (key, f y) := by
  cases x <;> simp [whenSome]

end Members

variable {names : List String} {members : List (Option (String × Json))}
  {p : String → Json → Json → Prop}

/-- The members that are written have some of the names, in their order. -/
theorem Named.sublist (h : Named names members) :
    ((members.filterMap id).map Prod.fst).Sublist names := by
  induction h with
  | nil => exact .slnil
  | @cons name member names members hm _ ih =>
    cases member with
    | none => exact ih.cons _
    | some m =>
      obtain rfl := hm m rfl
      exact ih.cons_cons _

/-- Under a name that a member may have stands its value, if it is written. -/
theorem Named.lookup (h : Named names members) (hnames : names.Nodup) {name : String}
    {member : Option (String × Json)} (hmem : (name, member) ∈ names.zip members) :
    (members.filterMap id).lookup name = member.map Prod.snd := by
  induction h with
  | nil => cases hmem
  | @cons name' member' names members hm hrest ih =>
    rw [List.nodup_cons] at hnames
    rw [List.zip_cons_cons, List.mem_cons] at hmem
    rcases hmem with hhead | htail
    · obtain ⟨rfl, rfl⟩ := Prod.mk.inj hhead
      have hothers : (members.filterMap id).lookup name = none :=
        lookup_eq_none_of_notMem fun hmem => hnames.1 ((Named.sublist hrest).subset hmem)
      cases member with
      | none => simpa using hothers
      | some m =>
        obtain ⟨key, x⟩ := m
        obtain rfl : key = name := hm _ rfl
        simp
    · have hne : name ≠ name' := fun e => hnames.1 (e ▸ (List.of_mem_zip htail).1)
      rw [← ih hnames.2 htail]
      cases member' with
      | none => rfl
      | some m =>
        obtain ⟨key, x⟩ := m
        obtain rfl : key = name' := hm _ rfl
        simp [lookup_cons_eq, hne]

/-- Members may come in reverse order. -/
theorem rearranged_of_reverse {ms ms' : List (String × Json)}
    (h : List.Forall₂ (fun m m' => m.1 = m'.1 ∧ p m.1 m.2 m'.2) ms
      (ms'.filter fun m => m.1 ∈ names).reverse) : Rearranged names p (.object ms) (.object ms') :=
  ⟨_, h, List.reverse_perm _⟩

/-- What has been rearranged is an object that has each member of the written record once and, under
every name, what is related to the value that is written there. -/
theorem Rearranged.related {y : Json} (h : Rearranged names p (record members) y)
    (hnamed : Named names members) (hnames : names.Nodup) :
    ∃ ms, y = .object ms ∧ ((ms.filter fun m => m.1 ∈ names).map Prod.fst).Nodup ∧
      List.Forall₂
        (fun name member => Option.Rel (p name) (member.map Prod.snd) (ms.lookup name))
        names members := by
  cases y with
  | object ms =>
    obtain ⟨kept, hrelated, hperm⟩ := h
    have hsame : kept.map Prod.fst = (members.filterMap id).map Prod.fst := by
      symm
      rw [← List.forall₂_eq_eq_eq, List.forall₂_map_left_iff, List.forall₂_map_right_iff]
      exact hrelated.imp fun _ _ hm => hm.1
    have hkept : (kept.map Prod.fst).Nodup := hsame ▸ hnames.sublist hnamed.sublist
    refine ⟨ms, rfl, (hperm.map Prod.fst).nodup_iff.1 hkept,
      List.forall₂_iff_zip.2 ⟨hnamed.length_eq, fun {name member} hmem => ?_⟩⟩
    have hname : name ∈ names := (List.of_mem_zip hmem).1
    have hlookup : kept.lookup name = ms.lookup name := by
      rw [lookup_perm hperm hkept]
      exact lookup_filter (p := (decide <| · ∈ names)) (by simpa using hname)
    rw [← hnamed.lookup hnames hmem, ← hlookup]
    exact lookup_forall₂ hrelated
  | _ => cases h

/-- A written record is itself such an object if every value is related to itself. -/
theorem rearranged_record (hnamed : Named names members)
    (hp : ∀ member ∈ members, ∀ m ∈ member, p m.1 m.2 m.2) :
    Rearranged names p (record members) (record members) := by
  refine ⟨members.filterMap id, List.forall₂_same.2 fun m hm => ⟨rfl, ?_⟩, ?_⟩
  · obtain ⟨member, hmember, hsome⟩ := List.mem_filterMap.1 hm
    exact hp member hmember m hsome
  · rw [List.filter_eq_self.2 fun m hm => ?_]
    simpa using hnamed.sublist.subset (List.mem_map_of_mem hm)

end Json

/-! ### Reading what is written -/

namespace Decoder

variable {α : Type} {d : Decoder α} {f : α → Json} {p : Json → Json → Prop}

/-- What `f` writes is read again, also when it has been rearranged as `p` allows. -/
def ReadsBack (d : Decoder α) (f : α → Json) (p : Json → Json → Prop) : Prop :=
  ∀ x j, p (f x) j → d.ofJson j = .ok x

theorem text_readsBack : text.ReadsBack .string Eq := by
  rintro x _ rfl
  rfl

theorem boolean_readsBack : boolean.ReadsBack .bool Eq := by
  rintro x _ rfl
  rfl

/-- Lists are read again if their items are. -/
theorem ReadsBack.list (h : d.ReadsBack f p) :
    (list d).ReadsBack (fun xs => .array (xs.map f)) (Json.ItemsRelated p) := by
  intro xs j hj
  cases j with
  | array js =>
    change items d (Json.wireItems js) = _
    induction xs generalizing js with
    | nil => cases hj; rfl
    | cons x xs ih =>
      cases hj with
      | @cons _ j _ js hx hxs =>
        have hd : d j.wire = .ok x := h x j hx
        rw [Json.wireItems, items, hd]
        simp only [Except.bind, ih js hxs]
        rfl
  | _ => cases hj

theorem texts_readsBack : (list text).ReadsBack (fun xs => .array (xs.map .string)) Eq := by
  rintro xs _ rfl
  exact text_readsBack.list xs _ (List.forall₂_same.2 fun _ _ => rfl)

end Decoder

namespace Record.Takes

variable {α : Type} {d : Decoder α} {f : α → Json} {p : Json → Json → Prop}
  {ms : List (String × Json)} {name : String}

/-- A field that is always written is taken from what is written. -/
theorem writtenFor {y : Json} {x : α} (hlookup : Option.Rel p (some y) (ms.lookup name))
    (hd : ∀ j, p y j → d.ofJson j = .ok x) : (Record.required name d).Takes ms x := by
  generalize hj : ms.lookup name = value at hlookup
  cases hlookup with
  | some hp => exact .required hj (hd _ hp)

/-- The same for values that are read whatever they are. -/
theorem written {x : α} (hlookup : Option.Rel p (some (f x)) (ms.lookup name))
    (hd : d.ReadsBack f p) : (Record.required name d).Takes ms x :=
  writtenFor hlookup (hd x)

/-- A field that has a default is taken from what is written, if anything is. -/
theorem writtenOver {y? : Option Json} {x default : α} (hlookup : Option.Rel p y? (ms.lookup name))
    (hsome : ∀ y ∈ y?, ∀ j, p y j → d.ofJson j = .ok x) (hnone : y? = none → default = x) :
    (Record.defaulted name d default).Takes ms x := by
  generalize hj : ms.lookup name = j? at hlookup
  cases hlookup with
  | none =>
    refine .defaulted (fun j hj' => ?_) fun _ => hnone rfl
    cases hj.symm.trans hj'
  | some hp =>
    refine .defaulted (fun j hj' => ?_) fun hj' => ?_
    · cases hj.symm.trans hj'
      exact hsome _ rfl _ hp
    · cases hj.symm.trans hj'

/-- A field that has a default and is always written is taken from what is written. -/
theorem writtenAlways {x default : α} (hlookup : Option.Rel p (some (f x)) (ms.lookup name))
    (hd : d.ReadsBack f p) : (Record.defaulted name d default).Takes ms x := by
  refine writtenOver hlookup (fun y hy j hp => ?_) nofun
  obtain rfl := Option.some.inj hy
  exact hd x j hp

/-- A field that is written only if there is a value is taken from what is written. The reader of
the value must refuse `null`, which stands for none. -/
theorem writtenIf {x : Option α} (hlookup : Option.Rel p (x.map f) (ms.lookup name))
    (hd : ∀ y ∈ x, ∀ j, p (f y) j → d.ofJson j = .ok y) (hnull : ∀ y, d .null ≠ .ok y) :
    (Record.optional name d).Takes ms x := by
  refine writtenOver hlookup (fun y hy j hp => ?_)
    fun hnone => (Option.map_eq_none_iff.1 hnone).symm
  obtain ⟨x, rfl, rfl⟩ := Option.map_eq_some_iff.1 hy
  have hread : d j.wire = .ok x := hd x rfl j hp
  change Decoder.optional d j.wire = .ok (some x)
  unfold Decoder.optional
  split
  · next hwire => exact absurd (hwire ▸ hread) (hnull x)
  · rw [hread]
    rfl

/-- The same for values that are read whatever they are. -/
theorem writtenSome {x : Option α} (hlookup : Option.Rel p (x.map f) (ms.lookup name))
    (hd : d.ReadsBack f p) (hnull : ∀ y, d .null ≠ .ok y) :
    (Record.optional name d).Takes ms x :=
  writtenIf hlookup (fun y _ => hd y) hnull

end Record.Takes

end CanaryRouting
