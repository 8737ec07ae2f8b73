import CanaryRouting.Gateway.Codec
import CanaryRouting.Proofs.Config.Encoding
import CanaryRouting.Proofs.Json.Sent

/-!
# Resources written and read again

A resource that is written is sent as a text and read again. Whatever this library looks at comes
back as it was. What it only copies comes back if it has the form in which it is written again and
no number that changes on the way: such a part is settled (`Shape.Settled`), and so is a resource
whose copied parts are (`Route.Settled`, `Document.Settled`). A settled resource comes back
(`Route.ofJson_toJson`, `Document.ofJson_toJson`), and what is written of it arrives as it was sent
(`Route.arrives_toJson`, `Document.arrives_toJson`).
-/

namespace CanaryRouting

open Json Decoder

/-! ### Written and copied members -/

section Members

variable {names : List String} {members : List (Option (String × Json))}
  {others : List (String × Json)}

/-- Under the names of the members that are written one by one stand their values, also if others
are copied behind them. -/
theorem lookup_written (hnamed : Named names members)
    (hnodup : (names ++ others.map Prod.fst).Nodup) :
    List.Forall₂ (fun name member =>
      (members.filterMap id ++ others).lookup name = member.map Prod.snd) names members := by
  rw [List.nodup_append] at hnodup
  refine List.forall₂_iff_zip.2 ⟨hnamed.length_eq, fun {name member} hmem => ?_⟩
  have hname : name ∈ names := (List.of_mem_zip hmem).1
  have hothers : others.lookup name = none :=
    lookup_eq_none_of_notMem fun hother => hnodup.2.2 name hname name hother rfl
  rw [List.lookup_append, hnamed.lookup hnodup.1 hmem, hothers, Option.or_none]

/-- Under every other name stands what is copied. -/
theorem lookup_copied (hnamed : Named names members) {name : String} (hname : name ∉ names) :
    (members.filterMap id ++ others).lookup name = others.lookup name := by
  have hwritten : (members.filterMap id).lookup name = none :=
    lookup_eq_none_of_notMem fun hmem => hname (hnamed.sublist.subset hmem)
  rw [List.lookup_append, hwritten, Option.none_or]

variable (names) in
/-- A record is read from an object if it is taken from what stands under the names of the members
that are written one by one and of those that are copied. -/
theorem Record.reads_written {α : Type} {r : Record α} {x : α} (name : String)
    (hnamed : Named names members) (hnodup : (names ++ others.map Prod.fst).Nodup)
    (htakes : ∀ ms : List (String × Json),
      List.Forall₂ (fun name member => Option.Rel Eq (member.map Prod.snd) (ms.lookup name))
        names members →
      (∀ name, name ∉ names → ms.lookup name = others.lookup name) → r.Takes ms x) :
    (r.decoder name).ofJson (.object (members.filterMap id ++ others)) = .ok x ∧
      (r.lenientDecoder name).ofJson (.object (members.filterMap id ++ others)) = .ok x := by
  have h : r.Takes (members.filterMap id ++ others) x := by
    refine htakes _ ((lookup_written hnamed hnodup).imp fun name member hlookup => ?_)
      fun _ => lookup_copied hnamed
    rw [hlookup]
    cases member.map Prod.snd with
    | none => exact .none
    | some y => exact .some rfl
  have hkeys : ((members.filterMap id ++ others).map Prod.fst).Nodup := by
    rw [List.map_append]
    exact hnodup.sublist (hnamed.sublist.append_right _)
  have hfields : ((r.fieldsIn (members.filterMap id ++ others)).map Prod.fst).Nodup :=
    hkeys.sublist (List.filter_sublist.map _)
  exact ⟨h.decoder hfields name, h.lenientDecoder hfields name⟩

variable (names) in
/-- The same if no members are copied. -/
theorem Record.reads_record {α : Type} {r : Record α} {x : α} (name : String)
    (hnamed : Named names members) (hnodup : names.Nodup)
    (htakes : ∀ ms : List (String × Json),
      List.Forall₂ (fun name member => Option.Rel Eq (member.map Prod.snd) (ms.lookup name))
        names members → r.Takes ms x) :
    (r.decoder name).ofJson (record members) = .ok x := by
  have hnone : (names ++ ([] : List (String × Json)).map Prod.fst).Nodup := by simpa using hnodup
  have hread := (reads_written names name hnamed hnone fun ms hms _ => htakes ms hms).1
  rwa [List.append_nil] at hread

theorem Json.arrives_written (hmembers : ∀ member ∈ members, ∀ m ∈ member, m.2.Arrives)
    (hothers : ∀ m ∈ others, m.2.Arrives) :
    (Json.object (members.filterMap id ++ others)).Arrives := by
  rw [arrives_object]
  intro m hm
  rcases List.mem_append.1 hm with hm | hm
  · obtain ⟨member, hmember, hsome⟩ := List.mem_filterMap.1 hm
    exact hmembers member hmember m hsome
  · exact hothers m hm

theorem Json.arrives_record (hmembers : ∀ member ∈ members, ∀ m ∈ member, m.2.Arrives) :
    (record members).Arrives := by
  have h := arrives_written hmembers (List.forall_mem_nil _)
  rwa [List.append_nil] at h

end Members

namespace Record

variable {α : Type} {r : Record α} {x : α} {ms ms' : List (String × Json)} {name : String}

/-- Only what stands under the names of the fields counts. -/
theorem Takes.congr (h : r.Takes ms x)
    (hlookup : ∀ slot ∈ r.slots, ms'.lookup slot.name = ms.lookup slot.name) : r.Takes ms' x where
  checks slot hslot j hj := h.checks slot hslot j (hlookup slot hslot ▸ hj)
  present slot hslot hrequired := by
    rw [hlookup slot hslot]
    exact h.present slot hslot hrequired
  builds fields hfields := h.builds fields fun slot hslot => by
    rw [hfields slot hslot, hlookup slot hslot]

theorem Takes.absent : (Record.absent : Record (Option α)).Takes ms none where
  checks _ hslot := nomatch hslot
  present _ hslot := nomatch hslot
  builds _ _ := rfl

theorem Takes.nullable {d : Decoder α} {x : Option α} (h : (Record.optional name d).Takes ms x) :
    (Record.nullable name d).Takes ms x where
  checks slot hslot := by
    cases List.mem_singleton.1 hslot
    exact h.checks ⟨name, false, false, _⟩ (List.mem_singleton.2 rfl)
  present slot hslot hrequired := by
    cases List.mem_singleton.1 hslot
    cases hrequired
  builds fields hfields := h.builds fields fun slot hslot => by
    cases List.mem_singleton.1 hslot
    exact hfields ⟨name, false, true, _⟩ (List.mem_singleton.2 rfl)

end Record

/-! ### Copied parts -/

namespace Shape

/-- The part has the form in which it is written again, and arrives as it was sent. -/
structure Settled (s : Shape) (x : Json) : Prop where
  /-- It arrives as it was sent. -/
  arrives : x.Arrives
  /-- It is read as it is. -/
  reads : s.decode.ofJson x = .ok x

/-- The members of a part have the form in which they are written again, and arrive as they were
sent. -/
structure SettledMembers (ms : List (String × Presence × Shape)) (xs : List (String × Json)) :
    Prop where
  /-- They arrive as they were sent. -/
  arrives : ∀ m ∈ xs, m.2.Arrives
  /-- They are read as they are. -/
  takes : (record ms).Takes xs xs

variable {ms : List (String × Presence × Shape)} {xs : List (String × Json)}

/-- That there are no members is settled if all of them may be absent. -/
theorem settledMembers_nil (h : ∀ m ∈ ms, m.2.1 = .optional) : SettledMembers ms [] where
  arrives := List.forall_mem_nil _
  takes := by
    induction ms with
    | nil => exact ⟨nofun, nofun, fun _ _ => rfl⟩
    | cons m ms ih =>
      obtain ⟨name, presence, shape⟩ := m
      rw [List.forall_mem_cons] at h
      obtain rfl : presence = .optional := h.1
      have hnone : (Record.optional name shape.decode).Takes [] none :=
        .defaulted nofun fun _ => rfl
      exact (hnone.map _).seq (ih h.2)

theorem slots_record (ms : List (String × Presence × Shape)) :
    (record ms).slots.map Slot.name = ms.map Prod.fst := by
  induction ms with
  | nil => rfl
  | cons m ms ih =>
    obtain ⟨name, presence, shape⟩ := m
    cases presence <;> exact congrArg (name :: ·) ih

/-- Members that are copied have names that the form has, in the order in which it has them. -/
theorem names_of_build {fields : List (String × Wire)}
    (h : (record ms).build fields = .ok xs) : (xs.map Prod.fst).Sublist (ms.map Prod.fst) := by
  induction ms generalizing xs with
  | nil => cases h; exact .slnil
  | cons m ms ih =>
    obtain ⟨name, presence, shape⟩ := m
    cases presence with
    | optional =>
      obtain ⟨f, hf, h⟩ := Except.bind_eq_ok.1 h
      obtain ⟨ys, hys, rfl⟩ := Except.map_eq_ok.1 h
      obtain ⟨y, -, rfl⟩ := Except.map_eq_ok.1 hf
      cases y with
      | none => exact (ih hys).cons _
      | some y => exact (ih hys).cons_cons _
    | required =>
      obtain ⟨f, hf, h⟩ := Except.bind_eq_ok.1 h
      obtain ⟨ys, hys, rfl⟩ := Except.map_eq_ok.1 h
      obtain ⟨y, -, rfl⟩ := Except.map_eq_ok.1 hf
      exact (ih hys).cons_cons _
    | defaulted value =>
      obtain ⟨f, hf, h⟩ := Except.bind_eq_ok.1 h
      obtain ⟨ys, hys, rfl⟩ := Except.map_eq_ok.1 h
      obtain ⟨y, -, rfl⟩ := Except.map_eq_ok.1 hf
      exact (ih hys).cons_cons _

theorem SettledMembers.names (h : SettledMembers ms xs) :
    (xs.map Prod.fst).Sublist (ms.map Prod.fst) :=
  names_of_build (h.takes.builds (xs.map fun m => (m.1, m.2.wire)) fun _ _ => lookup_map_snd _)

/-- Members that are copied have other names than those that are written one by one. -/
theorem SettledMembers.nodup (h : SettledMembers ms xs) {names : List String}
    (hnodup : (names ++ ms.map Prod.fst).Nodup) : (names ++ xs.map Prod.fst).Nodup :=
  hnodup.sublist (h.names.append_left names)

theorem SettledMembers.lookup_eq_none (h : SettledMembers ms xs) {name : String}
    (hname : name ∉ ms.map Prod.fst) : xs.lookup name = none :=
  lookup_eq_none_of_notMem fun hmem => hname (h.names.subset hmem)

/-- Settled members are read from an object that has them among members of other names. -/
theorem SettledMembers.takes_copied (h : SettledMembers ms xs) {all : List (String × Json)}
    {names : List String} (hnodup : (names ++ ms.map Prod.fst).Nodup)
    (hcopied : ∀ name, name ∉ names → all.lookup name = xs.lookup name) :
    (record ms).Takes all xs := by
  refine h.takes.congr fun slot hslot => hcopied slot.name fun hname => ?_
  have hslotName : slot.name ∈ ms.map Prod.fst := slots_record ms ▸ List.mem_map_of_mem hslot
  exact (List.nodup_append.1 hnodup).2.2 _ hname _ hslotName rfl

end Shape

/-! ### Rules -/

/-- The number is a whole number of 32 bits. -/
def IsInt32 (n : Int) : Prop := -2147483648 ≤ n ∧ n ≤ 2147483647

theorem Decoder.int32_ofJson {n : Int} (h : IsInt32 n) : int32.ofJson (.ofInt n) = .ok n :=
  if_pos h

theorem IsInt32.arrives {n : Int} (h : IsInt32 n) : (Json.ofInt n).Arrives :=
  arrives_ofInt (by have := h.1; omega) (by have := h.2; omega)

/-- A list is read if its items are. -/
theorem Decoder.list_ofJson {α : Type} {d : Decoder α} {f : α → Json} {xs : List α}
    (h : ∀ x ∈ xs, d.ofJson (f x) = .ok x) : (list d).ofJson (.array (xs.map f)) = .ok xs := by
  change items d (wireItems (xs.map f)) = .ok xs
  induction xs with
  | nil => rfl
  | cons x xs ih =>
    have hx : d (f x).wire = .ok x := h x (List.mem_cons_self ..)
    rw [List.map_cons, wireItems, items, hx]
    simp only [Except.bind, ih fun x' hx' => h x' (List.mem_cons_of_mem _ hx')]
    rfl

theorem Json.arrives_list {α : Type} {f : α → Json} {xs : List α} (h : ∀ x ∈ xs, (f x).Arrives) :
    (Json.array (xs.map f)).Arrives := by
  rw [arrives_array]
  exact List.forall_mem_map.2 h

namespace HeaderPredicate

theorem ofJson_toJson (h : HeaderPredicate) : decode.ofJson h.toJson = .ok h := by
  refine Record.reads_record ["name", "type", "value"] _ (by simp) (by decide)
    fun ms hms => ?_
  simp only [List.forall₂_cons, map_snd_always, map_snd_whenSome] at hms
  obtain ⟨hname, hkind, hvalue, -⟩ := hms
  refine (Record.Takes.written hname text_readsBack).map _
    |>.seq (.writtenIf hkind (fun k _ j hj => ?_) ?_)
    |>.seq (.written hvalue text_readsBack)
  · cases hj
    cases k <;> rfl
  · exact nofun

theorem arrives_toJson (h : HeaderPredicate) : h.toJson.Arrives := by
  refine arrives_record ?_
  simp [forall_mem_always, forall_mem_whenSome, arrives_string, -Option.mem_def, -Prod.forall]

end HeaderPredicate

/-- What is copied of a condition is settled. -/
def Condition.Settled (kind : RouteKind) (c : Condition) : Prop :=
  Shape.SettledMembers (Shape.condition kind) c.others

namespace Condition

variable {kind : RouteKind} {c : Condition}

theorem toJson_eq (c : Condition) : c.toJson = .object ([Json.whenSome "headers"
    (fun hs => .array (hs.map HeaderPredicate.toJson)) c.headers].filterMap id ++ c.others) := by
  unfold toJson
  cases c.headers <;> rfl

theorem nodup_names (kind : RouteKind) :
    (["headers"] ++ (Shape.condition kind).map Prod.fst).Nodup := by
  cases kind <;> decide

theorem ofJson_toJson (h : c.Settled kind) : (decode kind).ofJson c.toJson = .ok c := by
  rw [toJson_eq]
  refine (Record.reads_written ["headers"] _ (by simp)
    (Shape.SettledMembers.nodup h (nodup_names kind)) fun ms hms hcopied => ?_).1
  simp only [List.forall₂_cons, map_snd_whenSome] at hms
  refine (Record.Takes.writtenIf hms.1 (fun hs _ j hj => ?_) ?_).map _
    |>.seq (Shape.SettledMembers.takes_copied h (nodup_names kind) hcopied)
  · rw [← hj]
    exact list_ofJson fun p _ => p.ofJson_toJson
  · exact nofun

theorem arrives_toJson (h : c.Settled kind) : c.toJson.Arrives := by
  rw [toJson_eq]
  refine arrives_written ?_ h.arrives
  simp only [List.forall_mem_singleton, forall_mem_whenSome]
  exact fun hs _ => arrives_list fun p _ => p.arrives_toJson

end Condition

section Filters

variable {kind : RouteKind} {fs? : Option (List Json)}

/-- Filters are settled, and there are none where the kind of route has none. -/
def FiltersSettled (kind : RouteKind) (fs? : Option (List Json)) : Prop :=
  ∀ fs ∈ fs?, kind.supportsHeaderRoutes ∧ ∀ f ∈ fs, (Shape.filter kind).Settled f

theorem FiltersSettled.takes (h : FiltersSettled kind fs?) {ms : List (String × Json)}
    (hlookup : Option.Rel Eq (fs?.map .array) (ms.lookup "filters")) :
    (Record.filters kind).Takes ms fs? := by
  unfold Record.filters
  split
  · refine .writtenIf hlookup (fun fs hfs j hj => ?_) nofun
    have hread := list_ofJson (f := id) fun f hf => ((h fs hfs).2 f hf).reads
    rwa [List.map_id, hj] at hread
  · next hkind =>
    cases fs? with
    | none => exact .absent
    | some fs => exact absurd (h fs rfl).1 hkind

theorem FiltersSettled.arrives (h : FiltersSettled kind fs?) :
    ∀ fs ∈ fs?, (Json.array fs).Arrives := fun fs hfs =>
  arrives_array.2 fun f hf => ((h fs hfs).2 f hf).arrives

end Filters

/-- What is copied of a reference is settled, and its numbers have 32 bits. -/
structure BackendRef.Settled (kind : RouteKind) (b : BackendRef) : Prop where
  /-- The filters. -/
  filters : FiltersSettled kind b.filters
  /-- The port. -/
  port : ∀ n ∈ b.port, IsInt32 n
  /-- The weight. -/
  weight : ∀ n ∈ b.weight, IsInt32 n

namespace BackendRef

variable {kind : RouteKind} {b : BackendRef}

theorem ofJson_toJson (h : b.Settled kind) : (decode kind).ofJson b.toJson = .ok b := by
  refine Record.reads_record
    ["filters", "group", "kind", "name", "namespace", "port", "weight"] _ (by simp) (by decide)
    fun ms hms => ?_
  simp only [List.forall₂_cons, map_snd_always, map_snd_whenSome] at hms
  obtain ⟨hfilters, hgroup, hkind, hname, hspace, hport, hweight, -⟩ := hms
  have hnumber {x : Option Int} (hx : ∀ n ∈ x, IsInt32 n) :
      ∀ n ∈ x, ∀ j, Json.ofInt n = j → int32.ofJson j = .ok n := by
    rintro n hn _ rfl
    exact int32_ofJson (hx n hn)
  exact (h.filters.takes hfilters).map _
    |>.seq (.writtenSome hgroup text_readsBack nofun)
    |>.seq (.writtenSome hkind text_readsBack nofun)
    |>.seq (.written hname text_readsBack)
    |>.seq (.writtenSome hspace text_readsBack nofun)
    |>.seq (.writtenIf hport (hnumber h.port) nofun)
    |>.seq (.writtenIf hweight (hnumber h.weight) nofun)

theorem arrives_toJson (h : b.Settled kind) : b.toJson.Arrives := by
  refine arrives_record ?_
  simp only [List.forall_mem_cons, forall_mem_always, forall_mem_whenSome]
  exact ⟨h.filters.arrives, fun _ _ => arrives_string _, fun _ _ => arrives_string _,
    arrives_string _, fun _ _ => arrives_string _, fun n hn => (h.port n hn).arrives,
    fun n hn => (h.weight n hn).arrives, List.forall_mem_nil _⟩

end BackendRef

/-- What is copied of a rule is settled, and the rule has no parts that rules of its kind do not
have. -/
structure Rule.Settled (kind : RouteKind) (r : Rule) : Prop where
  /-- The references. -/
  refs : ∀ bs ∈ r.backendRefs, ∀ b ∈ bs, b.Settled kind
  /-- There is a list of references where there must be one. -/
  listed : kind.supportsHeaderRoutes = false → r.backendRefs.isSome
  /-- The filters. -/
  filters : FiltersSettled kind r.filters
  /-- The conditions. -/
  conditions : ∀ cs ∈ r.conditions, kind.supportsHeaderRoutes ∧ ∀ c ∈ cs, c.Settled kind
  /-- The time limits. -/
  timeouts : ∀ t ∈ r.timeouts, kind = .http ∧ Shape.timeouts.Settled t

namespace Rule

variable {kind : RouteKind} {r : Rule}

theorem ofJson_toJson (h : r.Settled kind) : (decode kind).ofJson r.toJson = .ok r := by
  refine Record.reads_record ["backendRefs", "filters", "matches", "name", "timeouts"] _
    (by simp) (by decide) fun ms hms => ?_
  simp only [List.forall₂_cons, map_snd_whenSome] at hms
  obtain ⟨hrefs, hfilters, hconditions, hname, htimeouts, -⟩ := hms
  have hlist : ∀ bs ∈ r.backendRefs, ∀ j, Json.array (bs.map BackendRef.toJson) = j →
      (list (BackendRef.decode kind)).ofJson j = .ok bs := by
    rintro bs hbs _ rfl
    exact list_ofJson fun b hb => BackendRef.ofJson_toJson (h.refs bs hbs b hb)
  refine Record.Takes.seq (.seq (.seq (.seq (.map ?refs _) ?filters) ?conditions) ?name) ?timeouts
  case refs =>
    split
    · exact .writtenIf hrefs hlist nofun
    · next hkind =>
      obtain ⟨bs, hbs⟩ := Option.isSome_iff_exists.1 (h.listed (by simpa using hkind))
      rw [hbs] at hrefs ⊢
      exact (Record.Takes.writtenFor hrefs (hlist bs hbs)).map some
  case filters => exact h.filters.takes hfilters
  case conditions =>
    split
    · refine .writtenIf hconditions (fun cs hcs j hj => ?_) nofun
      rw [← hj]
      exact list_ofJson fun c hc => Condition.ofJson_toJson ((h.conditions cs hcs).2 c hc)
    · next hkind =>
      cases hcs : r.conditions with
      | none => exact .absent
      | some cs => exact absurd (h.conditions cs hcs).1 hkind
  case name => exact .writtenSome hname text_readsBack nofun
  case timeouts =>
    split
    · refine .writtenIf htimeouts (fun t ht j hj => ?_) nofun
      rw [← hj]
      exact (h.timeouts t ht).2.reads
    · next hkind =>
      cases ht : r.timeouts with
      | none => exact .absent
      | some t => exact absurd (h.timeouts t ht).1 hkind

theorem arrives_toJson (h : r.Settled kind) : r.toJson.Arrives := by
  refine arrives_record ?_
  simp only [List.forall_mem_cons, forall_mem_whenSome]
  refine ⟨fun bs hbs => ?_, h.filters.arrives, fun cs hcs => ?_, fun _ _ => arrives_string _,
    fun t ht => (h.timeouts t ht).2.arrives, List.forall_mem_nil _⟩
  · exact arrives_list fun b hb => BackendRef.arrives_toJson (h.refs bs hbs b hb)
  · exact arrives_list fun c hc => Condition.arrives_toJson ((h.conditions cs hcs).2 c hc)

end Rule

/-! ### Objects -/

/-- A map of texts arrives. -/
theorem KeyMap.arrives_textsToJson (m : KeyMap String String) : m.textsToJson.Arrives := by
  refine arrives_object.2 fun e he => ?_
  obtain ⟨e', -, rfl⟩ := List.mem_map.1 he
  exact arrives_string _

theorem KeyMap.ofJson_textsToJson (m : KeyMap String String) :
    (keyed text).ofJson m.textsToJson = .ok m :=
  keyed_readsBack m _ m.permuted_textsToJson

/-- What is copied of metadata is settled. -/
def Metadata.Settled (m : Metadata) : Prop := Shape.SettledMembers Shape.bookkeeping m.others

namespace Metadata

variable {m : Metadata}

/-- The names of the members that are written one by one. -/
def writtenNames : List String :=
  ["annotations", "generateName", "labels", "name", "namespace", "resourceVersion"]

/-- The members that are written one by one, if there are such members. -/
def writtenMembers (m : Metadata) : List (Option (String × Json)) := [
  Json.whenSome "annotations" KeyMap.textsToJson m.annotations,
  Json.whenSome "generateName" .string m.generateName,
  Json.whenSome "labels" KeyMap.textsToJson m.labels,
  Json.whenSome "name" .string m.name,
  Json.whenSome "namespace" .string m.space,
  Json.whenSome "resourceVersion" .string m.resourceVersion]

theorem toJson_eq (m : Metadata) :
    m.toJson = .object (m.writtenMembers.filterMap id ++ m.others) := rfl

theorem named_writtenMembers (m : Metadata) : Named writtenNames m.writtenMembers := by
  simp [writtenNames, writtenMembers]

theorem nodup_names : (writtenNames ++ Shape.bookkeeping.map Prod.fst).Nodup := by decide

theorem ofJson_toJson (h : m.Settled) : decode.ofJson m.toJson = .ok m := by
  refine (Record.reads_written writtenNames _ m.named_writtenMembers
    (Shape.SettledMembers.nodup h nodup_names) fun ms hms hcopied => ?_).2
  simp only [writtenNames, writtenMembers, List.forall₂_cons, map_snd_whenSome] at hms
  obtain ⟨hannotations, hgenerate, hlabels, hname, hspace, hversion, -⟩ := hms
  have htexts {x : Option (KeyMap String String)} :
      ∀ y ∈ x, ∀ j, y.textsToJson = j → (keyed text).ofJson j = .ok y := by
    rintro y - _ rfl
    exact y.ofJson_textsToJson
  exact (Record.Takes.writtenSome hname text_readsBack nofun).map _
    |>.seq (.writtenSome hgenerate text_readsBack nofun)
    |>.seq (.writtenSome hspace text_readsBack nofun)
    |>.seq (.writtenIf hlabels htexts nofun)
    |>.seq (.writtenIf hannotations htexts nofun)
    |>.seq (.writtenSome hversion text_readsBack nofun)
    |>.seq (Shape.SettledMembers.takes_copied h nodup_names hcopied)

theorem arrives_toJson (h : m.Settled) : m.toJson.Arrives := by
  rw [toJson_eq]
  refine arrives_written ?_ h.arrives
  simp only [writtenMembers, List.forall_mem_cons, forall_mem_whenSome]
  exact ⟨fun y _ => y.arrives_textsToJson, fun _ _ => arrives_string _,
    fun y _ => y.arrives_textsToJson, fun _ _ => arrives_string _, fun _ _ => arrives_string _,
    fun _ _ => arrives_string _, List.forall_mem_nil _⟩

end Metadata

/-- What is copied of a route is settled, and the route has no parts that routes of its kind do not
have. -/
structure Route.Settled (r : Route) : Prop where
  /-- The metadata. -/
  metadata : r.metadata.Settled
  /-- The rules. -/
  rules : ∀ rules ∈ r.ruleList, ∀ rule ∈ rules, rule.Settled r.kind
  /-- There is a list of rules where there must be one. -/
  listed : r.kind.supportsHeaderRoutes = false → r.ruleList.isSome
  /-- The other parts of the specification. -/
  others : ∃ before behind, r.others = before ++ behind ∧
    Shape.SettledMembers (Shape.leading r.kind) before ∧
    Shape.SettledMembers (Shape.trailing r.kind) behind
  /-- What the gateways say. -/
  status : ∀ s ∈ r.status, Shape.status.Settled s

namespace Route

variable {kind : RouteKind} {r : Route}

/-- The specification of a route, as it is written. -/
def specification (r : Route) : Json :=
  .object ([Json.whenSome "rules" (fun rules => .array (rules.map Rule.toJson))
    r.ruleList].filterMap id ++ r.others)

theorem toJson_eq (r : Route) :
    r.toJson = .record [
      Json.always "metadata" r.metadata.toJson, Json.always "spec" r.specification,
      Json.whenSome "status" id r.status] := by
  unfold toJson specification
  cases r.ruleList <;> rfl

/-- No two members of a specification have the same name, in whichever order they are read. -/
theorem nodup_names (kind : RouteKind) :
    ((["rules"] ++ (Shape.leading kind).map Prod.fst) ++
        (Shape.trailing kind).map Prod.fst).Nodup ∧
      ((["rules"] ++ (Shape.trailing kind).map Prod.fst) ++
        (Shape.leading kind).map Prod.fst).Nodup := by
  cases kind <;> decide

theorem ofJson_specification (h : r.Settled) :
    (decodeSpecification r.kind).ofJson r.specification = .ok (r.ruleList, r.others) := by
  obtain ⟨before, behind, hothers, hbefore, hbehind⟩ := h.others
  obtain ⟨hbehindLast, hbeforeLast⟩ := nodup_names r.kind
  have hnodup : (["rules"] ++ (before ++ behind).map Prod.fst).Nodup := by
    rw [List.map_append, ← List.append_assoc]
    exact hbehindLast.sublist ((hbefore.names.append_left _).append hbehind.names)
  rw [specification, hothers]
  refine (Record.reads_written ["rules"] _ (by simp) hnodup
    fun ms hms hcopied => ?_).1
  simp only [List.forall₂_cons, map_snd_whenSome] at hms
  have hlist : ∀ rules ∈ r.ruleList, ∀ j, Json.array (rules.map Rule.toJson) = j →
      (list (Rule.decode r.kind)).ofJson j = .ok rules := by
    rintro rules hrules _ rfl
    exact list_ofJson fun rule hrule => Rule.ofJson_toJson (h.rules rules hrules rule hrule)
  have hleading : (Shape.record (Shape.leading r.kind)).Takes ms before := by
    refine hbefore.takes_copied hbeforeLast fun name hname => ?_
    rw [List.mem_append, not_or] at hname
    rw [hcopied name hname.1, List.lookup_append, hbehind.lookup_eq_none hname.2, Option.or_none]
  have htrailing : (Shape.record (Shape.trailing r.kind)).Takes ms behind := by
    refine hbehind.takes_copied hbehindLast fun name hname => ?_
    rw [List.mem_append, not_or] at hname
    rw [hcopied name hname.1, List.lookup_append, hbefore.lookup_eq_none hname.2, Option.none_or]
  refine (hleading.map _).seq ?_ |>.seq htrailing
  split
  · exact .writtenIf hms.1 hlist nofun
  · next hkind =>
    obtain ⟨rules, hrules⟩ := Option.isSome_iff_exists.1 (h.listed (by simpa using hkind))
    rw [hrules] at hms ⊢
    exact (Record.Takes.writtenFor hms.1 (hlist rules hrules)).map some

theorem ofJson_toJson (h : r.Settled) : (decode r.kind).ofJson r.toJson = .ok r := by
  rw [toJson_eq]
  refine Record.reads_record ["metadata", "spec", "status"] _ (by simp) (by decide)
    fun ms hms => ?_
  simp only [List.forall₂_cons, map_snd_always, map_snd_whenSome] at hms
  obtain ⟨hmetadata, hspec, hstatus, -⟩ := hms
  refine (Record.Takes.writtenFor hmetadata ?metadata).map _
    |>.seq (.writtenFor (x := (r.ruleList, r.others)) hspec ?spec)
    |>.seq (.nullable (.writtenIf hstatus (fun s hs j hj => ?status) nofun))
  case metadata =>
    rintro _ rfl
    exact Metadata.ofJson_toJson h.metadata
  case spec =>
    rintro _ rfl
    exact ofJson_specification h
  case status =>
    rw [← hj]
    exact (h.status s hs).reads

theorem arrives_specification (h : r.Settled) : r.specification.Arrives := by
  obtain ⟨before, behind, hothers, hbefore, hbehind⟩ := h.others
  refine arrives_written ?_ fun m hm => ?_
  · simp only [List.forall_mem_singleton, forall_mem_whenSome]
    exact fun rules hrules => arrives_list fun rule hrule =>
      Rule.arrives_toJson (h.rules rules hrules rule hrule)
  · rw [hothers, List.mem_append] at hm
    exact hm.elim (hbefore.arrives m) (hbehind.arrives m)

theorem arrives_toJson (h : r.Settled) : r.toJson.Arrives := by
  rw [toJson_eq]
  refine arrives_record ?_
  simp only [List.forall_mem_cons, forall_mem_always, forall_mem_whenSome]
  exact ⟨Metadata.arrives_toJson h.metadata, arrives_specification h,
    fun s hs => (h.status s hs).arrives, List.forall_mem_nil _⟩

end Route

/-- What is copied of a document is settled. -/
structure Document.Settled (d : Document) : Prop where
  /-- The metadata. -/
  metadata : d.metadata.Settled
  /-- The other parts. -/
  others : Shape.SettledMembers Shape.document d.others

namespace Document

variable {d : Document}

/-- A document of which nothing is copied is settled. -/
theorem settled_of_others_eq_nil (hmetadata : d.metadata.others = []) (hothers : d.others = []) :
    d.Settled where
  metadata := by
    rw [Metadata.Settled, hmetadata]
    exact Shape.settledMembers_nil (by simp [Shape.bookkeeping, Shape.may])
  others := by
    rw [hothers]
    exact Shape.settledMembers_nil (by simp [Shape.document, Shape.may])

theorem ofJson_toJson (h : d.Settled) : decode.ofJson d.toJson = .ok d := by
  have hnodup : (["data", "metadata"] ++ Shape.document.map Prod.fst).Nodup := by decide
  refine (Record.reads_written ["data", "metadata"] _ (by simp)
    (h.others.nodup hnodup) fun ms hms hcopied => ?_).2
  simp only [List.forall₂_cons, map_snd_always, map_snd_whenSome] at hms
  obtain ⟨hdata, hmetadata, -⟩ := hms
  have hunsaid (name : String) (hname : name ∉ ["data", "metadata"])
      (hother : name ∉ Shape.document.map Prod.fst) : ms.lookup name = none :=
    (hcopied name hname).trans (h.others.lookup_eq_none hother)
  refine (Record.Takes.defaulted ?_ fun _ => rfl).map _
    |>.seq (.defaulted ?_ fun _ => rfl)
    |>.seq (.writtenIf (x := some d.metadata) hmetadata ?_ ?_)
    |>.seq (.writtenIf hdata ?_ ?_)
    |>.seq (h.others.takes_copied hnodup hcopied)
  · simp [hunsaid "apiVersion" (by decide) (by decide)]
  · simp [hunsaid "kind" (by decide) (by decide)]
  · rintro m ⟨⟩ _ rfl
    exact Metadata.ofJson_toJson h.metadata
  · exact nofun
  · rintro m - _ rfl
    exact m.ofJson_textsToJson
  · exact nofun

theorem arrives_toJson (h : d.Settled) : d.toJson.Arrives := by
  refine arrives_written ?_ h.others.arrives
  simp only [List.forall_mem_cons, forall_mem_always, forall_mem_whenSome]
  exact ⟨fun m _ => m.arrives_textsToJson, Metadata.arrives_toJson h.metadata,
    List.forall_mem_nil _⟩

end Document

end CanaryRouting
