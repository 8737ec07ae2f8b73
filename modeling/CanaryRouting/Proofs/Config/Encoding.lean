import CanaryRouting.Config.Settings
import CanaryRouting.Proofs.Json.Records
import CanaryRouting.Proofs.Json.Shown
import Mathlib.Data.List.Perm.Basic

/-!
# Configurations written and read again

A configuration that has been written may come back with the members of its objects in another order
and with members that nobody asked for, at every level: in the configuration itself, in the routes
of its lists, in its selectors and their requirements (`Settings.Rearranged`). It is the same
configuration still (`Settings.decode_readsBack`): each part is read back from what it was written
as, from the texts up, and what is left out on writing is what a missing member stands for on
reading. Whether it is then accepted depends on the configuration alone
(`Settings.ofJson_of_rearranged`).
-/

namespace CanaryRouting

open Json Decoder

/-! ### Maps of texts -/

namespace KeyMap

variable {κ α : Type} [KeyOrder κ]

theorem insert_comm (m : KeyMap κ α) {k k' : κ} (h : k ≠ k') (x x' : α) :
    (m.insert k x).insert k' x' = (m.insert k' x').insert k x := by
  ext j : 1
  grind

/-- A map is the map of its entries in any order. -/
theorem ofList_perm {m : KeyMap κ α} {es : List (κ × α)} (h : m.entries.Perm es) :
    ofList es = m := by
  rw [← ofList_entries m]
  refine (h.foldl_eq' (fun e he e' he' m' => ?_) _).symm
  by_cases hkey : e.1 = e'.1
  · have hvalue : some e.2 = some e'.2 := by
      rw [← mem_entries.1 he, ← mem_entries.1 he', hkey]
    rw [Prod.ext hkey (Option.some.inj hvalue)]
  · exact insert_comm m' hkey _ _

end KeyMap

/-- The members of the second object are those of the first in any order. -/
def Json.Permuted : Json → Json → Prop
  | .object ms, .object ms' => ms.Perm ms'
  | _, _ => False

theorem KeyMap.permuted_textsToJson (m : KeyMap String String) :
    Permuted m.textsToJson m.textsToJson := List.Perm.refl _

theorem Decoder.keyed_readsBack : (keyed text).ReadsBack KeyMap.textsToJson Permuted := by
  intro m j hj
  cases j with
  | object ms =>
    let member (e : String × String) : String × Json := (e.1, .string e.2)
    obtain ⟨es, hms, hperm⟩ : ∃ es, List.Forall₂ (fun n e => n = member e) ms es ∧
        es.Perm m.entries :=
      List.perm_comp_forall₂ (List.Perm.symm hj)
        (List.forall₂_map_left_iff.2 (List.forall₂_same.2 fun _ _ => rfl))
    obtain rfl : ms = es.map member := by
      rwa [← List.forall₂_eq_eq_eq, List.forall₂_map_right_iff]
    have hread : keyedMembers text KeyMap.empty (es.map fun e => (some e.1, .string (some e.2))) =
        .ok (KeyMap.ofList es) :=
      keyedMembers_eq_ok (w := fun s => .string (some s)) KeyMap.empty fun _ _ => rfl
    change keyedMembers text KeyMap.empty (wireMembers (es.map member)) = .ok m
    rw [wireMembers_eq_map, List.map_map]
    exact hread.trans (congrArg _ (KeyMap.ofList_perm hperm.symm))
  | _ => cases hj

/-! ### Listed routes -/

namespace RouteEntry

/-- The names of the members of a route. -/
def memberNames : List String := ["name", "useHeaderRoutes"]

/-- The members of a route in any order and among others. -/
def Rearranged : Json → Json → Prop := Json.Rearranged memberNames fun _ => Eq

theorem toJson_eq (e : RouteEntry) :
    e.toJson = record [always "name" (.string e.name),
      always "useHeaderRoutes" (.bool e.useHeaderRoutes)] := rfl

theorem rearranged_toJson (e : RouteEntry) : Rearranged e.toJson e.toJson := by
  rw [toJson_eq]
  exact rearranged_record (by simp [memberNames]) fun _ _ _ _ => rfl

theorem decode_readsBack : decode.ReadsBack toJson Rearranged := by
  intro e j hj
  rw [toJson_eq] at hj
  obtain ⟨ms, rfl, hkeys, hmembers⟩ := hj.related (by simp [memberNames]) (by decide)
  simp only [memberNames, List.forall₂_cons, map_snd_always] at hmembers
  obtain ⟨hname, hflag, -⟩ := hmembers
  exact (Record.Takes.written hname text_readsBack).map _
    |>.seq (.writtenAlways hflag boolean_readsBack)
    |>.decoder (Record.nodup_fieldsIn (by decide) hkeys) _

end RouteEntry

/-! ### Selectors -/

/-- A text that has a default and is always written is taken from what is written. -/
theorem Record.Takes.textOrEmpty {ms : List (String × Json)} {name s : String}
    (h : Option.Rel Eq (some (.string s)) (ms.lookup name)) :
    (Record.textOrEmpty name).Takes ms s :=
  (writtenSome (x := some s) h text_readsBack nofun).map fun s? => s?.getD ""

namespace Requirement

/-- The names of the members that a requirement may have. -/
def memberNames : List String := ["key", "operator", "values"]

/-- The members of a requirement in any order and among others. -/
def Rearranged : Json → Json → Prop := Json.Rearranged memberNames fun _ => Eq

theorem rearranged_toJson (r : Requirement) : Rearranged r.toJson r.toJson :=
  rearranged_record (by simp [memberNames]) fun _ _ _ _ => rfl

theorem decode_readsBack : decode.ReadsBack toJson Rearranged := by
  intro r j hj
  obtain ⟨ms, rfl, hkeys, hmembers⟩ :=
    Json.Rearranged.related hj (by simp [memberNames]) (by decide)
  simp only [memberNames, List.forall₂_cons, map_snd_always, map_snd_whenSome] at hmembers
  obtain ⟨hkey, hoperator, hvalues, -⟩ := hmembers
  exact (Record.Takes.textOrEmpty hkey).map _
    |>.seq (.textOrEmpty hoperator)
    |>.seq (.writtenSome hvalues texts_readsBack nofun)
    |>.lenientDecoder (Record.nodup_fieldsIn (by decide) hkeys) _

end Requirement

namespace LabelSelector

/-- The names of the members that a selector may have. -/
def memberNames : List String := ["matchExpressions", "matchLabels"]

/-- The members of a selector in any order and among others, with its labels in any order and its
requirements rearranged. -/
def Rearranged : Json → Json → Prop :=
  Json.Rearranged memberNames fun name =>
    if name = "matchLabels" then Permuted else ItemsRelated Requirement.Rearranged

theorem rearranged_toJson (s : LabelSelector) : Rearranged s.toJson s.toJson := by
  refine rearranged_record (by simp [memberNames]) ?_
  simp only [List.forall_mem_cons, forall_mem_whenSome]
  exact ⟨fun rs _ => itemsRelated_map Requirement.rearranged_toJson rs,
    fun m _ => m.permuted_textsToJson, List.forall_mem_nil _⟩

theorem decode_readsBack : decode.ReadsBack toJson Rearranged := by
  intro s j hj
  obtain ⟨ms, rfl, hkeys, hmembers⟩ :=
    Json.Rearranged.related hj (by simp [memberNames]) (by decide)
  simp only [memberNames, List.forall₂_cons, map_snd_whenSome] at hmembers
  obtain ⟨hexpressions, hlabels, -⟩ := hmembers
  exact (Record.Takes.writtenSome hexpressions Requirement.decode_readsBack.list nofun).map _
    |>.seq (.writtenSome hlabels keyed_readsBack nofun)
    |>.lenientDecoder (Record.nodup_fieldsIn (by decide) hkeys) _

end LabelSelector

/-! ### Configurations -/

namespace Settings

/-- The names of the members that a configuration may have. -/
def memberNames : List String :=
  ["configMap", "disableInProgressLabel", "grpcRoute", "grpcRouteSelector", "grpcRoutes",
    "httpRoute", "httpRouteSelector", "httpRoutes", "inProgressLabelKey", "inProgressLabelValue",
    "namespace", "tcpRoute", "tcpRouteSelector", "tcpRoutes", "tlsRoute", "tlsRouteSelector",
    "tlsRoutes"]

/-- The members of a configuration in any order and among others, with its listed routes and its
selectors rearranged. -/
def Rearranged : Json → Json → Prop :=
  Json.Rearranged memberNames fun name =>
    if name ∈ ["grpcRoutes", "httpRoutes", "tcpRoutes", "tlsRoutes"] then
      ItemsRelated RouteEntry.Rearranged
    else if name ∈ ["grpcRouteSelector", "httpRouteSelector", "tcpRouteSelector",
        "tlsRouteSelector"] then
      LabelSelector.Rearranged
    else Eq

/-- A list of routes is written if it has some. -/
theorem entriesMember_eq (key : String) (es : List RouteEntry) :
    entriesMember key es = whenSome key (fun es => .array (es.map RouteEntry.toJson))
      ((some es).filter fun es => !es.isEmpty) := by
  cases es <;> rfl

/-- A list of routes is taken from what is written, and is empty if nothing is. -/
theorem takes_entries {ms : List (String × Json)} {key : String} {es : List RouteEntry}
    (h : Option.Rel (ItemsRelated RouteEntry.Rearranged)
      (((some es).filter fun es => !es.isEmpty).map fun es => .array (es.map RouteEntry.toJson))
      (ms.lookup key)) :
    (Record.defaulted key (list RouteEntry.decode) []).Takes ms es := by
  cases es with
  | nil => exact .writtenOver h nofun fun _ => rfl
  | cons e es => exact .writtenAlways h RouteEntry.decode_readsBack.list

theorem rearranged_toJson (s : Settings) : Rearranged s.toJson s.toJson := by
  have hentries (es : List RouteEntry) :
      ItemsRelated RouteEntry.Rearranged (.array (es.map RouteEntry.toJson))
        (.array (es.map RouteEntry.toJson)) :=
    itemsRelated_map RouteEntry.rearranged_toJson es
  refine rearranged_record (by simp [memberNames, entriesMember_eq]) ?_
  simp [entriesMember_eq, forall_mem_whenSome, forall_mem_always, hentries,
    LabelSelector.rearranged_toJson, -Option.mem_def, -Prod.forall]

theorem decode_readsBack : decode.ReadsBack toJson Rearranged := by
  intro s j hj
  obtain ⟨ms, rfl, hkeys, hmembers⟩ :=
    Json.Rearranged.related hj (by simp [memberNames, entriesMember_eq]) (by decide)
  simp only [memberNames, entriesMember_eq, List.forall₂_cons, map_snd_whenSome,
    map_snd_always] at hmembers
  obtain ⟨hdocument, hdisable, hgrpc, hgrpcSel, hgrpcs, hhttp, hhttpSel, hhttps, hlabelKey,
    hlabelValue, hspace, htcp, htcpSel, htcps, htls, htlsSel, htlss, -⟩ := hmembers
  -- In the order in which the members are declared, which is not the one they are written in.
  exact (Record.Takes.writtenSome hhttp text_readsBack nofun).map _
    |>.seq (.writtenSome hgrpc text_readsBack nofun)
    |>.seq (.writtenSome htcp text_readsBack nofun)
    |>.seq (.writtenSome htls text_readsBack nofun)
    |>.seq (takes_entries hhttps)
    |>.seq (takes_entries hgrpcs)
    |>.seq (takes_entries htcps)
    |>.seq (takes_entries htlss)
    |>.seq (.writtenSome hhttpSel LabelSelector.decode_readsBack nofun)
    |>.seq (.writtenSome hgrpcSel LabelSelector.decode_readsBack nofun)
    |>.seq (.writtenSome htcpSel LabelSelector.decode_readsBack nofun)
    |>.seq (.writtenSome htlsSel LabelSelector.decode_readsBack nofun)
    |>.seq (.writtenSome hspace text_readsBack nofun)
    |>.seq (.writtenSome hdocument text_readsBack nofun)
    |>.seq (.writtenAlways hdisable boolean_readsBack)
    |>.seq (.writtenSome hlabelKey text_readsBack nofun)
    |>.seq (.writtenSome hlabelValue text_readsBack nofun)
    |>.decoder (Record.nodup_fieldsIn (by decide) hkeys) _

/-- What has been decoded is checked, and not changed. -/
theorem ofJson_of_decode {s : Settings} {j : Json} (h : decode.ofJson j = .ok s) :
    ofJson j = s.validate.map fun _ => s := by
  rw [ofJson, h]
  rfl

/-- A configuration is read back from what it is written as, as it stands or rearranged, and is then
accepted or refused for what it says. -/
theorem ofJson_of_rearranged (s : Settings) :
    Rearranged s.toJson s.toJson ∧
    ∀ j, Rearranged s.toJson j →
      decode.ofJson j = .ok s ∧
      (ofJson j = .ok s ↔ s.validate = .ok ()) ∧
      ∀ e, ofJson j = .error e ↔ s.validate = .error e := by
  refine ⟨s.rearranged_toJson, fun j hj => ?_⟩
  have hread : decode.ofJson j = .ok s := decode_readsBack s j hj
  refine ⟨hread, ?_⟩
  rw [ofJson_of_decode hread]
  cases s.validate <;> simp [Except.map]

/-- A configuration with a selector, an empty text and a listed route that has no name. -/
def mixed : Settings where
  http := {
    single := some "web"
    selector := some {
      matchLabels := some (KeyMap.ofList [("app", "shop"), ("tier", "front")])
      matchExpressions := some [⟨"zone", "In", some ["a", ""]⟩] } }
  tls := { listed := [⟨"", true⟩] }
  space := some ""

/-- The members of `mixed` in another order and among others, at every level. -/
def mixedRearranged : Json :=
  .object [
    ("weight", .null),
    ("tlsRoutes", .array [
      .object [("useHeaderRoutes", .bool true), ("weight", .null), ("name", .string "")]]),
    ("namespace", .string ""),
    ("httpRouteSelector", .object [
      ("matchLabels", .object [("tier", .string "front"), ("app", .string "shop")]),
      ("name", .array []),
      ("matchExpressions", .array [.object [
        ("values", .array [.string "a", .string ""]),
        ("operator", .string "In"),
        ("name", .null),
        ("key", .string "zone")]])]),
    ("httpRoute", .string "web"),
    ("weight", .array []),
    ("disableInProgressLabel", .bool false)]

theorem ofJson_of_rearranged_mixed :
    Rearranged mixed.toJson mixedRearranged ∧
    decode.ofJson mixedRearranged = .ok mixed ∧
    ofJson mixedRearranged = .error (.unnamedEntry .tls) := by
  have hrearranged : Rearranged mixed.toJson mixedRearranged := by
    refine rearranged_of_reverse <| .cons ⟨rfl, rfl⟩ <| .cons ⟨rfl, rfl⟩ <|
      .cons ⟨rfl, ?selector⟩ <| .cons ⟨rfl, rfl⟩ <| .cons ⟨rfl, .cons ?route .nil⟩ .nil
    case route => exact rearranged_of_reverse <| .cons ⟨rfl, rfl⟩ <| .cons ⟨rfl, rfl⟩ .nil
    case selector =>
      rw [if_neg (by decide), if_pos (by decide)]
      refine rearranged_of_reverse <| .cons ⟨rfl, .cons ?requirement .nil⟩ <|
        .cons ⟨rfl, ?labels⟩ .nil
      case labels => exact (List.reverse_perm _).symm
      case requirement =>
        exact rearranged_of_reverse <| .cons ⟨rfl, rfl⟩ <| .cons ⟨rfl, rfl⟩ <| .cons ⟨rfl, rfl⟩ .nil
  have hread := (ofJson_of_rearranged mixed).2 mixedRearranged hrearranged
  exact ⟨hrearranged, hread.1, (hread.2.2 _).2 rfl⟩

end Settings

end CanaryRouting
