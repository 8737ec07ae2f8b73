import CanaryRouting.Cluster.Faults
import CanaryRouting.Cluster.Scripted
import CanaryRouting.Proofs.Cluster.Storage
import CanaryRouting.Proofs.Gateway.Codec
import CanaryRouting.Proofs.Store.Protocol
import Mathlib.Data.List.TakeWhile

/-!
# Clusters that store JSON

A `Cluster` stores objects as they are, wherever they are sent to. A `ScriptedCluster` stores JSON,
where its metadata says, and what is sent to it or read from it goes through a text. A caller cannot
tell the two apart as long as its requests are faithful (`Request.Faithful`): the names in them are
segments of a path, and the objects that they send are settled and say where they belong. So what
is shown of runs on a cluster holds of runs on a scripted one (`ScriptedCluster.run_agree`), also if
its script lets requests fail (`ScriptedCluster.exists_failures`).
-/

namespace CanaryRouting

open Json

/-! ### Members of stored objects -/

namespace Json

theorem member?_object (ms : List (String × Json)) (key : String) :
    (Json.object ms).member? key = ms.lookup key := by
  rw [member?]
  induction ms with
  | nil => rfl
  | cons m ms ih =>
    obtain ⟨k, x⟩ := m
    rw [lookup_cons_eq, List.find?_cons]
    by_cases hk : k = key
    · simp [hk]
    · rw [if_neg (Ne.symm hk), ← ih]
      simp [beq_eq_false_iff_ne.2 hk]

theorem insertMember_cons_self (key : String) (x y : Json) (ms : List (String × Json)) :
    insertMember key x ((key, y) :: ms) = (key, x) :: ms := by
  rw [insertMember, if_neg (String.lt_irrefl key), if_pos rfl]

/-- A member is put behind those of smaller names. -/
theorem insertMember_append {key : String} {x : Json} {before after : List (String × Json)}
    (h : ∀ m ∈ before, m.1 < key) :
    insertMember key x (before ++ after) = before ++ insertMember key x after := by
  induction before with
  | nil => rfl
  | cons m ms ih =>
    rw [List.forall_mem_cons] at h
    rw [List.cons_append, insertMember, if_neg (String.lt_asymm h.1),
      if_neg (KeyOrder.ne_of_lt h.1).symm, ih h.2, List.cons_append]

/-- A text that is written as a member, if there is one, is found. -/
theorem textMember?_eq {j : Json} {key : String} {s? : Option String}
    (h : j.member? key = s?.map .string) : j.textMember? key = s? := by
  rw [textMember?, h]
  cases s? <;> rfl

end Json

/-- Under a key of a map of texts stands the text. -/
theorem KeyMap.member?_textsToJson (m : KeyMap String String) (key : String) :
    m.textsToJson.member? key = (m.get? key).map .string := by
  rw [textsToJson, member?_object, lookup_map_snd, KeyMap.get?]
  congr 1
  induction m.entries with
  | nil => rfl
  | cons e es ih =>
    obtain ⟨k, s⟩ := e
    rw [lookup_cons_eq, lookupIn, ih]
    simp only [eq_comm]

namespace Metadata

variable {m : Metadata} {space name version : String}

/-- Under the names of the members that are written one by one stand their values. -/
theorem member?_toJson (h : m.Settled) :
    m.toJson.member? "labels" = m.labels.map KeyMap.textsToJson ∧
    m.toJson.member? "name" = m.name.map .string ∧
    m.toJson.member? "namespace" = m.space.map .string ∧
    m.toJson.member? "resourceVersion" = m.resourceVersion.map .string := by
  have hms := lookup_written m.named_writtenMembers (Shape.SettledMembers.nodup h nodup_names)
  simp only [writtenNames, List.forall₂_cons, writtenMembers, map_snd_whenSome] at hms
  rw [toJson_eq, member?_object, member?_object, member?_object, member?_object]
  exact ⟨hms.2.2.1, hms.2.2.2.1, hms.2.2.2.2.1, hms.2.2.2.2.2.1⟩

/-- The metadata says where its object belongs; it carries a version, unless nothing is copied of
it. -/
structure Placed (m : Metadata) (space name : String) : Prop where
  /-- The namespace. -/
  space : m.space = some space
  /-- The name. -/
  name : m.name = some name
  /-- The version. -/
  versioned : m.resourceVersion = none → m.others = []

/-- Where it belongs, metadata only gets a version. -/
theorem stamp_eq (h : m.Placed space name) (version : String) :
    m.stamp version = m.withVersion (some version) := by
  rw [stamp, h.space]
  exact congrArg (fun s => { m with space := s, resourceVersion := some version }) h.space.symm

/-- The version stands behind the other members that are written one by one. -/
theorem toJson_eq_append (m : Metadata) :
    m.toJson = .object ((m.writtenMembers.take 5).filterMap id ++
      ((Json.whenSome "resourceVersion" .string m.resourceVersion).toList ++ m.others)) := by
  rw [toJson_eq, ← List.take_append_drop 5 m.writtenMembers, List.filterMap_append,
    List.append_assoc, List.take_append_drop]
  unfold writtenMembers
  cases m.resourceVersion <;> rfl

/-- The version of written metadata is replaced in its place. -/
theorem withMember_version (h : m.Placed space name) (version : String) :
    m.toJson.withMember "resourceVersion" (.string version) =
      (m.withVersion (some version)).toJson := by
  have hbefore : ∀ e ∈ (m.writtenMembers.take 5).filterMap id, e.1 < "resourceVersion" := by
    intro e he
    have hnames : ∀ key ∈ writtenNames.take 5, key < "resourceVersion" := by decide
    exact hnames e.1 ((Named.sublist (List.forall₂_take 5 m.named_writtenMembers)).subset
      (List.mem_map_of_mem he))
  rw [toJson_eq_append, withMember, insertMember_append hbefore, toJson_eq_append]
  cases hversion : m.resourceVersion with
  | none =>
    rw [h.versioned hversion]
    simp [withVersion, writtenMembers, insertMember, whenSome, h.versioned hversion]
  | some old =>
    simp [withVersion, writtenMembers, insertMember, whenSome]

end Metadata

/-! ### Objects -/

section Objects

variable {j : Json} {m : Metadata} {space name : String}

/-- What a server looks at in a stored object is what its metadata says. -/
theorem Json.version?_eq (hj : j.metadata = m.toJson) (h : m.Settled) :
    j.version? = m.resourceVersion := by
  rw [version?, hj]
  exact textMember?_eq (Metadata.member?_toJson h).2.2.2

theorem Json.label?_eq (hj : j.metadata = m.toJson) (h : m.Settled) (key : String) :
    j.label? key = (m.label? key).map some := by
  rw [label?, hj, (Metadata.member?_toJson h).1, Metadata.label?]
  cases m.labels with
  | none => rfl
  | some labels =>
    have hmember := labels.member?_textsToJson key
    simp only [Option.map_some, Option.bind_some, Option.getD_some, hmember,
      textMember?_eq hmember, Option.map_map]
    cases labels.get? key <;> rfl

theorem Json.space_eq (hj : j.metadata = m.toJson) (h : m.Settled) (hplaced : m.Placed space name) :
    j.space = space := by
  rw [Json.space, hj, textMember?_eq (Metadata.member?_toJson h).2.2.1, hplaced.space,
    Option.getD_some]

theorem Json.name_eq (hj : j.metadata = m.toJson) (h : m.Settled) (hplaced : m.Placed space name) :
    j.name = name := by
  rw [Json.name, hj, textMember?_eq (Metadata.member?_toJson h).2.1, hplaced.name,
    Option.getD_some]

/-- An object that says where it belongs only gets a version. -/
theorem Json.stamp_object {ms : List (String × Json)} (hms : ms.lookup "metadata" = some m.toJson)
    (h : m.Settled) (hplaced : m.Placed space name) (version : String) :
    (Json.object ms).stamp version =
      .object (insertMember "metadata" (m.withVersion (some version)).toJson ms) := by
  obtain ⟨ns, hns⟩ : ∃ ns, m.toJson = .object ns := ⟨_, m.toJson_eq⟩
  have hmetadata : (Json.object ms).metadata = .object ns := by
    rw [metadata, member?_object, hms, Option.getD_some, hns]
  have hspace : (Json.object ns).member? "namespace" = some (.string space) := by
    rw [← hns, (Metadata.member?_toJson h).2.2.1, hplaced.space, Option.map_some]
  simp only [stamp, hmetadata, hspace]
  rw [← hns, Metadata.withMember_version hplaced, withMember]

end Objects

namespace Route

variable {r : Route} {space name : String}

theorem Settled.withVersion (h : r.Settled) (version : Option String) :
    (r.withVersion version).Settled :=
  ⟨h.metadata, h.rules, h.listed, h.others, h.status⟩

theorem metadata_toJson (r : Route) : r.toJson.metadata = r.metadata.toJson := by
  rw [toJson_eq, record, Json.metadata, member?_object]
  rfl

/-- A settled route is read from what is written of it, and has the version and the labels that
stand there. -/
theorem agree_toJson (h : r.Settled) {key : RouteKey} (hkind : r.kind = key.kind) :
    Form.json.routes.Agree Form.plain.routes key r.toJson r where
  read := by
    change ((Route.decode key.kind).ofJson r.toJson.sent).toOption = some r
    rw [arrives_toJson h, ← hkind, ofJson_toJson h]
    rfl
  version := Json.version?_eq r.metadata_toJson h.metadata
  label := funext (Json.label?_eq r.metadata_toJson h.metadata)

theorem stamp_toJson (h : r.Settled) (hplaced : r.metadata.Placed space name) (version : String) :
    r.toJson.stamp version = (r.withVersion (some version)).toJson := by
  rw [toJson_eq, toJson_eq, record, Json.stamp_object rfl h.metadata hplaced]
  exact congrArg Json.object (insertMember_cons_self "metadata" _ _ _)

/-- A settled route that says where it belongs is stored there. -/
theorem keep (h : r.Settled) (hplaced : r.metadata.Placed space name) :
    Form.json.routes.Keep Form.plain.routes ⟨r.kind, space, name⟩ r := by
  have hstored (version : String) : Form.json.routes.stamp version (Form.json.routes.keep r) =
      (r.withVersion (some version)).toJson := by
    change r.toJson.sent.stamp version = _
    rw [arrives_toJson h, stamp_toJson h hplaced]
  have hplain (version : String) : Form.plain.routes.stamp version (Form.plain.routes.keep r) =
      r.withVersion (some version) :=
    congrArg (fun m => { r with metadata := m }) (r.metadata.stamp_eq hplaced version)
  constructor
  case place =>
    intro version
    have hmetadata := (r.withVersion (some version)).metadata_toJson
    have hsame : (r.withVersion (some version)).metadata.Placed space name :=
      ⟨hplaced.space, hplaced.name, nofun⟩
    rw [hstored]
    change RouteKey.mk r.kind _ _ = _
    rw [Json.space_eq hmetadata h.metadata hsame, Json.name_eq hmetadata h.metadata hsame]
  case place' => exact fun _ => rfl
  case agree =>
    intro version
    rw [hstored, hplain]
    exact agree_toJson (h.withVersion (some version)) rfl

end Route

namespace Document

variable {d : Document} {space name : String}

theorem Settled.withVersion (h : d.Settled) (version : Option String) :
    (d.withVersion version).Settled := ⟨h.metadata, h.others⟩

theorem metadata_toJson (d : Document) : d.toJson.metadata = d.metadata.toJson := by
  rw [toJson, Json.metadata, member?_object]
  cases d.data <;> rfl

/-- A settled document is read from what is written of it, and has the version and the labels that
stand there. -/
theorem agree_toJson (h : d.Settled) (key : DocumentKey) :
    Form.json.documents.Agree Form.plain.documents key d.toJson d where
  read := by
    change (Document.decode.ofJson d.toJson.sent).toOption = some d
    rw [arrives_toJson h, ofJson_toJson h]
    rfl
  version := Json.version?_eq d.metadata_toJson h.metadata
  label := funext (Json.label?_eq d.metadata_toJson h.metadata)

theorem stamp_toJson (h : d.Settled) (hplaced : d.metadata.Placed space name) (version : String) :
    d.toJson.stamp version = (d.withVersion (some version)).toJson := by
  have hlookup : ([Json.whenSome "data" KeyMap.textsToJson d.data,
      Json.always "metadata" d.metadata.toJson].filterMap id ++ d.others).lookup "metadata" =
        some d.metadata.toJson := by
    cases d.data <;> rfl
  rw [toJson, Json.stamp_object hlookup h.metadata hplaced]
  refine congrArg Json.object ?_
  simp only [withVersion]
  cases d.data with
  | none => exact insertMember_cons_self "metadata" _ _ _
  | some data =>
    have hlt : "data" < "metadata" := by decide
    have hbefore : ∀ e ∈ [("data", data.textsToJson)], e.1 < "metadata" :=
      List.forall_mem_singleton.2 hlt
    exact (insertMember_append hbefore).trans
      (congrArg (("data", data.textsToJson) :: ·) (insertMember_cons_self "metadata" _ _ _))

/-- A settled document that says where it belongs is stored there. -/
theorem keep (h : d.Settled) (hplaced : d.metadata.Placed space name) :
    Form.json.documents.Keep Form.plain.documents ⟨space, name⟩ d := by
  have hstored (version : String) :
      Form.json.documents.stamp version (Form.json.documents.keep d) =
        (d.withVersion (some version)).toJson := by
    change d.toJson.sent.stamp version = _
    rw [arrives_toJson h, stamp_toJson h hplaced]
  have hplain (version : String) :
      Form.plain.documents.stamp version (Form.plain.documents.keep d) =
        d.withVersion (some version) :=
    congrArg (fun m => { d with metadata := m }) (d.metadata.stamp_eq hplaced version)
  constructor
  case place =>
    intro version
    have hmetadata := (d.withVersion (some version)).metadata_toJson
    have hsame : (d.withVersion (some version)).metadata.Placed space name :=
      ⟨hplaced.space, hplaced.name, nofun⟩
    rw [hstored]
    change DocumentKey.mk _ _ = _
    rw [Json.space_eq hmetadata h.metadata hsame, Json.name_eq hmetadata h.metadata hsame]
  case place' => exact fun _ => rfl
  case agree =>
    intro version
    rw [hstored, hplain]
    exact agree_toJson (h.withVersion (some version)) _

end Document

/-! ### Requests -/

/-- The text is one segment of a path. -/
def Path.IsSegment (s : String) : Prop := ∀ c ∈ s.toList, Path.isPathChar c ∧ c ≠ '/'

/-- Whether a text is a segment can be computed. -/
theorem Path.isSegment_iff {s : String} :
    IsSegment s ↔ (s.toList.all fun c => isPathChar c && c ≠ '/') = true := by
  simp [IsSegment]

theorem Path.isSegment_empty : IsSegment "" := isSegment_iff.2 (by decide)

/-- A text whose characters a path can have is sent as it is. -/
theorem Path.ofText?_eq {text : List Char} (h : ∀ c ∈ text, isPathChar c) :
    ofText? text = some text := by
  have hnone : ∀ c ∈ text, (c ≠ '?' && c ≠ '#') = true := by
    intro c hc
    have hpath := h c hc
    simp only [Bool.and_eq_true, decide_eq_true_eq]
    constructor <;> rintro rfl <;> revert hpath <;> decide
  simp only [ofText?, List.takeWhile_eq_self_iff.2 hnone, List.dropWhile_eq_nil_iff.2 hnone]
  simpa using h

namespace Request

/-- What the request sends is settled and says where it belongs. -/
def IsSettled : Request → Prop
  | .updateRoute space route => route.Settled ∧ route.metadata.Placed space route.name
  | .updateDocument space document =>
    document.Settled ∧ document.metadata.Placed space document.name
  | .getRoute .. | .listRoutes .. | .getDocument .. | .createDocument .. => True

/-- The names in the request are segments of a path. -/
structure IsAddressed (r : Request) : Prop where
  /-- The namespace. -/
  space : Path.IsSegment r.space
  /-- The name. -/
  name : Path.IsSegment r.name

/-- The request reaches the server under its name, and what it sends comes back as it was sent. -/
structure Faithful (r : Request) : Prop where
  /-- The names. -/
  addressed : r.IsAddressed
  /-- What is sent. -/
  settled : r.IsSettled

theorem isSegment_resource (r : Request) : Path.IsSegment r.resource := by
  have hplural : ∀ kind : RouteKind, Path.IsSegment kind.plural := by
    intro kind
    rw [Path.isSegment_iff]
    cases kind <;> decide +kernel
  have hdocuments : Path.IsSegment "configmaps" := by
    rw [Path.isSegment_iff]
    decide +kernel
  cases r with
  | getRoute _ kind _ => exact hplural kind
  | listRoutes _ kind _ => exact hplural kind
  | updateRoute _ route => exact hplural route.kind
  | getDocument => exact hdocuments
  | createDocument => exact hdocuments
  | updateDocument => exact hdocuments

/-- The segments of a request's path. -/
def segments (r : Request) : List (List Char) :=
  r.space.toList :: r.resource.toList :: if r.hasNameInPath then [r.name.toList] else []

theorem path_eq_intercalate (r : Request) : r.path = ['/'].intercalate r.segments := by
  unfold path segments
  split <;> simp [List.intercalate, List.intersperse]

/-- A request that has the names it needs, all of them segments, reaches the server under its
name. -/
theorem IsAddressed.arrival_eq {r : Request} (h : r.IsAddressed) (hnamed : r.isNamed) :
    r.arrival = .ok r.name := by
  have hsegments : ∀ s ∈ r.segments, ∀ c ∈ s, Path.isPathChar c ∧ c ≠ '/' := by
    unfold segments
    refine List.forall_mem_cons.2 ⟨h.space, List.forall_mem_cons.2 ⟨r.isSegment_resource, ?_⟩⟩
    split
    · exact List.forall_mem_singleton.2 h.name
    · exact List.forall_mem_nil _
  have hpath : ∀ c ∈ r.path, Path.isPathChar c := by
    have hsegment {s : String} (hs : Path.IsSegment s) : ∀ c ∈ s.toList, Path.isPathChar c :=
      fun c hc => (hs c hc).1
    have hslash : Path.isPathChar '/' := by decide
    unfold path
    refine List.forall_mem_append.2 ⟨List.forall_mem_append.2 ⟨hsegment h.space,
      List.forall_mem_cons.2 ⟨hslash, hsegment r.isSegment_resource⟩⟩, ?_⟩
    split
    · exact List.forall_mem_cons.2 ⟨hslash, hsegment h.name⟩
    · exact List.forall_mem_nil _
  have hsplit : r.path.splitOn '/' = r.segments := by
    rw [path_eq_intercalate]
    refine List.splitOn_intercalate '/' (fun s hs hslash => ?_) (List.cons_ne_nil _ _)
    exact (hsegments s hs _ hslash).2 rfl
  rw [arrival, Path.ofText?_eq hpath]
  simp only [hnamed, hsplit, segments]
  cases hasNameInPath r <;> simp

theorem arrival_unnamed {r : Request} (hnamed : r.isNamed = false) :
    r.arrival = .error .unsent := by
  unfold arrival
  split
  · rfl
  · rw [if_pos (by simp [hnamed])]

/-- What a faithful request sends is stored under its name, and alike. -/
theorem IsSettled.kept {r : Request} (h : r.IsSettled) : r.Kept .json .plain r.name := by
  cases r with
  | updateRoute space route => exact Route.keep h.1 h.2
  | updateDocument space document => exact Document.keep h.1 h.2
  | createDocument space name =>
    exact Document.keep (Document.settled_of_others_eq_nil rfl rfl) ⟨rfl, rfl, fun _ => rfl⟩
  | getRoute => trivial
  | listRoutes => trivial
  | getDocument => trivial

end Request

/-! ### Scripted clusters -/

/-- A disturbance only answers requests with an error instead of carrying them out. -/
structure Disturbance.OnlyFails (d : Disturbance) : Prop where
  /-- Nobody stores anything. -/
  bump : d.bump = none
  /-- Nobody deletes anything. -/
  drop : d.drop = none
  /-- Requests are answered with a status. -/
  code : d.code.isSome

/-- So do the disturbances that are left when one of them has acted. -/
theorem Disturbance.select_onlyFails {ds : List Disturbance} (h : ∀ d ∈ ds, d.OnlyFails)
    (r : Request) (name : String) :
    (∀ d ∈ (select r name ds).1, d.OnlyFails) ∧ ∀ d ∈ (select r name ds).2, d.OnlyFails := by
  induction ds with
  | nil => exact ⟨nofun, h⟩
  | cons d ds ih =>
    rw [List.forall_mem_cons] at h
    obtain ⟨hchosen, hrest⟩ := ih h.2
    rw [select]
    split
    · exact ⟨hchosen, List.forall_mem_cons.2 ⟨h.1, hrest⟩⟩
    · split
      · exact ⟨hchosen, List.forall_mem_cons.2 ⟨⟨h.1.bump, h.1.drop, h.1.code⟩, hrest⟩⟩
      · refine ⟨?_, List.forall_mem_cons.2 ⟨⟨h.1.bump, h.1.drop, h.1.code⟩, h.2⟩⟩
        rintro _ ⟨⟩
        exact h.1

namespace ScriptedCluster

variable {s : ScriptedCluster} {c : Cluster} {r : Request}

/-- Carrying out a request changes what is held as answering it does. -/
theorem carryOut_eq (name : String) (r : Request) (s : ScriptedCluster) :
    (carryOut name r s).1 = (s.holdings.answer .json name r).1 ∧
      (carryOut name r s).2.holdings = (s.holdings.answer .json name r).2 ∧
      (carryOut name r s).2.disturbances = s.disturbances := by
  unfold carryOut
  simp only
  split
  · exact ⟨rfl, rfl, rfl⟩
  · cases r.storedObject? <;> exact ⟨rfl, rfl, rfl⟩

/-- A request that is carried out is answered as by a cluster that holds the same objects. -/
theorem carryOut_agree (hagree : Holdings.Agree .json .plain s.holdings c) (hr : r.IsSettled)
    (hnamed : r.isNamed) :
    (carryOut r.name r s).1 = (Cluster.respond r c).1 ∧
      Holdings.Agree .json .plain (carryOut r.name r s).2.holdings (Cluster.respond r c).2 := by
  obtain ⟨hanswer, hheld, -⟩ := carryOut_eq r.name r s
  rw [hanswer, hheld, Cluster.respond, if_pos hnamed]
  exact hagree.answer r.name r hr.kept

/-- A scripted cluster whose disturbances only fail requests answers a faithful one as a cluster
that holds the same objects, unless the request fails. -/
theorem respond_agree (hagree : Holdings.Agree .json .plain s.holdings c)
    (honly : ∀ d ∈ s.disturbances, d.OnlyFails) (hr : r.Faithful) :
    ∃ failure : Option ApiFailure, (s.disturbances = [] → failure = none) ∧
      (respond r s).1 = (c.respondUnless failure r).1 ∧
      Holdings.Agree .json .plain (respond r s).2.holdings (c.respondUnless failure r).2 ∧
      (∀ d ∈ (respond r s).2.disturbances, d.OnlyFails) ∧
      (s.disturbances = [] → (respond r s).2.disturbances = []) := by
  unfold respond
  cases hnamed : r.isNamed with
  | false =>
    have hunsent : c.respondUnless none r = (.error .unsent, c) := if_neg (by simp [hnamed])
    rw [Request.arrival_unnamed hnamed]
    refine ⟨none, fun _ => rfl, ?_⟩
    rw [hunsent]
    exact ⟨rfl, hagree, honly, id⟩
  | true =>
    rw [hr.addressed.arrival_eq hnamed]
    have hselect := Disturbance.select_onlyFails honly r r.name
    have hempty : s.disturbances = [] →
        Disturbance.select r r.name s.disturbances = (none, []) := fun h => by rw [h]; rfl
    rcases hchosen : Disturbance.select r r.name s.disturbances with ⟨d?, ds⟩
    rw [hchosen] at hselect hempty
    simp only [hchosen]
    cases d? with
    | none =>
      obtain ⟨hanswer, hheld⟩ :=
        carryOut_agree (s := { s with disturbances := ds }) hagree hr.settled hnamed
      have hscript := (carryOut_eq r.name r { s with disturbances := ds }).2.2
      refine ⟨none, fun _ => rfl, hanswer, hheld, ?_, fun h => ?_⟩
      · rw [hscript]
        exact hselect.2
      · rw [hscript]
        exact congrArg Prod.snd (hempty h)
    | some d =>
      have hd := hselect.1 d rfl
      obtain ⟨code, hcode⟩ := Option.isSome_iff_exists.1 hd.code
      simp only [hd.bump, hd.drop, hcode, Option.elim_none]
      have hsome : s.disturbances ≠ [] := fun h => nomatch hempty h
      exact ⟨some _, fun h => absurd h hsome, rfl, hagree, hselect.2, fun h => absurd h hsome⟩

end ScriptedCluster

/-! ### Runs -/

namespace ScriptedCluster

variable {α : Type} {s : ScriptedCluster} {c : Cluster}

/-- Whatever a program does, it does the same to a cluster that stores JSON and to one that stores
objects as they are, as long as it asks only faithful requests. -/
theorem run_agree (p : Program α) (hagree : Holdings.Agree .json .plain s.holdings c)
    (hscript : s.disturbances = [])
    (hfaithful : ∀ r ∈ p.requests Cluster.respond c, r.Faithful) :
    (p.run respond s).1 = (p.run Cluster.respond c).1 ∧
      Holdings.Agree .json .plain (p.run respond s).2.holdings (p.run Cluster.respond c).2 := by
  induction p generalizing s c with
  | done a => exact ⟨rfl, hagree⟩
  | lock _ _ next ih => exact ih hagree hscript hfaithful
  | ask r next ih =>
    rw [Program.requests, List.forall_mem_cons] at hfaithful
    obtain ⟨failure, hnone, hanswer, hagree', -, hscript'⟩ :=
      respond_agree hagree (hscript ▸ List.forall_mem_nil _) hfaithful.1
    obtain rfl := hnone hscript
    have hanswer' : (respond r s).1 = (Cluster.respond r c).1 := hanswer
    rw [Program.run_ask, Program.run_ask, hanswer']
    exact ih _ hagree' (hscript' hscript) hfaithful.2

/-- Disturbances that only fail requests are failures of a cluster that stores objects as they are,
as long as the program asks only faithful requests, whichever of them fail. -/
theorem exists_failures (p : Program α) (hagree : Holdings.Agree .json .plain s.holdings c)
    (honly : ∀ d ∈ s.disturbances, d.OnlyFails)
    (hfaithful : ∀ failures, ∀ r ∈ p.requests FaultyCluster.respond ⟨c, failures⟩, r.Faithful) :
    ∃ failures, (p.run respond s).1 = (p.run FaultyCluster.respond ⟨c, failures⟩).1 ∧
      Holdings.Agree .json .plain (p.run respond s).2.holdings
        (p.run FaultyCluster.respond ⟨c, failures⟩).2.cluster := by
  induction p generalizing s c with
  | done a => exact ⟨[], rfl, hagree⟩
  | lock _ _ next ih => exact ih hagree honly hfaithful
  | ask r next ih =>
    simp only [Program.requests, List.forall_mem_cons] at hfaithful
    obtain ⟨failure, -, hanswer, hagree', honly', -⟩ :=
      respond_agree hagree honly (hfaithful []).1
    rw [Program.run_ask, hanswer]
    obtain ⟨failures, hrun, hheld⟩ := ih (c.respondUnless failure r).1 hagree' honly'
      fun failures => (hfaithful (failure :: failures)).2
    exact ⟨failure :: failures, hrun, hheld⟩

end ScriptedCluster

end CanaryRouting
