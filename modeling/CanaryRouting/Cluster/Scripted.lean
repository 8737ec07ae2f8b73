import CanaryRouting.Cluster.Basic
import CanaryRouting.Gateway.Codec
import CanaryRouting.Json.Sent

/-!
# Clusters with scripted disturbances

A cluster to try the router on. It stores objects as JSON, whether or not they can be read as what
they should be. Disturbances say which requests are answered with an error or with a given body
instead of being carried out, and what somebody else does to an object just before. Every request
that arrives leaves a line in a log, and the objects touched since the last look are noted.
-/

namespace CanaryRouting

/-! ### Objects as JSON -/

namespace Json

/-- The object with a member set. -/
def withMember (j : Json) (key : String) (x : Json) : Json :=
  match j with
  | .object members => .object (insertMember key x members)
  | j => j

/-- The text of a member. -/
def textMember? (j : Json) (key : String) : Option String :=
  match j.member? key with
  | some (.string s) => some s
  | _ => none

/-- The metadata of an object. -/
def metadata (j : Json) : Json := (j.member? "metadata").getD .null

/-- The version of an object. -/
def version? (j : Json) : Option String := j.metadata.textMember? "resourceVersion"

/-- What stands under a label of an object, if anything does, and if it is a text. -/
def label? (j : Json) (key : String) : Option (Option String) :=
  (j.metadata.member? "labels").bind fun labels =>
    (labels.member? key).map fun _ => labels.textMember? key

/-- The namespace of a stored object; what is no text is as good as none. -/
def space (j : Json) : String := (j.metadata.textMember? "namespace").getD ""

/-- The name of a stored object; what is no text is as good as none. -/
def name (j : Json) : String := (j.metadata.textMember? "name").getD ""

/-- The object with a version, and in the default namespace if it names none. -/
def stamp (version : String) (j : Json) : Json :=
  let m : Json :=
    match j.metadata with
    | .null => .object []
    | m => m
  let m :=
    match m.member? "namespace" with
    | none => m.withMember "namespace" (.string "default")
    | some _ => m
  j.withMember "metadata" (m.withMember "resourceVersion" (.string version))

end Json

/-- Objects are stored as JSON, where their metadata say. They are sent to the server and back as
texts. -/
def Form.json : Form Json Json where
  routes := {
    keep := fun r => r.toJson.sent
    read? := fun key j => ((Route.decode key.kind).ofJson j.sent).toOption
    version? := Json.version?
    label? := Json.label?
    stamp := Json.stamp
    place := fun key j => ⟨key.kind, j.space, j.name⟩ }
  documents := {
    keep := fun d => d.toJson.sent
    read? := fun _ j => (Document.decode.ofJson j.sent).toOption
    version? := Json.version?
    label? := Json.label?
    stamp := Json.stamp
    place := fun _ j => ⟨j.space, j.name⟩ }

/-! ### Disturbances -/

/-- A disturbance of the requests it applies to. -/
structure Disturbance where
  /-- The verb of the requests, if not all. -/
  verb : Option String := none
  /-- The object or the kind of object they are about, if not all. -/
  object : Option String := none
  /-- How many of them pass undisturbed first. -/
  skip : Nat := 0
  /-- How many of them are disturbed then, if not all. -/
  times : Option Nat := none
  /-- The status they are answered with. -/
  code : Option Nat := none
  /-- The body they are answered with. -/
  body : Option Json := none
  /-- An object that gets a new version first. -/
  bump : Option String := none
  /-- An object that is deleted first. -/
  drop : Option String := none
  deriving DecidableEq

namespace Request

/-- The verb of a request. -/
def verb : Request → String
  | .getRoute .. | .getDocument .. => "get"
  | .updateRoute .. | .updateDocument .. => "update"
  | .listRoutes .. => "list"
  | .createDocument .. => "create"

/-- The kind of object a request is about. -/
def objectKind : Request → String
  | .getRoute _ kind _ => kind.name
  | .updateRoute _ route => route.kind.name
  | .listRoutes _ kind _ => kind.name
  | .getDocument .. | .createDocument .. | .updateDocument .. => "ConfigMap"

/-- The object of the given name a request is about, or the kind and namespace of a list, as logs
name it. -/
def object (r : Request) (name : String) : String :=
  match r with
  | .listRoutes .. => r.objectKind ++ " " ++ r.space
  | _ => r.objectKind ++ " " ++ r.space ++ "/" ++ name

/-- What a log adds about a request: the selector of a list, the version of an update. -/
def remark : Request → String
  | .listRoutes _ _ selector => " [" ++ selector.expression ++ "]"
  | .updateRoute _ route => " @" ++ route.metadata.resourceVersion.getD "-"
  | .updateDocument _ document => " @" ++ document.metadata.resourceVersion.getD "-"
  | _ => ""

/-- The status of a request that is carried out. -/
def success : Request → Nat
  | .createDocument .. => 201
  | _ => 200

/-- The object that a request stores when it is carried out; its metadata say where. -/
def storedObject? : Request → Option String
  | .updateRoute _ route => some (label route.kind.name route.metadata)
  | .createDocument space name =>
    some (label "ConfigMap" { name := some name, space := some space })
  | .updateDocument _ document => some (label "ConfigMap" document.metadata)
  | .getRoute .. | .listRoutes .. | .getDocument .. => none
where
  /-- An object as logs name it. -/
  label (kind : String) (m : Metadata) : String :=
    kind ++ " " ++ m.space.getD "default" ++ "/" ++ m.name.getD ""

/-- The answer that a body is read as, which is sent as a text. -/
def readBody (body : Json) : (r : Request) → Except ApiFailure r.Answer
  | .getRoute _ kind _ => read (Route.decode kind)
  | .updateRoute _ route => read (Route.decode route.kind)
  | .listRoutes _ kind _ => read (Route.decodeNames kind)
  | .getDocument .. | .createDocument .. | .updateDocument .. => read Document.decode
where
  /-- A body that cannot be decoded is no answer. -/
  read {α : Type} (d : Decoder α) : Except ApiFailure α :=
    (d.ofJson body.sent).mapError fun _ => .unreadable

end Request

/-- Whether a disturbance applies to a request for the object of the given name. -/
def Disturbance.appliesTo (d : Disturbance) (r : Request) (name : String) : Bool :=
  d.verb.all (· == r.verb) && d.object.all fun o => o == r.objectKind || o == r.object name

/-- The first disturbance to act on a request, and the disturbances as they are afterwards. -/
def Disturbance.select (r : Request) (name : String) :
    List Disturbance → Option Disturbance × List Disturbance
  | [] => (none, [])
  | d :: ds =>
    if !d.appliesTo r name || (d.skip = 0 && d.times = some 0) then
      let (chosen, rest) := select r name ds
      (chosen, d :: rest)
    else if 0 < d.skip then
      let (chosen, rest) := select r name ds
      (chosen, { d with skip := d.skip - 1 } :: rest)
    else (some d, { d with times := d.times.map (· - 1) } :: ds)

/-! ### The cluster -/

/-- A cluster under disturbances. -/
structure ScriptedCluster where
  /-- What it holds. -/
  holdings : Holdings Json Json := {}
  /-- The disturbances. -/
  disturbances : List Disturbance := []
  /-- A line for each request since the last look, the latest last. -/
  log : List String := []
  /-- The objects stored, given a new version or deleted since the last look. -/
  touched : List String := []

namespace ScriptedCluster

/-- Where an object of either sort is stored. -/
inductive ObjectKey where
  /-- A route. -/
  | route (key : RouteKey)
  /-- A document. -/
  | document (key : DocumentKey)

/-- The stored object that logs name so, with its key. -/
def find? (s : ScriptedCluster) (object : String) : Option (ObjectKey × Json) :=
  match s.holdings.routes.entries.find? fun e => e.1.label = object with
  | some (key, j) => some (.route key, j)
  | none =>
    (s.holdings.documents.entries.find? fun e => e.1.label = object).map fun e =>
      (.document e.1, e.2)

/-- The stored object that logs name so, without what only repeats its sort. -/
def shown? (s : ScriptedCluster) (object : String) : Option Json :=
  (s.find? object).map fun e =>
    match e.2 with
    | .object members => .object (members.filter fun m => m.1 ≠ "apiVersion" && m.1 ≠ "kind")
    | j => j

/-- Notes that an object has been touched. -/
def touch (s : ScriptedCluster) (object : String) : ScriptedCluster :=
  { s with touched := s.touched ++ [object] }

/-- Stores a route under its own namespace and name. -/
def putRoute (s : ScriptedCluster) (kind : RouteKind) (j : Json) : ScriptedCluster :=
  let j := j.stamp s.holdings.nextVersion
  let key : RouteKey := ⟨kind, j.space, j.name⟩
  { s with holdings := s.holdings.storeRoute .json key j }.touch key.label

/-- Stores a document under its own namespace and name. -/
def putDocument (s : ScriptedCluster) (j : Json) : ScriptedCluster :=
  let j := j.stamp s.holdings.nextVersion
  let key : DocumentKey := ⟨j.space, j.name⟩
  { s with holdings := s.holdings.storeDocument .json key j }.touch key.label

/-- Gives an object a new version; the version is used up even if there is no such object. -/
def bump (s : ScriptedCluster) (object : String) : ScriptedCluster :=
  match s.find? object with
  | some (.route key, j) =>
    { s with holdings := s.holdings.storeRoute .json key j }.touch object
  | some (.document key, j) =>
    { s with holdings := s.holdings.storeDocument .json key j }.touch object
  | none => { s with holdings := { s.holdings with versions := s.holdings.versions + 1 } }

/-- Deletes an object, if there is such an object. -/
def delete (s : ScriptedCluster) (object : String) : ScriptedCluster :=
  match s.find? object with
  | some (.route key, _) =>
    { s with holdings := { s.holdings with routes := s.holdings.routes.erase key } }.touch object
  | some (.document key, _) =>
    { s with
      holdings := { s.holdings with documents := s.holdings.documents.erase key } }.touch object
  | none => s

/-- Adds the line of a request for the object of the given name to the log. -/
def note (s : ScriptedCluster) (r : Request) (name : String) (status : Nat) : ScriptedCluster :=
  { s with
    log := s.log ++
      [r.verb ++ " " ++ r.object name ++ r.remark ++ " -> " ++ toString status] }

/-- Carries out a request for the object of the given name. What is found but cannot be read by
the caller has been answered all the same. -/
def carryOut (name : String) (r : Request) (s : ScriptedCluster) :
    Except ApiFailure r.Answer × ScriptedCluster :=
  let (answer, holdings) := s.holdings.answer .json name r
  let s := { s with holdings }
  match answer with
  | .error (.status code) => (answer, s.note r name code)
  | _ => (answer, r.storedObject?.elim (s.note r name r.success) (s.note r name r.success).touch)

/-- Answers a request, disturbed if a disturbance applies: first an object may get a new version
or be deleted, then the answer is the given status, else the given body, else the usual one. -/
def respond : Program.Server ScriptedCluster := fun r s =>
  match r.arrival with
  | .error failure => (.error failure, s)
  | .ok name =>
    match Disturbance.select r name s.disturbances with
    | (none, disturbances) => carryOut name r { s with disturbances }
    | (some d, disturbances) =>
      let s := { s with disturbances }
      let s := d.bump.elim s s.bump
      let s := d.drop.elim s s.delete
      match d.code, d.body with
      | some code, _ =>
        (.error (if 200 ≤ code ∧ code < 300 then .unreadable else .status code),
          s.note r name code)
      | none, some body => (r.readBody body, s.note r name 200)
      | none, none => carryOut name r s

end ScriptedCluster

end CanaryRouting
