import CanaryRouting.Cluster.Path
import CanaryRouting.Cluster.Query

/-!
# Clusters

A cluster holds routes and registry documents, and answers requests as the API server does: it
gives every stored object a version of its own, refuses an update that carries a version other
than the stored one, and changes nothing when it answers with an error.

How an object looks when it is stored is left open (`Storage`). A `Cluster` stores objects as they
are, each where it was sent to.
-/

namespace CanaryRouting

/-! ### Keys -/

/-- Where a route is stored. -/
structure RouteKey where
  /-- The kind of the route. -/
  kind : RouteKind
  /-- The namespace of the route. -/
  space : String
  /-- The name of the route. -/
  name : String
  deriving DecidableEq, Repr

/-- Where a registry document is stored. -/
structure DocumentKey where
  /-- The namespace of the document. -/
  space : String
  /-- The name of the document. -/
  name : String
  deriving DecidableEq, Repr

namespace RouteKey

/-- The kind, the namespace and the name, by which keys are ordered. -/
def path (k : RouteKey) : List String := [k.kind.name, k.space, k.name]

theorem path_injective {a b : RouteKey} (h : a.path = b.path) : a = b := by
  cases a with
  | mk kind space name =>
    cases b with
    | mk kind' space' name' =>
      simp only [path, List.cons.injEq, and_true] at h
      obtain ⟨hk, rfl, rfl⟩ := h
      rw [RouteKind.name_injective hk]

instance : LT RouteKey := ⟨fun a b => a.path < b.path⟩

instance : KeyOrder RouteKey where
  decideEq := inferInstance
  decideLt a b := inferInstanceAs (Decidable (a.path < b.path))
  irrefl a := KeyOrder.irrefl a.path
  trans h h' := KeyOrder.trans (κ := List String) h h'
  connected a b := (KeyOrder.connected a.path b.path).imp id (·.imp path_injective id)

/-- The key as logs name it. -/
def label (k : RouteKey) : String := k.kind.name ++ " " ++ k.space ++ "/" ++ k.name

end RouteKey

namespace DocumentKey

/-- The namespace and the name, by which keys are ordered. -/
def path (k : DocumentKey) : List String := [k.space, k.name]

theorem path_injective {a b : DocumentKey} (h : a.path = b.path) : a = b := by
  cases a with
  | mk space name =>
    cases b with
    | mk space' name' =>
      simp only [path, List.cons.injEq, and_true] at h
      obtain ⟨rfl, rfl⟩ := h
      rfl

instance : LT DocumentKey := ⟨fun a b => a.path < b.path⟩

instance : KeyOrder DocumentKey where
  decideEq := inferInstance
  decideLt a b := inferInstanceAs (Decidable (a.path < b.path))
  irrefl a := KeyOrder.irrefl a.path
  trans h h' := KeyOrder.trans (κ := List String) h h'
  connected a b := (KeyOrder.connected a.path b.path).imp id (·.imp path_injective id)

/-- The key as logs name it. -/
def label (k : DocumentKey) : String := "ConfigMap " ++ k.space ++ "/" ++ k.name

end DocumentKey

/-! ### Storage -/

/-- How a server stores objects of type `α` under keys of type `κ`: as something of type `σ`. -/
structure Storage (κ α σ : Type) where
  /-- What is stored of an object. -/
  keep : α → σ
  /-- The object that a caller reads from what is stored under a key, if it can be read. -/
  read? : κ → σ → Option α
  /-- The version of what is stored. -/
  version? : σ → Option String
  /-- What stands under a label, if anything does, and if it is a text. -/
  label? : σ → String → Option (Option String)
  /-- Gives what is stored a version, and the default namespace if it names none. -/
  stamp : String → σ → σ
  /-- Where the server stores what is sent to a key. -/
  place : κ → σ → κ

namespace Storage

variable {κ α σ : Type} (f : Storage κ α σ)

/-- What a caller gets who asks for what is stored under a key. -/
def answer (key : κ) : Option σ → Except ApiFailure α
  | none => .error (.status 404)
  | some x => (f.read? key x).elim (.error .unreadable) .ok

/-- The status with which an update is refused: nothing is stored, or the update carries a version
other than the stored one. -/
def refusal? (sent : Metadata) : Option σ → Option Nat
  | none => some 404
  | some x =>
    if sent.resourceVersion.isNone || sent.resourceVersion = f.version? x then
      none
    else some 409

end Storage

/-- How a server stores the objects of both sorts. -/
structure Form (ρ δ : Type) where
  /-- How it stores routes. -/
  routes : Storage RouteKey Route ρ
  /-- How it stores documents. -/
  documents : Storage DocumentKey Document δ

/-- The metadata of an object with a version, and in the default namespace if it names none. -/
def Metadata.stamp (m : Metadata) (version : String) : Metadata :=
  { m with space := some (m.space.getD "default"), resourceVersion := some version }

/-- What stands under a label. -/
def Metadata.label? (m : Metadata) (key : String) : Option String :=
  (m.labels.getD KeyMap.empty).get? key

/-- Objects are stored as they are, and where they are sent to. -/
def Form.plain : Form Route Document where
  routes := {
    keep := id
    read? := fun _ r => some r
    version? := fun r => r.metadata.resourceVersion
    label? := fun r key => (r.metadata.label? key).map some
    stamp := fun version r => { r with metadata := r.metadata.stamp version }
    place := fun key _ => key }
  documents := {
    keep := id
    read? := fun _ d => some d
    version? := fun d => d.metadata.resourceVersion
    label? := fun d key => (d.metadata.label? key).map some
    stamp := fun version d => { d with metadata := d.metadata.stamp version }
    place := fun key _ => key }

/-! ### Clusters -/

/-- What a server holds that stores routes as `ρ` and documents as `δ`. -/
structure Holdings (ρ δ : Type) where
  /-- The stored routes. -/
  routes : KeyMap RouteKey ρ := KeyMap.empty
  /-- The stored registry documents. -/
  documents : KeyMap DocumentKey δ := KeyMap.empty
  /-- How many versions have been given out. -/
  versions : Nat := 0
  deriving DecidableEq

namespace Holdings

variable {ρ δ : Type} (f : Form ρ δ)

/-- The text of the version that is given out next. -/
def nextVersion (c : Holdings ρ δ) : String := "v" ++ toString (c.versions + 1)

/-- Stores a route that is sent to a key. -/
def storeRoute (c : Holdings ρ δ) (key : RouteKey) (x : ρ) : Holdings ρ δ :=
  let stamped := f.routes.stamp c.nextVersion x
  { c with
    routes := c.routes.insert (f.routes.place key stamped) stamped
    versions := c.versions + 1 }

/-- Stores a document that is sent to a key. -/
def storeDocument (c : Holdings ρ δ) (key : DocumentKey) (x : δ) : Holdings ρ δ :=
  let stamped := f.documents.stamp c.nextVersion x
  { c with
    documents := c.documents.insert (f.documents.place key stamped) stamped
    versions := c.versions + 1 }

/-- Replaces the route stored under a key. The answer is what is stored there afterwards. -/
def updateRoute (c : Holdings ρ δ) (key : RouteKey) (route : Route) :
    Except ApiFailure Route × Holdings ρ δ :=
  match f.routes.refusal? route.metadata (c.routes.get? key) with
  | some code => (.error (.status code), c)
  | none =>
    let c := c.storeRoute f key (f.routes.keep route)
    (f.routes.answer key (c.routes.get? key), c)

/-- Replaces the document stored under a key. The answer is what is stored there afterwards. -/
def updateDocument (c : Holdings ρ δ) (key : DocumentKey) (document : Document) :
    Except ApiFailure Document × Holdings ρ δ :=
  match f.documents.refusal? document.metadata (c.documents.get? key) with
  | some code => (.error (.status code), c)
  | none =>
    let c := c.storeDocument f key (f.documents.keep document)
    (f.documents.answer key (c.documents.get? key), c)

/-- Creates a document without texts where there is none. -/
def createDocument (c : Holdings ρ δ) (key : DocumentKey) :
    Except ApiFailure Document × Holdings ρ δ :=
  if c.documents.contains key then (.error (.status 409), c)
  else
    let document := { metadata := { name := some key.name, space := some key.space } }
    let c := c.storeDocument f key (f.documents.keep document)
    (f.documents.answer key (c.documents.get? key), c)

/-- The names of the routes that a query picks, in order. -/
def listRoutes (c : Holdings ρ δ) (space : String) (kind : RouteKind) (query : Query) :
    Except ApiFailure (List String) :=
  let picked := c.routes.entries.filter fun e =>
    e.1.kind = kind && e.1.space = space && query.selects (f.routes.label? e.2)
  match picked.mapM fun e => f.routes.read? e.1 e.2 with
  | some routes => .ok (routes.map Route.name)
  | none => .error .unreadable

/-- Answers a request that asks for an object by the given name. -/
def answer (name : String) :
    (r : Request) → Holdings ρ δ → Except ApiFailure r.Answer × Holdings ρ δ
  | .getRoute space kind _, c =>
    (f.routes.answer ⟨kind, space, name⟩ (c.routes.get? ⟨kind, space, name⟩), c)
  | .updateRoute space route, c => c.updateRoute f ⟨route.kind, space, name⟩ route
  | .listRoutes space kind selector, c =>
    match Query.ofText? selector.expression with
    | some query => (c.listRoutes f space kind query, c)
    | none => (.error (.status 400), c)
  | .getDocument space _, c =>
    (f.documents.answer ⟨space, name⟩ (c.documents.get? ⟨space, name⟩), c)
  | .createDocument space _, c => c.createDocument f ⟨space, name⟩
  | .updateDocument space document, c => c.updateDocument f ⟨space, name⟩ document

end Holdings

/-- What a server holds that stores objects as they are. -/
abbrev Cluster := Holdings Route Document

/-- Answers a request. -/
def Cluster.respond : Program.Server Cluster := fun r c =>
  if r.isNamed then Holdings.answer .plain r.name r c else (.error .unsent, c)

end CanaryRouting
