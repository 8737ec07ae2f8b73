import CanaryRouting.Shaping.RegistryText
import CanaryRouting.Store.Program
import CanaryRouting.Store.Transaction

/-!
# Writes that can be undone

The two writes that a change of header routes consists of: that of a route, and that of the
registry document that says which of its rules were injected. Undoing a write stores the earlier
content again. It carries the version that the write itself produced, so it fails if the object
has been changed since.
-/

namespace CanaryRouting

/-! ### Routes -/

/-- The replacement of a route. -/
structure RouteWrite where
  /-- The namespace of the route. -/
  space : String
  /-- The route as it was read. -/
  before : Route
  /-- The route as it is to be. -/
  after : Route
  /-- The route as the server stored it, once it has. -/
  written : Option Route := none
  deriving DecidableEq

namespace RouteWrite

/-- What the write does, as messages say it. -/
def describe (w : RouteWrite) : String :=
  "update " ++ w.after.kind.name ++ " " ++ w.space ++ "/" ++ w.after.name

/-- Stores the new route. -/
def apply (w : RouteWrite) : Program (Except StoreError RouteWrite) := do
  return (← Store.updateRoute w.space w.after).map fun stored => { w with written := some stored }

/-- The earlier route, with the version that the write produced. -/
def revert (w : RouteWrite) : Route :=
  match w.written with
  | some stored => w.before.withVersion stored.metadata.resourceVersion
  | none => w.before

/-- Stores the earlier route again. -/
def compensate (w : RouteWrite) : Program (Except StoreError RouteWrite) := do
  return (← Store.updateRoute w.space w.revert).map fun _ => { w with written := none }

instance : Reversible Program RouteWrite := ⟨describe, apply, compensate⟩

end RouteWrite

/-! ### Registry documents -/

/-- The replacement of the managed routes of one kind in a registry document. -/
structure DocumentWrite where
  /-- The namespace of the document. -/
  space : String
  /-- The document with the new managed routes. -/
  forward : Document
  /-- The document with the earlier managed routes. -/
  backward : Document
  /-- The document as the server stored it, once it has. -/
  written : Option Document := none
  deriving DecidableEq

namespace DocumentWrite

/-- The write that changes the managed routes under a key of a document. Both texts are made
beforehand, so applying and undoing only send requests. -/
def make (space : String) (document : Document) (key : String) (before after : ManagedRoutes) :
    DocumentWrite where
  space := space
  forward := after.store document key
  backward := before.store document key

/-- What the write does, as messages say it. -/
def describe (w : DocumentWrite) : String :=
  "update ConfigMap " ++ w.space ++ "/" ++ w.forward.metadata.name.getD ""

/-- Stores the document with the new managed routes. -/
def apply (w : DocumentWrite) : Program (Except StoreError DocumentWrite) := do
  return (← Store.updateDocument w.space w.forward).map
    fun stored => { w with written := some stored }

/-- The document with the earlier managed routes, with the version that the write produced. -/
def revert (w : DocumentWrite) : Document :=
  match w.written with
  | some stored => w.backward.withVersion stored.metadata.resourceVersion
  | none => w.backward

/-- Stores the document with the earlier managed routes. -/
def compensate (w : DocumentWrite) : Program (Except StoreError DocumentWrite) := do
  return (← Store.updateDocument w.space w.revert).map fun _ => { w with written := none }

instance : Reversible Program DocumentWrite := ⟨describe, apply, compensate⟩

end DocumentWrite

/-! ### Either of them -/

/-- A write of a transaction. -/
inductive Write where
  /-- The write of a route. -/
  | route (write : RouteWrite)
  /-- The write of a registry document. -/
  | document (write : DocumentWrite)
  deriving DecidableEq

namespace Write

/-- What the write does, as messages say it. -/
def describe : Write → String
  | .route w => w.describe
  | .document w => w.describe

/-- Applies the write. -/
def apply : Write → Program (Except StoreError Write)
  | .route w => do return (← w.apply).map .route
  | .document w => do return (← w.apply).map .document

/-- Undoes the write. -/
def compensate : Write → Program (Except StoreError Write)
  | .route w => do return (← w.compensate).map .route
  | .document w => do return (← w.compensate).map .document

/-- The document as the write stored it. -/
def writtenDocument? : Write → Option Document
  | .route _ => none
  | .document w => w.written

instance : Reversible Program Write := ⟨describe, apply, compensate⟩

end Write

end CanaryRouting
