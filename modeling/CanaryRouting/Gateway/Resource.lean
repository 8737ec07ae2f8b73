import CanaryRouting.Data.KeyMap
import CanaryRouting.Gateway.Kind
import CanaryRouting.Gateway.Rule

/-!
# Stored resources

The API server keeps two sorts of objects for this library: routes, and the documents that record
which rules of a route were injected. Both carry metadata with a resource version, by which the
server tells whether an update was made from the stored state.
-/

namespace CanaryRouting

/-- What every stored object carries. -/
structure Metadata where
  /-- The name of the object. -/
  name : Option String := none
  /-- The beginning of a name that the server is to make up. -/
  generateName : Option String := none
  /-- The namespace of the object. -/
  space : Option String := none
  /-- The labels that selectors look at. -/
  labels : Option (KeyMap String String) := none
  /-- The annotations. -/
  annotations : Option (KeyMap String String) := none
  /-- The version of the stored state. -/
  resourceVersion : Option String := none
  /-- What else the server keeps about the object. -/
  others : List (String × Json) := []
  deriving DecidableEq

/-- The name an object goes by. -/
def Metadata.objectName (m : Metadata) : String :=
  (m.name.orElse fun _ => m.generateName).getD ""

/-- The metadata with another version. -/
def Metadata.withVersion (m : Metadata) (version : Option String) : Metadata :=
  { m with resourceVersion := version }

/-- A route of any kind. -/
structure Route where
  /-- The kind of route. -/
  kind : RouteKind
  /-- The metadata. -/
  metadata : Metadata := {}
  /-- The rules, in the order in which they are tried. -/
  ruleList : Option (List Rule) := none
  /-- The other parts of the specification. -/
  others : List (String × Json) := []
  /-- What the gateways say about the route. -/
  status : Option Json := none
  deriving DecidableEq

namespace Route

/-- The rules; a route without a list has none. -/
def rules (r : Route) : List Rule := r.ruleList.getD []

/-- The route with other rules. -/
def withRules (r : Route) (rules : List Rule) : Route := { r with ruleList := some rules }

/-- The name the route goes by. -/
def name (r : Route) : String := r.metadata.objectName

/-- The route with another version. -/
def withVersion (r : Route) (version : Option String) : Route :=
  { r with metadata := r.metadata.withVersion version }

/-- The route as it is apart from its version. -/
def unversioned (r : Route) : Route := r.withVersion none

/-- The names and weights of the backend references, rule by rule. -/
def backendWeights (r : Route) : List (List (String × Option Int)) :=
  r.rules.map fun rule => rule.refs.map fun b => (b.name, b.weight)

end Route

/-- A document: texts under keys. -/
structure Document where
  /-- The metadata. -/
  metadata : Metadata := {}
  /-- The texts. -/
  data : Option (KeyMap String String) := none
  /-- The other parts of the document. -/
  others : List (String × Json) := []
  deriving DecidableEq

namespace Document

/-- The text under a key. -/
def text? (d : Document) (key : String) : Option String := d.data.bind fun m => m.get? key

/-- Puts a text under a key. -/
def setText (d : Document) (key text : String) : Document :=
  { d with data := some ((d.data.getD KeyMap.empty).insert key text) }

/-- The document with another version. -/
def withVersion (d : Document) (version : Option String) : Document :=
  { d with metadata := d.metadata.withVersion version }

/-- The name the document goes by. -/
def name (d : Document) : String := d.metadata.objectName

theorem text?_setText (d : Document) (k j text : String) :
    (d.setText k text).text? j = if k = j then some text else d.text? j := by
  cases d with
  | mk metadata data others => cases data <;> simp [setText, text?, KeyMap.get?_insert]

end Document

end CanaryRouting
