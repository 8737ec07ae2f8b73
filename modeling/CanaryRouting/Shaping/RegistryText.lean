import CanaryRouting.Gateway.Resource
import CanaryRouting.Json.Printer
import CanaryRouting.Shaping.Registry
import CanaryRouting.Text.Blank

/-!
# Managed routes in a document

The registry document keeps the managed routes of each kind of route as a JSON text under a key of
their own. No text, or a blank one, stands for no entries.
-/

namespace CanaryRouting.ManagedRoutes

/-- Reads managed routes. -/
def decode : Decoder ManagedRoutes := Decoder.map mk (.keyed (.keyed .position))

/-- Writes managed routes. -/
def toJson (m : ManagedRoutes) : Json :=
  .object (m.entries.entries.map fun e =>
    (e.1, .object (e.2.entries.map fun r => (r.1, .ofInt r.2))))

/-- The managed routes under a key of the document. -/
def load (d : Document) (key : String) : Except RoutingError ManagedRoutes :=
  let text := (d.text? key).getD ""
  if Text.allBlank text then .ok empty
  else (decode.ofText text).mapError fun _ => .documentDecode key

/-- Writes the managed routes under a key of the document. -/
def store (m : ManagedRoutes) (d : Document) (key : String) : Document :=
  d.setText key m.toJson.compress

end CanaryRouting.ManagedRoutes
