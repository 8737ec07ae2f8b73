import CanaryRouting.Gateway.Resource
import CanaryRouting.Gateway.Shape

/-!
# Resources as JSON

How routes and documents are read from JSON and written to it. Of what the library does not look
at, a `Shape` says what is copied; the rest is dropped. The parts of a route may also be given as
lists of their members, which then stand in the order of their names.
-/

namespace CanaryRouting

/-! ### Kinds -/

/-- Reads the name of a kind of route. -/
def RouteKind.decode : Decoder RouteKind := .variant (RouteKind.all.map fun k => (k.name, k))

/-- Writes the name of a kind of route. -/
def RouteKind.toJson (k : RouteKind) : Json := .string k.name

/-! ### Rules -/

open Record in
/-- Reads a header predicate. -/
def HeaderPredicate.decode : Decoder HeaderPredicate :=
  (mk <$> required "name" .text
    <*> optional "type"
      (.variant [("Exact", MatchKind.exact), ("RegularExpression", .regularExpression)])
    <*> required "value" .text).decoder "HeaderPredicate"

/-- Writes a header predicate. -/
def HeaderPredicate.toJson (h : HeaderPredicate) : Json :=
  .record [
    Json.always "name" (.string h.name),
    Json.whenSome "type" (fun k => .string k.word) h.kind,
    Json.always "value" (.string h.value)]

open Record in
/-- Reads a condition. -/
def Condition.decode (kind : RouteKind) : Decoder Condition :=
  (mk <$> optional "headers" (.list HeaderPredicate.decode)
    <*> Shape.record (Shape.condition kind)).decoder "Condition"

/-- Writes a condition. -/
def Condition.toJson (c : Condition) : Json :=
  .object ((Json.whenSome "headers" (fun hs => .array (hs.map HeaderPredicate.toJson))
    c.headers).toList ++ c.others)

open Record in
/-- Reads the filters of a rule or of a backend reference; TCP and TLS rules have none. -/
def Record.filters (kind : RouteKind) : Record (Option (List Json)) :=
  if kind.supportsHeaderRoutes then optional "filters" (.list (Shape.filter kind).decode)
  else absent

open Record in
/-- Reads a backend reference. -/
def BackendRef.decode (kind : RouteKind) : Decoder BackendRef :=
  ((fun filters group kind name space port weight =>
      { name, weight, port, group, kind, space, filters : BackendRef })
    <$> Record.filters kind
    <*> optional "group" .text
    <*> optional "kind" .text
    <*> required "name" .text
    <*> optional "namespace" .text
    <*> optional "port" .int32
    <*> optional "weight" .int32).decoder "BackendRef"

/-- Writes a backend reference. -/
def BackendRef.toJson (b : BackendRef) : Json :=
  .record [
    Json.whenSome "filters" .array b.filters,
    Json.whenSome "group" .string b.group,
    Json.whenSome "kind" .string b.kind,
    Json.always "name" (.string b.name),
    Json.whenSome "namespace" .string b.space,
    Json.whenSome "port" .ofInt b.port,
    Json.whenSome "weight" .ofInt b.weight]

open Record in
/-- Reads a rule; one of a TCP or TLS route has backend references and no conditions. -/
def Rule.decode (kind : RouteKind) : Decoder Rule :=
  ((fun backendRefs filters conditions name timeouts =>
      { name, conditions, filters, timeouts, backendRefs : Rule })
    <$> (if kind.supportsHeaderRoutes then
        optional "backendRefs" (.list (BackendRef.decode kind))
      else some <$> required "backendRefs" (.list (BackendRef.decode kind)))
    <*> Record.filters kind
    <*> (if kind.supportsHeaderRoutes then optional "matches" (.list (Condition.decode kind))
      else absent)
    <*> optional "name" .text
    <*> (if kind = .http then optional "timeouts" Shape.timeouts.decode
      else absent)).decoder "Rule"

/-- Writes a rule. -/
def Rule.toJson (r : Rule) : Json :=
  .record [
    Json.whenSome "backendRefs" (fun bs => .array (bs.map BackendRef.toJson)) r.backendRefs,
    Json.whenSome "filters" .array r.filters,
    Json.whenSome "matches" (fun cs => .array (cs.map Condition.toJson)) r.conditions,
    Json.whenSome "name" .string r.name,
    Json.whenSome "timeouts" id r.timeouts]

/-! ### Objects -/

/-- Writes a map of texts. -/
def KeyMap.textsToJson (m : KeyMap String String) : Json :=
  .object (m.entries.map fun e => (e.1, .string e.2))

open Record in
/-- Reads metadata. -/
def Metadata.decode : Decoder Metadata :=
  (mk <$> optional "name" .text
    <*> optional "generateName" .text
    <*> optional "namespace" .text
    <*> optional "labels" (.keyed .text)
    <*> optional "annotations" (.keyed .text)
    <*> optional "resourceVersion" .text
    <*> Shape.record Shape.bookkeeping).lenientDecoder "Metadata"

/-- Writes metadata. -/
def Metadata.toJson (m : Metadata) : Json :=
  .object ([
    Json.whenSome "annotations" KeyMap.textsToJson m.annotations,
    Json.whenSome "generateName" .string m.generateName,
    Json.whenSome "labels" KeyMap.textsToJson m.labels,
    Json.whenSome "name" .string m.name,
    Json.whenSome "namespace" .string m.space,
    Json.whenSome "resourceVersion" .string m.resourceVersion].filterMap id ++ m.others)

open Record in
/-- Reads the rules of a route's specification, and its other parts. -/
def Route.decodeSpecification (kind : RouteKind) :
    Decoder (Option (List Rule) × List (String × Json)) :=
  ((fun before rules behind => (rules, before ++ behind))
    <$> Shape.record (Shape.leading kind)
    <*> (if kind.supportsHeaderRoutes then optional "rules" (.list (Rule.decode kind))
      else some <$> required "rules" (.list (Rule.decode kind)))
    <*> Shape.record (Shape.trailing kind)).decoder "Specification"

open Record in
/-- Reads a route of the given kind. -/
def Route.decode (kind : RouteKind) : Decoder Route :=
  ((fun metadata (spec : Option (List Rule) × List (String × Json)) status =>
      { kind, metadata, ruleList := spec.1, others := spec.2, status })
    <$> required "metadata" Metadata.decode
    <*> required "spec" (Route.decodeSpecification kind)
    <*> nullable "status" Shape.status.decode).decoder "Route"

open Record in
/-- Reads the metadata of a list, of which nothing is used. -/
def Route.decodeListMetadata : Decoder Unit :=
  ((fun _ _ _ _ => ())
    <$> optional "continue" .text
    <*> optional "remainingItemCount" .int64
    <*> optional "resourceVersion" .text
    <*> optional "selfLink" .text).lenientDecoder "ListMeta"

open Record in
/-- Reads the names of a list of routes of the given kind. -/
def Route.decodeNames (kind : RouteKind) : Decoder (List String) :=
  ((fun _ routes => (routes.getD []).map Route.name)
    <$> defaulted "metadata" Route.decodeListMetadata ()
    <*> required "items" (.optional (.list (Route.decode kind)))).lenientDecoder "List"

/-- Writes a route. -/
def Route.toJson (r : Route) : Json :=
  .record [
    Json.always "metadata" r.metadata.toJson,
    Json.always "spec" (.object ((Json.whenSome "rules" (fun rs => .array (rs.map Rule.toJson))
      r.ruleList).toList ++ r.others)),
    Json.whenSome "status" id r.status]

open Record in
/-- Reads a document; one that says what it is must say so rightly. -/
def Document.decode : Decoder Document :=
  ((fun _ _ metadata data others => { metadata := metadata.getD {}, data, others : Document })
    <$> defaulted "apiVersion" (.only "v1") ()
    <*> defaulted "kind" (.only "ConfigMap") ()
    <*> optional "metadata" Metadata.decode
    <*> optional "data" (.keyed .text)
    <*> Shape.record Shape.document).lenientDecoder "Document"

/-- Writes a document. -/
def Document.toJson (d : Document) : Json :=
  .object ([
    Json.whenSome "data" KeyMap.textsToJson d.data,
    Json.always "metadata" d.metadata.toJson].filterMap id ++ d.others)

end CanaryRouting
