import CanaryRouting.Gateway.Kind
import CanaryRouting.Gateway.Timestamp
import CanaryRouting.Json.Decoder
import CanaryRouting.Text.Base64

/-!
# Copied parts

Much of a resource is only copied. A `Shape` says what form such a part has and which members;
members it does not name are dropped, and so is `null` where a member is optional. Reading a part
yields it in the form in which it is written again: a time, for instance, in UTC.

Most objects may also be given as lists of their members, which then stand in the order of their
names. Those that the server itself defines, for all sorts of resources, may not.
-/

namespace CanaryRouting

/-! ### Shapes -/

/-- What happens where a member is absent or `null`. -/
inductive Presence where
  /-- It is left out. -/
  | optional
  /-- It must not be. -/
  | required
  /-- It has this value. -/
  | defaulted (value : Json)

/-- The form of a part that is copied without being looked at. -/
inductive Shape where
  /-- Any value. -/
  | any
  /-- A text. -/
  | text
  /-- One of several words. -/
  | word (allowed : List String)
  /-- A point in time. -/
  | timestamp
  /-- Bytes, coded as a text; `null` codes none. -/
  | bytes
  /-- A truth value. -/
  | bool
  /-- A whole number of 32 bits. -/
  | int32
  /-- A whole number of 64 bits. -/
  | int64
  /-- A list of parts. -/
  | list (item : Shape)
  /-- Parts under keys. -/
  | keyed (item : Shape)
  /-- An object with these members, or the list of them. -/
  | object (members : List (String × Presence × Shape))
  /-- An object with these members, of which a repeated one counts as it is given last. -/
  | lenientObject (members : List (String × Presence × Shape))

namespace Shape

/-- Reads a text and puts it into the form in which it is written again, if it has one. -/
def rewritten (write? : String → Option String) : Decoder Json := fun w =>
  (Decoder.text w).bind fun s =>
    match write? s with
    | some s => .ok (.string s)
    | none => .error .unreadableText

/-- Reads coded bytes. -/
def decodeBytes : Decoder Json
  | .null => .ok (.string "")
  | w => rewritten (fun s => if Text.isBase64 s then some s else none) w

mutual

/-- Reads a part of the given form. -/
def decode : Shape → Decoder Json
  | .any => Decoder.json
  | .text => fun w => (Decoder.text w).map .string
  | .word allowed => fun w => (Decoder.variant (allowed.map fun a => (a, a)) w).map .string
  | .timestamp => rewritten fun s => (Timestamp.ofText? s).map Timestamp.text
  | .bytes => decodeBytes
  | .bool => fun w => (Decoder.boolean w).map .bool
  | .int32 => fun w => (Decoder.int32 w).map .ofInt
  | .int64 => fun w => (Decoder.int64 w).map .ofInt
  | .list item => fun w => (Decoder.list (decode item) w).map .array
  | .keyed item => fun w => (Decoder.keyed (decode item) w).map fun m => .object m.entries
  | .object members => fun w => ((record members).decoder "object" w).map .object
  | .lenientObject members => fun w => ((record members).lenientDecoder "object" w).map .object

/-- The members of a part, each present one with its name. -/
def record : List (String × Presence × Shape) → Record (List (String × Json))
  | [] => { slots := [], build := fun _ => .ok [] }
  | (name, .optional, shape) :: ms =>
    (fun x xs => (x.map fun v => (name, v)).toList ++ xs)
      <$> Record.optional name (decode shape) <*> record ms
  | (name, .required, shape) :: ms =>
    (fun x xs => (name, x) :: xs) <$> Record.required name (decode shape) <*> record ms
  | (name, .defaulted value, shape) :: ms =>
    (fun x xs => (name, x.getD value) :: xs)
      <$> Record.optional name (decode shape) <*> record ms

end

/-- A member that may be absent. -/
def may (name : String) (shape : Shape) : String × Presence × Shape := (name, .optional, shape)

/-- A member that must be there. -/
def must (name : String) (shape : Shape) : String × Presence × Shape := (name, .required, shape)

/-- A text that is empty if it is absent. -/
def orEmpty (name : String) : String × Presence × Shape := (name, .defaulted (.string ""), .text)

/-! ### Parts -/

/-- A named value: a header or a query parameter. -/
def namedValue : Shape := .object [must "name" .text, must "value" .text]

/-- Headers to add, to set and to remove. -/
def headerModifier : Shape :=
  .object [may "add" (.list namedValue), may "remove" (.list .text), may "set" (.list namedValue)]

/-- A replacement of a path. -/
def pathModifier : Shape :=
  .object [may "replaceFullPath" .text, may "replacePrefixMatch" .text,
    must "type" (.word ["ReplaceFullPath", "ReplacePrefixMatch"])]

/-- A reference to another object. -/
def objectRef : Shape :=
  .object [may "group" .text, may "kind" .text, must "name" .text, may "namespace" .text,
    may "port" .int32]

/-- A backend that gets a copy of requests. -/
def requestMirror : Shape :=
  .object [
    must "backendRef" objectRef,
    may "fraction" (.object [may "denominator" .int32, must "numerator" .int32]),
    may "percent" .int32]

/-- A reference to something that another API defines. -/
def extensionRef : Shape :=
  .object [must "group" .text, must "kind" .text, must "name" .text]

/-- What a client is told to request instead. -/
def requestRedirect : Shape :=
  .object [
    may "hostname" .text, may "path" pathModifier, may "port" .int32,
    may "scheme" (.word ["http", "https"]), may "statusCode" .int64]

/-- The types of filter that every kind of route with filters has. -/
def commonFilters : List String :=
  ["RequestHeaderModifier", "ResponseHeaderModifier", "RequestMirror", "ExtensionRef"]

/-- Something that is done to requests or responses. Those of GRPC calls are neither redirected
nor changed in their paths. -/
def filter : RouteKind → Shape
  | .http =>
    .object [
      may "extensionRef" extensionRef,
      may "requestHeaderModifier" headerModifier,
      may "requestMirror" requestMirror,
      may "requestRedirect" requestRedirect,
      may "responseHeaderModifier" headerModifier,
      must "type" (.word (commonFilters ++ ["RequestRedirect", "URLRewrite"])),
      may "urlRewrite" (.object [may "hostname" .text, may "path" pathModifier])]
  | .grpc | .tcp | .tls =>
    .object [
      may "extensionRef" extensionRef,
      may "requestHeaderModifier" headerModifier,
      may "requestMirror" requestMirror,
      may "responseHeaderModifier" headerModifier,
      must "type" (.word commonFilters)]

/-- How a name or a value is compared. -/
def comparison : Shape := .word ["Exact", "RegularExpression"]

/-- The parts of a condition other than its header predicates. -/
def condition : RouteKind → List (String × Presence × Shape)
  | .http => [
      may "method" (.word
        ["GET", "HEAD", "POST", "PUT", "DELETE", "CONNECT", "OPTIONS", "TRACE", "PATCH"]),
      may "path" (.object [
        may "type" (.word ["Exact", "PathPrefix", "RegularExpression"]), may "value" .text]),
      may "queryParams"
        (.list (.object [must "name" .text, may "type" comparison, must "value" .text]))]
  | .grpc => [
      may "method" (.object [may "method" .text, may "service" .text, may "type" comparison])]
  | .tcp | .tls => []

/-- The time limits of an HTTP rule. -/
def timeouts : Shape := .object [may "backendRequest" .text, may "request" .text]

/-- A gateway that a route is attached to. -/
def parentRef : Shape :=
  .object [may "group" .text, may "kind" .text, must "name" .text, may "namespace" .text,
    may "port" .int32, may "sectionName" .text]

/-- Which gateways a route is attached to if it names none. -/
def defaultGateways : Shape := .word ["All", "None"]

/-- The parts of a specification that stand before its rules in a list. -/
def leading : RouteKind → List (String × Presence × Shape)
  | .http | .grpc => [may "hostnames" (.list .text), may "parentRefs" (.list parentRef)]
  | .tcp => [may "parentRefs" (.list parentRef)]
  | .tls => [must "hostnames" (.list .text), may "parentRefs" (.list parentRef)]

/-- The parts of a specification that stand behind its rules in a list. -/
def trailing : RouteKind → List (String × Presence × Shape)
  | .http | .grpc => []
  | .tcp | .tls => [may "useDefaultGateways" defaultGateways]

/-- One thing that is known about a route. -/
def statusCondition : Shape :=
  .lenientObject [
    must "lastTransitionTime" .timestamp, orEmpty "message", may "observedGeneration" .int64,
    orEmpty "reason", orEmpty "status", orEmpty "type"]

/-- What the gateways say about a route. -/
def status : Shape :=
  .object [
    must "parents" (.list (.object [
      must "conditions" (.list statusCondition), must "controllerName" .text,
      must "parentRef" parentRef]))]

/-- An object that another one belongs to. -/
def ownerReference : Shape :=
  .lenientObject [
    orEmpty "apiVersion", may "blockOwnerDeletion" .bool, may "controller" .bool, orEmpty "kind",
    orEmpty "name", orEmpty "uid"]

/-- Which members of an object somebody has set. -/
def managedFields : Shape :=
  .lenientObject [
    may "apiVersion" .text, may "fieldsType" .text, may "fieldsV1" .any, may "manager" .text,
    may "operation" .text, may "subresource" .text, may "time" .timestamp]

/-- The metadata that the server keeps for itself and for others. -/
def bookkeeping : List (String × Presence × Shape) := [
  may "creationTimestamp" .timestamp, may "deletionGracePeriodSeconds" .int64,
  may "deletionTimestamp" .timestamp, may "finalizers" (.list .text), may "generation" .int64,
  may "managedFields" (.list managedFields), may "ownerReferences" (.list ownerReference),
  may "selfLink" .text, may "uid" .text]

/-- The parts of a document other than its texts. -/
def document : List (String × Presence × Shape) :=
  [may "binaryData" (.keyed .bytes), may "immutable" .bool]

end Shape

end CanaryRouting
