import CanaryRouting.Json.Basic

/-!
# The schema of routing configurations

A JSON schema for the routing configuration of a rollout, for editors and validators. It is put
together from a list of the fields with their forms and descriptions.
-/

namespace CanaryRouting.Schema

/-- A member with a text. -/
def textMember (key value : String) : String × Json := (key, .string value)

/-- The description of a part, if it has one. -/
def describing (description : Option String) : List (String × Json) :=
  (description.map fun d => textMember "description" d).toList

/-- The keywords that are written first, in this order. -/
def leading : List String := ["$schema", "title", "description", "type", "properties"]

/-- A schema with these members: first the leading keywords, then the others in key order, and
the definitions last. -/
def schema (members : List (String × Json)) : Json :=
  let later := (members.filter fun m => !leading.contains m.1).partition fun m => m.1 ≠ "$defs"
  .object ((leading.filterMap fun key => members.find? fun m => m.1 = key)
    ++ later.1.foldr (fun m ms => Json.insertMember m.1 m.2 ms) [] ++ later.2)

/-- Named schemas, in the order of their names. -/
def named (members : List (String × Json)) : Json :=
  .object (members.foldr (fun m ms => Json.insertMember m.1 m.2 ms) [])

/-- The form of a field. -/
inductive Form where
  /-- A text or `null`. -/
  | optionalText
  /-- A truth value that is false by default. -/
  | flag
  /-- A list of named routes. -/
  | entries
  /-- A label selector or `null`. -/
  | optionalSelector

/-- A reference to a definition. -/
def ref (name : String) : String × Json := textMember "$ref" ("#/$defs/" ++ name)

/-- The name of the definition of label selectors. -/
def selectorName : String := "io.k8s.apimachinery.pkg.apis.meta.v1.LabelSelector"

/-- The name of the definition of requirements. -/
def requirementName : String := "io.k8s.apimachinery.pkg.apis.meta.v1.LabelSelectorRequirement"

/-- The members that a form gives to a schema. -/
def Form.members : Form → List (String × Json)
  | .optionalText => [("type", .array [.string "string", .string "null"])]
  | .flag => [("default", .bool false), textMember "type" "boolean"]
  | .entries => [("items", .object [ref "RouteEntry"]), textMember "type" "array"]
  | .optionalSelector =>
    [("anyOf", .array [.object [ref selectorName], .object [textMember "type" "null"]])]

/-- A field of the configuration. -/
structure Field where
  /-- Its name. -/
  name : String
  /-- Its form. -/
  form : Form
  /-- What it means. -/
  description : Option String := none

/-- The fields of the configuration. -/
def fields : List Field := [
  ⟨"httpRoute", .optionalText, some "Single HTTPRoute (header routes enabled)"⟩,
  ⟨"grpcRoute", .optionalText, some "Single GRPCRoute (header routes enabled)"⟩,
  ⟨"tcpRoute", .optionalText, some "Single TCPRoute"⟩,
  ⟨"tlsRoute", .optionalText, some "Single TLSRoute"⟩,
  ⟨"httpRoutes", .entries, none⟩,
  ⟨"grpcRoutes", .entries, none⟩,
  ⟨"tcpRoutes", .entries, none⟩,
  ⟨"tlsRoutes", .entries, none⟩,
  ⟨"httpRouteSelector", .optionalSelector,
    some "Every HTTPRoute in the namespace matching this selector is shaped too"⟩,
  ⟨"grpcRouteSelector", .optionalSelector, none⟩,
  ⟨"tcpRouteSelector", .optionalSelector, none⟩,
  ⟨"tlsRouteSelector", .optionalSelector, none⟩,
  ⟨"namespace", .optionalText,
    some "Namespace of the routes and the registry ConfigMap (default: the rollout's)"⟩,
  ⟨"configMap", .optionalText,
    some "Name of the registry ConfigMap (default: argo-gatewayapi-configmap)"⟩,
  ⟨"disableInProgressLabel", .flag, some "Never label routes while a canary is in progress"⟩,
  ⟨"inProgressLabelKey", .optionalText, none⟩,
  ⟨"inProgressLabelValue", .optionalText, none⟩]

/-- The schemas of fields, by name. -/
def properties (fs : List Field) : Json :=
  named (fs.map fun f => (f.name, schema (f.form.members ++ describing f.description)))

/-- A text with a description. -/
def describedText (description : String) : Json :=
  schema [textMember "description" description, textMember "type" "string"]

/-- The definition of named routes. -/
def routeEntry : Json :=
  schema [
    textMember "description" "A named route in a per-kind route list",
    ("properties", named [
      ("name", schema [textMember "type" "string"]),
      ("useHeaderRoutes", schema
        (Form.flag.members ++ describing "Whether header routes are injected into this route"))]),
    ("required", .array [.string "name"]),
    textMember "type" "object"]

/-- The definition of label selectors. -/
def labelSelector : Json :=
  schema [
    textMember "description"
      ("A label selector is a label query over a set of resources. The result of matchLabels and "
        ++ "matchExpressions are ANDed. An empty label selector matches all objects. A null label "
        ++ "selector matches no objects."),
    ("properties", named [
      ("matchExpressions", schema [
        textMember "description"
          ("matchExpressions is a list of label selector requirements. The requirements are "
            ++ "ANDed."),
        ("items", .object [ref requirementName]),
        textMember "type" "array"]),
      ("matchLabels", schema [
        ("additionalProperties", schema [textMember "type" "string"]),
        textMember "description"
          ("matchLabels is a map of \x7bkey,value\x7d pairs. A single \x7bkey,value\x7d in the "
            ++ "matchLabels map is equivalent to an element of matchExpressions, whose key field "
            ++ "is \"key\", the operator is \"In\", and the values array contains only \"value\". "
            ++ "The requirements are ANDed."),
        textMember "type" "object"])]),
    textMember "type" "object"]

/-- The definition of requirements. -/
def requirement : Json :=
  schema [
    textMember "description"
      ("A label selector requirement is a selector that contains values, a key, and an operator "
        ++ "that relates the key and values."),
    ("properties", named [
      ("key", describedText "key is the label key that the selector applies to."),
      ("operator", describedText
        ("operator represents a key's relationship to a set of values. Valid operators are In, "
          ++ "NotIn, Exists and DoesNotExist.")),
      ("values", schema [
        textMember "description"
          ("values is an array of string values. If the operator is In or NotIn, the values array "
            ++ "must be non-empty. If the operator is Exists or DoesNotExist, the values array "
            ++ "must be empty. This array is replaced during a strategic merge patch."),
        ("items", schema [textMember "type" "string"]),
        textMember "type" "array"])]),
    ("required", .array [.string "key", .string "operator"]),
    textMember "type" "object"]

/-- The schema of routing configurations. -/
def routingConfiguration : Json :=
  schema [
    textMember "$schema" ("https:" ++ "//json-schema.org/draft/2020-12/schema"),
    textMember "title" "GatewayAPITrafficRouting",
    textMember "description"
      ("Gateway API traffic routing configuration\n\nCompatible with the "
        ++ "`plugins.argoproj-labs/gatewayAPI` block of an Argo\nRollout."),
    textMember "type" "object",
    ("properties", properties fields),
    ("$defs", named [
      ("RouteEntry", routeEntry),
      (selectorName, labelSelector),
      (requirementName, requirement)])]

end CanaryRouting.Schema
