import CanaryRouting.Data.KeyMap
import CanaryRouting.Gateway.Codec

/-!
# Label selectors

A selector picks objects by their labels. The API server takes it as one text, in which the terms
are separated by commas: `key=value` for a label that must have a value, and an operator with its
values for the other requirements (`LabelSelector.expression`). What the server makes of such a
text is a `Query`.
-/

namespace CanaryRouting

open Record

/-- A requirement on one label. -/
structure Requirement where
  /-- The label. -/
  key : String
  /-- How the label relates to the values. -/
  operator : String
  /-- The values. -/
  values : Option (List String)
  deriving DecidableEq

/-- A query over labels. -/
structure LabelSelector where
  /-- The values that labels must have. -/
  matchLabels : Option (KeyMap String String) := none
  /-- Further requirements on labels. -/
  matchExpressions : Option (List Requirement) := none
  deriving DecidableEq

/-- A text that may be missing or `null`, and is empty then. -/
def Record.textOrEmpty (name : String) : Record String :=
  (fun s => s.getD "") <$> optional name .text

/-- Reads a requirement. -/
def Requirement.decode : Decoder Requirement :=
  (mk <$> textOrEmpty "key"
    <*> textOrEmpty "operator"
    <*> optional "values" (.list .text)).lenientDecoder "LabelSelectorRequirement"

/-- Writes a requirement. -/
def Requirement.toJson (r : Requirement) : Json :=
  .record [
    Json.always "key" (.string r.key),
    Json.always "operator" (.string r.operator),
    Json.whenSome "values" (fun vs => .array (vs.map .string)) r.values]

/-- Reads a selector. -/
def LabelSelector.decode : Decoder LabelSelector :=
  ((fun expressions labels => mk labels expressions)
    <$> optional "matchExpressions" (.list Requirement.decode)
    <*> optional "matchLabels" (.keyed .text)).lenientDecoder "LabelSelector"

/-- Writes a selector. -/
def LabelSelector.toJson (s : LabelSelector) : Json :=
  .record [
    Json.whenSome "matchExpressions" (fun rs => .array (rs.map Requirement.toJson))
      s.matchExpressions,
    Json.whenSome "matchLabels" KeyMap.textsToJson s.matchLabels]

/-! ### The text of a selector -/

/-- The values of a requirement as its term shows them. -/
def Requirement.valueText (r : Requirement) : String := ",".intercalate (r.values.getD [])

/-- The term of a requirement. -/
def Requirement.term (r : Requirement) : String :=
  let values := r.valueText
  if r.operator = "In" then r.key ++ " in (" ++ values ++ ")"
  else if r.operator = "NotIn" then r.key ++ " notin (" ++ values ++ ")"
  else if r.operator = "Exists" then r.key
  else if r.operator = "DoesNotExist" then "!" ++ r.key
  else r.key ++ " " ++ r.operator ++ " (" ++ values ++ ")"

/-- The terms of a selector: first the label values in the order of the labels, then the further
requirements. -/
def LabelSelector.terms (s : LabelSelector) : List String :=
  ((s.matchLabels.getD KeyMap.empty).entries.map fun e => e.1 ++ "=" ++ e.2)
    ++ (s.matchExpressions.getD []).map Requirement.term

/-- The text of a selector. -/
def LabelSelector.expression (s : LabelSelector) : String := ",".intercalate s.terms

end CanaryRouting
