import CanaryRouting.Data.KeyMap

/-!
# Queries over labels

What an API server reads from the text of a label selector. The text is cut at the commas before
which as many parentheses are closed as opened, and each piece puts one condition on the labels of an object: that a
label has a value or one of several, that it has none of several, that it exists, or that it does
not. A text without pieces picks every object; one with a piece that the server does not
understand is refused.
-/

namespace CanaryRouting

/-- A condition on one label. -/
inductive LabelTerm where
  /-- The label has one of the values. -/
  | among (key : String) (values : List String)
  /-- The label has none of the values, or the object does not have the label. -/
  | notAmong (key : String) (values : List String)
  /-- The object has the label. -/
  | present (key : String)
  /-- The object does not have the label. -/
  | missing (key : String)
  deriving DecidableEq, Repr

/-- Conditions on labels, all of which an object has to meet. -/
abbrev Query := List LabelTerm

namespace LabelTerm

/-- Whether labels meet a condition; `label?` gives what stands under a label, if anything does, and
if it is a text. -/
def holds (label? : String → Option (Option String)) : LabelTerm → Bool
  | among key values => (label? key).join.any values.contains
  | notAmong key values => (label? key).join.all fun v => !values.contains v
  | present key => (label? key).isSome
  | missing key => (label? key).isNone

/-- The condition that an operator and the text of its values express, if there is a value. -/
def ofOperator? (operator key values : String) : Option LabelTerm :=
  if values = "" then none
  else if operator = "in" then some (among key (values.splitOn ","))
  else if operator = "notin" then some (notAmong key (values.splitOn ","))
  else none

/-- What stands between an opening parenthesis in front and a closing one at the end. -/
def enclosed? : List Char → Option (List Char)
  | '(' :: cs => if cs.getLast? = some ')' then some cs.dropLast else none
  | _ => none

/-- The condition that a piece expresses, if the server understands it. A piece with a blank is a
key, an operator and values in parentheses, each a blank apart from the next; any other is about
one value, or says whether the label is there. -/
def ofPiece? (piece : List Char) : Option LabelTerm :=
  match piece.dropWhile (· ≠ ' ') with
  | _ :: rest =>
    (enclosed? ((rest.dropWhile (· ≠ ' ')).drop 1)).bind fun values =>
      ofOperator? (String.ofList (rest.takeWhile (· ≠ ' ')))
        (String.ofList (piece.takeWhile (· ≠ ' '))) (String.ofList values)
  | [] =>
    match piece.dropWhile (· ≠ '='), piece with
    | _ :: value, _ => some (among (String.ofList (piece.takeWhile (· ≠ '='))) [String.ofList value])
    | [], '!' :: key => some (missing (String.ofList key))
    | [], key => some (present (String.ofList key))

end LabelTerm

namespace Query

/-- How much deeper in parentheses a text is behind a character than before it. -/
def nesting (c : Char) : Int := if c = '(' then 1 else if c = ')' then -1 else 0

/-- Cuts a text at the commas before which as many parentheses are closed as opened; `depth` says
how many more are open where the text begins. No piece begins behind a comma at the end. -/
def pieces (depth : Int) : List Char → List (List Char)
  | [] => []
  | c :: cs =>
    if c = ',' ∧ depth = 0 then [] :: pieces 0 cs
    else
      match pieces (depth + nesting c) cs with
      | p :: ps => (c :: p) :: ps
      | [] => [[c]]

/-- The query that a text expresses, if the server understands it. -/
def ofText? (text : String) : Option Query := (pieces 0 text.toList).mapM LabelTerm.ofPiece?

/-- Whether a query picks an object with these labels. -/
def selects (q : Query) (label? : String → Option (Option String)) : Bool :=
  q.all (·.holds label?)

end Query

end CanaryRouting
