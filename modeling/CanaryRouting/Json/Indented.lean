import CanaryRouting.Json.Printer

/-!
# Indented JSON texts

The text of a value for people to read: every item and every member is on a line of its own,
indented by two blanks more than the brackets around it. Empty lists and objects stay on one line.
-/

namespace CanaryRouting.Json

/-- A new line, indented to a level. -/
def newLine (level : Nat) : List Char := '\n' :: List.replicate (2 * level) ' '

mutual

/-- A value as it is written at a level of indentation. -/
def indentedChars (level : Nat) : Json → List Char
  | .array [] => ['[', ']']
  | .array (x :: xs) => '[' :: indentedItems level (x :: xs)
  | .object [] => ['\x7b', '\x7d']
  | .object (m :: ms) => '\x7b' :: indentedMembers level (m :: ms)
  | plain => plain.chars

/-- The items of a list and its closing bracket. -/
def indentedItems (level : Nat) : List Json → List Char
  | [] => newLine level ++ [']']
  | [x] => newLine (level + 1) ++ indentedChars (level + 1) x ++ newLine level ++ [']']
  | x :: xs =>
    newLine (level + 1) ++ indentedChars (level + 1) x ++ ',' :: indentedItems level xs

/-- The members of an object and its closing brace. -/
def indentedMembers (level : Nat) : List (String × Json) → List Char
  | [] => newLine level ++ ['\x7d']
  | [(k, x)] =>
    newLine (level + 1) ++ quote k ++ ':' :: ' ' :: indentedChars (level + 1) x ++ newLine level
      ++ ['\x7d']
  | (k, x) :: ms =>
    newLine (level + 1) ++ quote k ++ ':' :: ' ' :: indentedChars (level + 1) x
      ++ ',' :: indentedMembers level ms

end

/-- The indented text of a value. -/
def pretty (j : Json) : String := String.ofList (j.indentedChars 0)

end CanaryRouting.Json
