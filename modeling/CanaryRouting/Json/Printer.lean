import CanaryRouting.Decimal.Scientific
import CanaryRouting.Json.Basic

/-!
# Compact JSON texts

A value is written without blanks. In a text, the quote and the backslash are escaped by a
backslash, control characters by a letter where they have one and by four hexadecimal digits
otherwise, and every other character stands for itself.
-/

namespace CanaryRouting.Json

/-- The last two of the four hexadecimal digits of a control character. -/
def hexPair (n : Nat) : List Char := [Nat.digitChar (n / 16), Nat.digitChar (n % 16)]

/-- How one character is written in a quoted text. -/
def escapeChar (c : Char) : List Char :=
  if c = '"' then ['\\', '"']
  else if c = '\\' then ['\\', '\\']
  else if c = '\x08' then ['\\', 'b']
  else if c = '\x0c' then ['\\', 'f']
  else if c = '\n' then ['\\', 'n']
  else if c = '\r' then ['\\', 'r']
  else if c = '\t' then ['\\', 't']
  else if c.toNat < 32 then ['\\', 'u', '0', '0'] ++ hexPair c.toNat
  else [c]

/-- A quoted text. -/
def quote (s : String) : List Char := '"' :: (s.toList.flatMap escapeChar ++ ['"'])

/-- The digits of a whole number, with a minus sign if it is negative. -/
def intChars (n : Int) : List Char :=
  if n < 0 then '-' :: Nat.toDigits 10 n.natAbs else Nat.toDigits 10 n.natAbs

/-- A number as it is written. -/
def Number.chars : Number → List Char
  | .integer n => intChars n
  | .double bits => (Decimal.floatText bits).toList

mutual

/-- A value as it is written. -/
def chars : Json → List Char
  | .null => ['n', 'u', 'l', 'l']
  | .bool true => ['t', 'r', 'u', 'e']
  | .bool false => ['f', 'a', 'l', 's', 'e']
  | .number n => n.chars
  | .string s => quote s
  | .array items => '[' :: itemsChars items
  | .object members => '\x7b' :: membersChars members

/-- The items of a list and its closing bracket. -/
def itemsChars : List Json → List Char
  | [] => [']']
  | [x] => chars x ++ [']']
  | x :: xs => chars x ++ ',' :: itemsChars xs

/-- The members of an object and its closing brace. -/
def membersChars : List (String × Json) → List Char
  | [] => ['\x7d']
  | [(k, x)] => quote k ++ ':' :: (chars x ++ ['\x7d'])
  | (k, x) :: ms => quote k ++ ':' :: (chars x ++ ',' :: membersChars ms)

end

/-- The compact text of a value. -/
def compress (j : Json) : String := String.ofList j.chars

end CanaryRouting.Json
