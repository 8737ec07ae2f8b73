/-!
# Coded bytes

Bytes are written four characters for every three of them, padded at the end with the mark `=`.
`isBase64` picks out the texts that are written so. No other text stands for the same bytes:
padding is complete, and the bits that it leaves unused are zero.
-/

namespace CanaryRouting.Text

/-- The six bits that a character stands for. -/
def sextet? (c : Char) : Option Nat :=
  if 'A' ≤ c ∧ c ≤ 'Z' then some (c.toNat - 65)
  else if 'a' ≤ c ∧ c ≤ 'z' then some (c.toNat - 71)
  else if '0' ≤ c ∧ c ≤ '9' then some (c.toNat + 4)
  else if c = '+' then some 62
  else if c = '/' then some 63
  else none

/-- Whether groups of four characters code bytes. In the last group two characters code one byte,
and three code two; the bits behind these are zero. -/
def isCoded : List Char → Bool
  | [] => true
  | [a, b, '=', '='] => (sextet? a).isSome && (sextet? b).any (· % 16 = 0)
  | [a, b, c, '='] => (sextet? a).isSome && (sextet? b).isSome && (sextet? c).any (· % 4 = 0)
  | a :: b :: c :: d :: cs => [a, b, c, d].all (fun x => (sextet? x).isSome) && isCoded cs
  | _ => false

/-- Whether the text codes bytes. -/
def isBase64 (s : String) : Bool := isCoded s.toList

end CanaryRouting.Text
