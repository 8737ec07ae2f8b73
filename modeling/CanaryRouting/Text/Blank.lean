/-!
# Blank characters

The characters of the Unicode property White_Space, and the two uses made of them here: a text
that holds nothing else counts as empty, and a setting is read without the blanks around it.
-/

namespace CanaryRouting.Text

/-- The code points with the property White_Space. -/
def blankRanges : List (Nat × Nat) := [
  (0x9, 0xd), (0x20, 0x20), (0x85, 0x85), (0xa0, 0xa0), (0x1680, 0x1680), (0x2000, 0x200a),
  (0x2028, 0x2029), (0x202f, 0x202f), (0x205f, 0x205f), (0x3000, 0x3000)]

/-- Whether the character has the property White_Space. -/
def isBlank (c : Char) : Bool := blankRanges.any fun r => r.1 ≤ c.toNat && c.toNat ≤ r.2

/-- The text without the blanks at its two ends. -/
def trim (s : List Char) : List Char :=
  ((s.dropWhile isBlank).reverse.dropWhile isBlank).reverse

/-- A text is blank when it is empty or holds blanks only. -/
def allBlank (s : String) : Bool := s.toList.all isBlank

end CanaryRouting.Text
