import CanaryRouting.Json.Numeral
import CanaryRouting.Json.Printer

/-!
# Values sent as texts

A value that is sent to somebody is written as a text and read again. Everything arrives as it was
but doubles: a reader rounds twice (`Numeral.double?`), so a double may arrive as a neighbour of
the one that was sent, and move on when it is sent again.
-/

namespace CanaryRouting.Json

/-- The number that arrives; one whose text stands for no number does not change. -/
def Number.sent (n : Number) : Number :=
  ((Numeral.scan n.chars).bind fun (numeral, _) => numeral.value?).getD n

mutual

/-- The value that arrives. -/
def sent : Json → Json
  | .number n => .number n.sent
  | .array items => .array (sentItems items)
  | .object members => .object (sentMembers members)
  | j => j

/-- The items that arrive. -/
def sentItems : List Json → List Json
  | [] => []
  | x :: xs => x.sent :: sentItems xs

/-- The members that arrive. -/
def sentMembers : List (String × Json) → List (String × Json)
  | [] => []
  | (k, x) :: ms => (k, x.sent) :: sentMembers ms

end

end CanaryRouting.Json
