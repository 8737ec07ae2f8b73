import CanaryRouting.Text.Blank

/-!
# Settings from the environment

The port of the service and the time that calls get to finish on shutdown are set by environment
variables. One that is unset, or not a whole number in range, gives the default.
-/

namespace CanaryRouting.Environment

/-- A whole number up to a limit, in ASCII digits, with at most a plus sign in front. -/
def whole? (limit : Nat) (cs : List Char) : Option Nat :=
  let digits := match cs with
    | '+' :: cs => cs
    | cs => cs
  if digits.isEmpty || !digits.all Char.isDigit then none
  else
    let n := digits.foldl (fun n d => n * 10 + (d.toNat - 48)) 0
    if n ≤ limit then some n else none

/-- A setting, read without the blanks around it. -/
def setting (limit default : Nat) (value : Option String) : Nat :=
  (value.bind fun s => whole? limit (Text.trim s.toList)).getD default

/-- The port of the service. -/
def port (value : Option String) : Nat := setting 65535 8080 value

/-- The seconds that calls get to finish on shutdown. -/
def shutdownGrace (value : Option String) : Nat := setting 18446744073709551615 10 value

end CanaryRouting.Environment
