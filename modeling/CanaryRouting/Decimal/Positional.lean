import CanaryRouting.Decimal.Shortest

/-!
# Positional texts of numbers

Numbers are written without an exponent: all digits before the point, then, if there are any, the
point and the digits behind it. Of two shortest decimals that are equally near to a number, its text
is the one that is farther from zero.
-/

namespace CanaryRouting.Decimal

/-- A decimal written out by position. -/
def Scaled.positional (d : Scaled) : List Char :=
  let digits := Nat.toDigits 10 d.digits
  if 0 ≤ d.exponent then digits ++ List.replicate d.exponent.toNat '0'
  else
    let places := (-d.exponent).toNat
    let padded := List.replicate (places + 1 - digits.length) '0' ++ digits
    padded.take (padded.length - places) ++ '.' :: padded.drop (padded.length - places)

/-- The text of a double, without a fraction when it is whole. -/
def doubleText (bits : UInt64) : String :=
  match Reading.ofBits bits with
  | .notANumber => "NaN"
  | .infinite negative => if negative then "-inf" else "inf"
  | .finite negative m =>
    String.ofList ((if negative then ['-'] else []) ++ (m.shortest .awayFromZero).positional)

end CanaryRouting.Decimal
