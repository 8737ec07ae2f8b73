import CanaryRouting.Decimal.Positional

/-!
# Texts of floating-point numbers in JSON and messages

A floating-point number is recognizable as one: it has a fraction or an exponent. It is written by
position as long as the point is not far from the first digit (`Reach`), and otherwise with one
digit before the point and an exponent that has a sign. Of two shortest decimals that are equally
near to a number, its text is the one whose last digit is even.
-/

namespace CanaryRouting.Decimal

/-- Where the decimal point lies: behind that many digits, counted from the first one, or before
that many zeros. -/
def Scaled.point (d : Scaled) : Int := (Nat.toDigits 10 d.digits).length + d.exponent

/-- A decimal with one digit before the point and an exponent. -/
def Scaled.scientific (d : Scaled) : List Char :=
  let power := d.point - 1
  let mantissa :=
    match Nat.toDigits 10 d.digits with
    | first :: rest => first :: (if rest.isEmpty then [] else '.' :: rest)
    | [] => []
  mantissa ++ 'e' :: (if power < 0 then '-' else '+') :: Nat.toDigits 10 power.natAbs

/-- A decimal by position, with a fraction in every case. -/
def Scaled.positionalWithFraction (d : Scaled) : List Char :=
  if d.exponent < 0 then d.positional else d.positional ++ ['.', '0']

/-- Which decimals are written by position. -/
structure Reach where
  /-- The least place of the point. -/
  least : Int
  /-- The greatest place of the point. -/
  greatest : Int

/-- In JSON and messages, the point is preceded by at most sixteen digits or followed by at most
four zeros. -/
def Reach.ofMessages : Reach := ⟨-4, 16⟩

/-- The text of a decimal that shows that it is a floating-point number. -/
def Reach.text (r : Reach) (d : Scaled) : List Char :=
  if r.least ≤ d.point ∧ d.point ≤ r.greatest then d.positionalWithFraction else d.scientific

/-- The text of a double in JSON and messages. -/
def floatText (bits : UInt64) : String :=
  match Reading.ofBits bits with
  | .notANumber => "NaN"
  | .infinite negative => if negative then "-inf" else "inf"
  | .finite negative m =>
    String.ofList ((if negative then ['-'] else []) ++ Reach.ofMessages.text (m.shortest .toEven))

end CanaryRouting.Decimal
