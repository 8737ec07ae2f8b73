/-!
# Shortest decimals

A binary floating-point number stands for every real that rounds to it. Its shortest decimal is
the one with the fewest digits among those reals, and of several with equally few digits the
nearest to the number itself. Two may be equally near; a format says which of them it takes
(`Tie`). All steps are exact arithmetic on natural numbers.
-/

namespace CanaryRouting.Decimal

/-- The magnitude of a finite double, `mantissa * 2 ^ exponent`. -/
structure Magnitude where
  /-- The whole part of the scaled number. -/
  mantissa : Nat
  /-- The power of two it is scaled by. -/
  exponent : Int
  /-- Whether the next smaller double is only half as far away as the next larger one. -/
  atPowerOfTwo : Bool
  deriving DecidableEq, Repr

/-- What the 64 bits of a double say. -/
inductive Reading where
  /-- Not a number. -/
  | notANumber
  /-- An infinity. -/
  | infinite (negative : Bool)
  /-- A finite number. -/
  | finite (negative : Bool) (magnitude : Magnitude)
  deriving DecidableEq, Repr

/-- Splits the bits of a double into sign, exponent and mantissa. -/
def Reading.ofBits (bits : UInt64) : Reading :=
  let n : Nat := bits.toNat
  let negative := decide (Nat.pow 2 63 ≤ n)
  let biased : Nat := n / Nat.pow 2 52 % Nat.pow 2 11
  let fraction : Nat := n % Nat.pow 2 52
  if biased = Nat.pow 2 11 - 1 then
    if fraction = 0 then .infinite negative else .notANumber
  else if biased = 0 then
    .finite negative ⟨fraction, -1074, false⟩
  else
    .finite negative
      ⟨Nat.pow 2 52 + fraction, (biased : Int) - 1075, decide (fraction = 0 ∧ 1 < biased)⟩

/-- A decimal `digits * 10 ^ exponent`. -/
structure Scaled where
  /-- The digits, as a whole number. -/
  digits : Nat
  /-- The power of ten they are scaled by. -/
  exponent : Int
  deriving DecidableEq, Repr

/-- Which of two decimals it is to be that are equally short and equally near to a number. -/
inductive Tie where
  /-- The one whose last digit is even. -/
  | toEven
  /-- The one that is farther from zero. -/
  | awayFromZero
  deriving DecidableEq, Repr

/-- Whether a tie between a multiple of a power of ten and the next one goes to the lower one. -/
def Tie.goesDown (t : Tie) (lower : Nat) : Bool :=
  match t with
  | .toEven => lower % 2 = 0
  | .awayFromZero => false

/-- The reals that round to a number, over one denominator: the number itself, the two ends, and
whether the ends belong to it. -/
structure Interval where
  /-- Numerator of the lower end. -/
  low : Nat
  /-- Numerator of the number. -/
  value : Nat
  /-- Numerator of the upper end. -/
  high : Nat
  /-- The common denominator. -/
  denominator : Nat
  /-- Whether the ends round to the number too. -/
  closed : Bool

/-- The interval that rounds to a magnitude; the ends belong to it when the mantissa is even. -/
def Magnitude.interval (m : Magnitude) : Interval :=
  let scale := Nat.pow 2 (m.exponent - 2).toNat
  { low := (4 * m.mantissa - if m.atPowerOfTwo then 1 else 2) * scale
    value := 4 * m.mantissa * scale
    high := (4 * m.mantissa + 2) * scale
    denominator := Nat.pow 2 (2 - m.exponent).toNat
    closed := m.mantissa % 2 = 0 }

/-- Whether `d * 10 ^ k` lies in the interval. -/
def Interval.holds (i : Interval) (d : Nat) (k : Int) : Bool :=
  let up := Nat.pow 10 k.toNat
  let down := Nat.pow 10 (-k).toNat
  let x := d * up * i.denominator
  if i.closed then i.low * down ≤ x && x ≤ i.high * down
  else i.low * down < x && x < i.high * down

/-- The multiple of `10 ^ k` in the interval that is nearest to the number, if any is. -/
def Interval.onGrid (i : Interval) (tie : Tie) (k : Int) : Option Scaled :=
  let n := i.value * Nat.pow 10 (-k).toNat
  let d := i.denominator * Nat.pow 10 k.toNat
  let below := n / d
  let left := n - below * d
  let right := (below + 1) * d - n
  match i.holds below k, i.holds (below + 1) k with
  | true, true =>
    if left < right ∨ (left = right ∧ tie.goesDown below) then some ⟨below, k⟩ else some ⟨below + 1, k⟩
  | true, false => some ⟨below, k⟩
  | false, true => some ⟨below + 1, k⟩
  | false, false => none

/-- The number of digits before the decimal point; zero or less for a number below one tenth. -/
def Interval.magnitude (i : Interval) : Int :=
  ((Nat.toDigits 10 (i.value * Nat.pow 10 344 / i.denominator)).length : Int) - 344

/-- The same decimal with one final zero less, if it has one. -/
def Scaled.dropZero (d : Scaled) : Scaled :=
  if d.digits % 10 = 0 then ⟨d.digits / 10, d.exponent + 1⟩ else d

/-- The shortest decimal of a magnitude. Seventeen digits tell any two doubles apart, so the
search over grids of one to seventeen digits finds one. Only on the first grid can it have a final
zero: a ten, for which there is one digit too many. -/
def Magnitude.shortest (m : Magnitude) (tie : Tie) : Scaled :=
  if m.mantissa = 0 then ⟨0, 0⟩
  else
    let i := m.interval
    (((List.range 17).findSome? fun n : Nat => i.onGrid tie (i.magnitude - (n + 1))).getD
      ⟨i.value / i.denominator, 0⟩).dropZero

end CanaryRouting.Decimal
