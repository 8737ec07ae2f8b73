import CanaryRouting.Json.Basic

/-!
# Numerals of a JSON text

A numeral is an optional minus sign, digits without a superfluous leading zero, and optionally a
fraction and an exponent. `Numeral.scan` takes one from the front of a text; `Numeral.value?` is
the number it stands for. A numeral without fraction and exponent is an integer if 64 bits hold
it. Any other is a double: the leading digits that fit into 64 bits are rounded to a double, which
is then scaled by a power of ten and rounded again. A numeral too large for a double stands for
no number.
-/

namespace CanaryRouting.Json

/-- A number as it is written. -/
structure Numeral where
  /-- Whether a minus sign precedes it. -/
  negative : Bool
  /-- The digits before the point. -/
  whole : List Char
  /-- The digits behind the point, if there is a point. -/
  fraction : Option (List Char)
  /-- The exponent, if there is one. -/
  exponent : Option Int
  deriving DecidableEq, Repr

namespace Numeral

/-! ### Scanning -/

/-- Takes the point and the digits behind it. -/
def scanFraction : List Char → Option (Option (List Char) × List Char)
  | '.' :: cs =>
    if (cs.takeWhile Char.isDigit).isEmpty then none
    else some (some (cs.takeWhile Char.isDigit), cs.dropWhile Char.isDigit)
  | cs => some (none, cs)

/-- The whole number that digits stand for. -/
def ofDigits (ds : List Char) : Nat := ds.foldl (fun n d => n * 10 + (d.toNat - 48)) 0

/-- Takes the digits of an exponent. -/
def scanPower (negative : Bool) (cs : List Char) : Option (Option Int × List Char) :=
  if (cs.takeWhile Char.isDigit).isEmpty then none
  else
    some (some ((if negative then -1 else 1) * ofDigits (cs.takeWhile Char.isDigit)),
      cs.dropWhile Char.isDigit)

/-- Takes the exponent mark and the exponent. -/
def scanExponent (cs : List Char) : Option (Option Int × List Char) :=
  match cs with
  | c :: cs' =>
    if c = 'e' ∨ c = 'E' then
      match cs' with
      | '-' :: cs'' => scanPower true cs''
      | '+' :: cs'' => scanPower false cs''
      | _ => scanPower false cs'
    else some (none, cs)
  | [] => some (none, [])

/-- The digits before the point are not missing and have no superfluous zero in front. -/
def wellFormedWhole : List Char → Bool
  | [] => false
  | [_] => true
  | d :: _ => d ≠ '0'

/-- Takes everything behind the sign. -/
def scanUnsigned (negative : Bool) (cs : List Char) : Option (Numeral × List Char) :=
  if wellFormedWhole (cs.takeWhile Char.isDigit) then
    (scanFraction (cs.dropWhile Char.isDigit)).bind fun (fraction, mid) =>
      (scanExponent mid).map fun (exponent, rest) =>
        (⟨negative, cs.takeWhile Char.isDigit, fraction, exponent⟩, rest)
  else none

/-- Takes a numeral from the front of a text. -/
def scan : List Char → Option (Numeral × List Char)
  | '-' :: cs => scanUnsigned true cs
  | cs => scanUnsigned false cs

theorem length_dropWhile_le (p : Char → Bool) (cs : List Char) :
    (cs.dropWhile p).length ≤ cs.length :=
  (List.dropWhile_suffix p).length_le

theorem length_scanFraction {cs rest : List Char} {f : Option (List Char)}
    (h : scanFraction cs = some (f, rest)) : rest.length ≤ cs.length := by
  unfold scanFraction at h
  split at h
  · split at h
    · cases h
    · cases h
      have := length_dropWhile_le Char.isDigit ‹List Char›
      simp only [List.length_cons]
      omega
  · cases h
    exact Nat.le_refl _

theorem length_scanPower {negative : Bool} {cs rest : List Char} {e : Option Int}
    (h : scanPower negative cs = some (e, rest)) : rest.length ≤ cs.length := by
  unfold scanPower at h
  split at h
  · cases h
  · cases h
    exact length_dropWhile_le _ _

theorem length_scanExponent {cs rest : List Char} {e : Option Int}
    (h : scanExponent cs = some (e, rest)) : rest.length ≤ cs.length := by
  unfold scanExponent at h
  split at h
  · split at h
    · split at h
      all_goals
        have := length_scanPower h
        simp only [List.length_cons] at *
        omega
    · cases h
      exact Nat.le_refl _
  · cases h
    exact Nat.le_refl _

theorem length_scanUnsigned {negative : Bool} {cs rest : List Char} {n : Numeral}
    (h : scanUnsigned negative cs = some (n, rest)) : rest.length < cs.length := by
  unfold scanUnsigned at h
  split at h
  · next hw =>
    obtain ⟨⟨f, mid⟩, hf, h⟩ := Option.bind_eq_some_iff.1 h
    obtain ⟨⟨e, last⟩, he, h⟩ := Option.map_eq_some_iff.1 h
    cases h
    have h1 := length_scanFraction hf
    have h2 := length_scanExponent he
    have h3 := congrArg List.length (List.takeWhile_append_dropWhile (p := Char.isDigit) (l := cs))
    have h4 : 0 < (cs.takeWhile Char.isDigit).length := by
      rcases hd : cs.takeWhile Char.isDigit with _ | ⟨d, ds⟩
      · simp [hd, wellFormedWhole] at hw
      · simp
    rw [List.length_append] at h3
    omega
  · cases h

/-- A numeral takes at least one character. -/
theorem length_scan {cs rest : List Char} {n : Numeral} (h : scan cs = some (n, rest)) :
    rest.length < cs.length := by
  unfold scan at h
  split at h
  · have := length_scanUnsigned h
    simp only [List.length_cons]
    omega
  · exact length_scanUnsigned h

/-! ### Values -/

/-- Takes digits as long as the whole number they make fits into 64 bits. -/
def significant (n : Nat) : List Char → Nat × List Char
  | [] => (n, [])
  | d :: ds =>
    if n * 10 + (d.toNat - 48) < 18446744073709551616 then
      significant (n * 10 + (d.toNat - 48)) ds
    else (n, d :: ds)

/-- Scales a double by a power of ten. A power beyond the range of doubles is applied in steps,
of which a few reach zero; `steps` bounds their number. -/
def scale (x : Float) (power : Int) : Nat → Option Float
  | 0 => some 0
  | steps + 1 =>
    if power.natAbs ≤ 308 then
      let factor := Float.ofScientific 1 false power.natAbs
      if power < 0 then some (x / factor)
      else if (x * factor).isInf then none else some (x * factor)
    else if x == 0 then some x
    else if 0 < power then none
    else scale (x / 1e308) (power + 308) steps

/-- The double a numeral stands for, unless it is too large. -/
def double? (n : Numeral) : Option Number :=
  let (whole, left) := significant 0 n.whole
  let (digits, unused) := significant whole (n.fraction.getD [])
  let power : Int :=
    (left.length : Int) - ((n.fraction.getD []).length - unused.length : Nat) + n.exponent.getD 0
  (scale digits.toUInt64.toFloat power 8).map fun x =>
    .double (if n.negative then -x else x).toBits

/-- The number a numeral stands for, unless it is too large. -/
def value? (n : Numeral) : Option Number :=
  let whole := ofDigits n.whole
  if n.fraction.isNone && n.exponent.isNone then
    if n.negative then
      if 0 < whole ∧ whole ≤ 9223372036854775808 then some (.integer (-whole)) else n.double?
    else if whole < 18446744073709551616 then some (.integer whole) else n.double?
  else n.double?

end Numeral

end CanaryRouting.Json
