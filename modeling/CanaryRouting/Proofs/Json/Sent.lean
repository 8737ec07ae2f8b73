import CanaryRouting.Json.Sent
import CanaryRouting.Proofs.Json.Lexing

/-!
# Values that arrive as they were sent

Of what is sent as a text only numbers may change on the way. A whole number that 64 bits hold
arrives as it was sent (`arrives_ofInt`), and a list or an object does if its parts do.
-/

namespace CanaryRouting.Json

/-- The value arrives as it was sent. -/
def Arrives (x : Json) : Prop := x.sent = x

theorem arrives_string (s : String) : (Json.string s).Arrives := rfl

/-- A minus sign and the digits of a number are one numeral. -/
theorem scan_minus_digits (n : Nat) :
    Numeral.scan ('-' :: Nat.toDigits 10 n) =
      some (⟨true, Nat.toDigits 10 n, none, none⟩, []) := by
  have hscan := endsNumeral_nil.scanUnsigned true n
  rwa [List.append_nil] at hscan

theorem arrives_ofInt {n : Int} (hlow : -9223372036854775808 ≤ n)
    (hhigh : n ≤ 18446744073709551615) : (Json.ofInt n).Arrives := by
  have hsent : Number.sent (.integer n) = .integer n := by
    by_cases hneg : n < 0
    · have hscan := scan_minus_digits n.natAbs
      simp only [Number.sent, Number.chars, intChars, if_pos hneg, hscan, Option.bind_some,
        Numeral.value?, ofDigits_toDigits, Option.isNone_none, Bool.and_self, if_true]
      rw [if_pos (by omega), Option.getD_some]
      congr 1
      omega
    · have hscan := scan_digits n.natAbs endsNumeral_nil
      rw [List.append_nil] at hscan
      have hvalue := natural_of_lt (n := n.natAbs) (by omega)
      simp only [Number.sent, Number.chars, intChars, if_neg hneg, hscan, Option.bind_some]
      rw [← natural, hvalue, Option.getD_some]
      congr 1
      omega
  rw [Arrives, Json.ofInt, sent, hsent]

theorem arrives_array {xs : List Json} : (Json.array xs).Arrives ↔ ∀ x ∈ xs, x.Arrives := by
  rw [Arrives, sent, array.injEq]
  induction xs with
  | nil => simp [sentItems]
  | cons x xs ih => simp [sentItems, ih, Arrives]

theorem arrives_object {ms : List (String × Json)} :
    (Json.object ms).Arrives ↔ ∀ m ∈ ms, m.2.Arrives := by
  rw [Arrives, sent, object.injEq]
  induction ms with
  | nil => simp [sentMembers]
  | cons m ms ih =>
    obtain ⟨k, x⟩ := m
    simp [sentMembers, ih, Arrives]

end CanaryRouting.Json
