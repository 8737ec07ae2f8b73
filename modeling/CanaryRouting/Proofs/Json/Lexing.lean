import CanaryRouting.Json.Printer
import CanaryRouting.Json.Token
import Mathlib.Algebra.Group.Nat.Defs

/-!
# Tokens of what is printed

Cutting a printed text into tokens gives back what was printed: a quoted text is one token with
the text as its value (`lex_quote`), and the digits of a number are one token with what the
numeral stands for (`lex_digits`), which is the number itself if 64 bits hold it
(`natural_of_lt`).
-/

namespace CanaryRouting.Json

/-! ### Quoted texts -/

/-- The piece that a printed character is read as. -/
def Piece.ofChar (c : Char) : Piece :=
  if escapeChar c = ['\\', 'u', '0', '0'] ++ hexPair c.toNat then .unit c.toNat else .char c

theorem hexUnit?_hexPair : ∀ n < 32,
    hexUnit? '0' '0' (Nat.digitChar (n / 16)) (Nat.digitChar (n % 16)) = some n := by decide

theorem scanPieces_escapeChar (c : Char) (cs : List Char) :
    scanPieces (escapeChar c ++ cs) =
      (scanPieces cs).map fun (ps, rest) => (Piece.ofChar c :: ps, rest) := by
  by_cases h1 : c = '"'
  · subst h1; rfl
  by_cases h2 : c = '\\'
  · subst h2; rfl
  by_cases h3 : c = '\x08'
  · subst h3; rfl
  by_cases h4 : c = '\x0c'
  · subst h4; rfl
  by_cases h5 : c = '\n'
  · subst h5; rfl
  by_cases h6 : c = '\r'
  · subst h6; rfl
  by_cases h7 : c = '\t'
  · subst h7; rfl
  by_cases h8 : c.toNat < 32
  · have he : escapeChar c = ['\\', 'u', '0', '0'] ++ hexPair c.toNat := by
      simp only [escapeChar, h1, h2, h3, h4, h5, h6, h7, h8, if_false, if_true]
    rw [Piece.ofChar, if_pos he, he]
    simp only [hexPair, List.cons_append, List.nil_append, scanPieces, hexUnit?_hexPair _ h8,
      Option.bind_some]
  · have he : escapeChar c = [c] := by
      simp only [escapeChar, h1, h2, h3, h4, h5, h6, h7, h8, if_false]
    have hne : escapeChar c ≠ ['\\', 'u', '0', '0'] ++ hexPair c.toNat := by
      rw [he]; simp [hexPair]
    rw [Piece.ofChar, if_neg hne, he, List.singleton_append, scanPieces, if_neg h8]
    · exact fun e => h1 e
    · exact fun _ _ _ _ _ e _ => h2 e
    · exact fun _ _ e _ => h2 e

theorem scanPieces_escaped (cs rest : List Char) :
    scanPieces (cs.flatMap escapeChar ++ '"' :: rest) = some (cs.map Piece.ofChar, rest) := by
  induction cs with
  | nil => rfl
  | cons c cs ih =>
    rw [List.flatMap_cons, List.append_assoc, scanPieces_escapeChar, ih]
    rfl

theorem joinPieces_unit {n : Nat} (hn : n < 0xd800) (ps : List Piece) :
    joinPieces (.unit n :: ps) = (joinPieces ps).map (Char.ofNat n :: ·) := by
  have hhigh : ¬ (0xd800 ≤ n ∧ n < 0xdc00) := by omega
  have hlow : ¬ (0xdc00 ≤ n ∧ n < 0xe000) := by omega
  have hnone : ¬ (0xd800 ≤ n ∧ n < 0xe000) := by omega
  cases ps with
  | nil => simp only [joinPieces, hnone, if_false]
  | cons p ps => cases p <;> simp only [joinPieces, hhigh, hlow, hnone, if_false]

theorem joinPieces_ofChar_cons (c : Char) (ps : List Piece) :
    joinPieces (Piece.ofChar c :: ps) = (joinPieces ps).map (c :: ·) := by
  unfold Piece.ofChar
  split
  · next he =>
    have hlt : c.toNat < 0xd800 := by
      unfold escapeChar at he
      repeat' split at he
      all_goals first
        | omega
        | (exfalso; simp [hexPair] at he)
    rw [joinPieces_unit hlt, Char.ofNat_toNat]
  · rfl

theorem joinPieces_ofChar (cs : List Char) : joinPieces (cs.map Piece.ofChar) = some cs := by
  induction cs with
  | nil => rfl
  | cons c cs ih => rw [List.map_cons, joinPieces_ofChar_cons, ih]; rfl

theorem lex_mark {c : Char} {t : Token} (hgap : isGap c = false) (hmark : mark? c = some t)
    (cs : List Char) : lex (c :: cs) = t :: lex cs := by
  rw [lex, hgap, hmark]
  rfl

/-- A token that is not a single character is the first token of a text. -/
theorem lex_scanToken {c : Char} {cs rest : List Char} {t : Token} (hgap : isGap c = false)
    (hmark : mark? c = none) (h : scanToken (c :: cs) = some (t, rest)) :
    lex (c :: cs) = t :: lex rest := by
  rw [lex, hgap, hmark]
  simp only [Bool.false_eq_true, if_false]
  split
  · next h' =>
    rw [h] at h'
    cases h'
    rfl
  · next h' => rw [h] at h'; cases h'

/-- A quoted text is one token. -/
theorem lex_quote (s : String) (rest : List Char) :
    lex (quote s ++ rest) = .string (some s) :: lex rest := by
  have hscan : scanToken (quote s ++ rest) = some (.string (some s), rest) := by
    rw [quote, List.cons_append, List.append_assoc, List.singleton_append]
    simp only [scanToken, scanPieces_escaped, joinPieces_ofChar, Option.map_some,
      String.ofList_toList]
  rw [quote, List.cons_append] at hscan ⊢
  exact lex_scanToken rfl rfl hscan

/-! ### Numbers -/

/-- What does not go on with a numeral. -/
def EndsNumeral (rest : List Char) : Prop :=
  ∀ c ∈ rest.head?, c.isDigit = false ∧ c ≠ '.' ∧ c ≠ 'e' ∧ c ≠ 'E'

theorem endsNumeral_nil : EndsNumeral [] := by nofun

/-- What the digits of a whole number stand for as a numeral. -/
def natural (n : Nat) : Option Number :=
  Numeral.value? ⟨false, Nat.toDigits 10 n, none, none⟩

theorem ofDigits_toDigits (n : Nat) : Numeral.ofDigits (Nat.toDigits 10 n) = n := by
  have h := Nat.ofDigitChars_ten_toDigits (n := n)
  rw [Nat.ofDigitChars_eq_foldl] at h
  simp only [Nat.mul_comm 10] at h
  exact h

/-- A whole number that 64 bits hold is read as itself. -/
theorem natural_of_lt {n : Nat} (h : n < 2 ^ 64) : natural n = some (.integer n) := by
  simp only [natural, Numeral.value?, ofDigits_toDigits, Option.isNone_none, Bool.and_self,
    if_true, Bool.false_eq_true, if_false]
  rw [if_pos (by omega)]

/-- A whole number that 64 bits do not hold is not read as an integer. -/
theorem natural_of_le {n : Nat} (h : 2 ^ 64 ≤ n) (k : Int) : natural n ≠ some (.integer k) := by
  simp only [natural, Numeral.value?, ofDigits_toDigits, Option.isNone_none, Bool.and_self,
    if_true, Bool.false_eq_true, if_false]
  rw [if_neg (by omega), Numeral.double?]
  simp only [ne_eq, Option.map_eq_some_iff, reduceCtorEq, and_false, exists_false, not_false_eq_true]

theorem digitChar_ne_zero : ∀ d < 10, 0 < d → Nat.digitChar d ≠ '0' := by decide

theorem wellFormedWhole_toDigits (n : Nat) : Numeral.wellFormedWhole (Nat.toDigits 10 n) := by
  induction n using Nat.strongRecOn with
  | ind n ih =>
    by_cases hn : n < 10
    · rw [Nat.toDigits_of_lt_base hn]; rfl
    · rw [Nat.toDigits_of_base_le (by decide) (by omega)]
      have hlead := ih (n / 10) (by omega)
      rcases hd : Nat.toDigits 10 (n / 10) with _ | ⟨d, ds⟩
      · exact absurd hd Nat.toDigits_ne_nil
      · rw [hd] at hlead
        cases ds with
        | nil =>
          have hlt : n / 10 < 10 := by
            have := (Nat.length_toDigits_le_iff (b := 10) (n := n / 10) (k := 1) (by decide)
              (by decide)).1 (by rw [hd]; simp)
            omega
          rw [Nat.toDigits_of_lt_base hlt] at hd
          have hne := digitChar_ne_zero (n / 10) hlt (by omega)
          rw [← hd]
          simpa [Numeral.wellFormedWhole] using hne
        | cons e es =>
          simpa [Numeral.wellFormedWhole] using hlead

theorem isDigit_of_mem_toDigits {n : Nat} {c : Char} (hc : c ∈ Nat.toDigits 10 n) : c.isDigit :=
  Nat.isDigit_of_mem_toDigits (by decide) (by decide) hc

namespace EndsNumeral

variable {rest : List Char} (h : EndsNumeral rest)
include h

theorem takeWhile_digits (n : Nat) :
    (Nat.toDigits 10 n ++ rest).takeWhile Char.isDigit = Nat.toDigits 10 n := by
  rw [List.takeWhile_append_of_pos fun _ => isDigit_of_mem_toDigits]
  cases rest with
  | nil => simp
  | cons c cs => rw [List.takeWhile_cons, (h c rfl).1]; simp

theorem dropWhile_digits (n : Nat) :
    (Nat.toDigits 10 n ++ rest).dropWhile Char.isDigit = rest := by
  rw [List.dropWhile_append_of_pos fun _ => isDigit_of_mem_toDigits]
  cases rest with
  | nil => rfl
  | cons c cs => rw [List.dropWhile_cons, (h c rfl).1]; simp

theorem scanFraction : Numeral.scanFraction rest = some (none, rest) := by
  cases rest with
  | nil => rfl
  | cons c cs =>
    unfold Numeral.scanFraction
    split
    · next hc => cases hc; exact absurd rfl (h _ rfl).2.1
    · rfl

theorem scanExponent : Numeral.scanExponent rest = some (none, rest) := by
  cases rest with
  | nil => rfl
  | cons c cs =>
    have hc := h c rfl
    simp only [Numeral.scanExponent]
    rw [if_neg (by simp [hc.2.2.1, hc.2.2.2])]

theorem scanUnsigned (negative : Bool) (n : Nat) :
    Numeral.scanUnsigned negative (Nat.toDigits 10 n ++ rest) =
      some (⟨negative, Nat.toDigits 10 n, none, none⟩, rest) := by
  rw [Numeral.scanUnsigned, h.takeWhile_digits, h.dropWhile_digits,
    if_pos (wellFormedWhole_toDigits n), h.scanFraction]
  simp only [Option.bind_some, h.scanExponent, Option.map_some]

end EndsNumeral

theorem scan_digits (n : Nat) {rest : List Char} (h : EndsNumeral rest) :
    Numeral.scan (Nat.toDigits 10 n ++ rest) =
      some (⟨false, Nat.toDigits 10 n, none, none⟩, rest) := by
  have hunsigned := h.scanUnsigned false n
  rcases hd : Nat.toDigits 10 n with _ | ⟨d, ds⟩
  · exact absurd hd Nat.toDigits_ne_nil
  · have hdigit : d.isDigit := isDigit_of_mem_toDigits (hd ▸ List.mem_cons_self ..)
    rw [hd, List.cons_append] at hunsigned
    rw [List.cons_append]
    unfold Numeral.scan
    split
    · next e =>
      cases (List.cons.inj e).1
      cases hdigit
    · exact hunsigned

/-- The digits of a number are one token. -/
theorem lex_digits (n : Nat) {rest : List Char} (h : EndsNumeral rest) :
    lex (Nat.toDigits 10 n ++ rest) = .number (natural n) :: lex rest := by
  have hscan := scan_digits n h
  rcases hd : Nat.toDigits 10 n with _ | ⟨d, ds⟩
  · exact absurd hd Nat.toDigits_ne_nil
  · have hdigit : d.isDigit := isDigit_of_mem_toDigits (hd ▸ List.mem_cons_self ..)
    have hne : ∀ c : Char, c.isDigit = false → d ≠ c := fun c hc e => by
      rw [e, hc] at hdigit; cases hdigit
    have hgap : isGap d = false := by
      simp [isGap, hne ' ' rfl, hne '\n' rfl, hne '\t' rfl, hne '\r' rfl]
    have hmark : mark? d = none := by
      simp [mark?, hne '\x7b' rfl, hne '\x7d' rfl, hne '[' rfl, hne ']' rfl, hne ':' rfl,
        hne ',' rfl]
    have hword : scanWord (d :: (ds ++ rest)) = none := by
      unfold scanWord
      split
      · next e => exact absurd (List.cons.inj e).1 (hne 'n' rfl)
      · next e => exact absurd (List.cons.inj e).1 (hne 't' rfl)
      · next e => exact absurd (List.cons.inj e).1 (hne 'f' rfl)
      · rfl
    rw [hd, List.cons_append] at hscan
    rw [List.cons_append]
    refine lex_scanToken hgap hmark ?_
    unfold scanToken
    split
    · next e => exact absurd (List.cons.inj e).1 (hne '"' rfl)
    · rw [hword]
      simp only [hscan, Option.map_some, natural, hd]

end CanaryRouting.Json
