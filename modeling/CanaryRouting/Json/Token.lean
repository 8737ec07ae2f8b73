import CanaryRouting.Json.Numeral

/-!
# Tokens of a JSON text

`lex` cuts a text into tokens. Where the text stops being one, the list ends with the token
`broken`; what comes before it is kept, because a reader may find fault with that part first. A
text token whose escapes leave half of a surrogate pair alone has no value, and neither has a
number token that is too large.
-/

namespace CanaryRouting.Json

/-- A token of a JSON text. -/
inductive Token where
  /-- An opening brace. -/
  | openBrace
  /-- A closing brace. -/
  | closeBrace
  /-- An opening bracket. -/
  | openBracket
  /-- A closing bracket. -/
  | closeBracket
  /-- A colon. -/
  | colon
  /-- A comma. -/
  | comma
  /-- The word `null`. -/
  | null
  /-- The words `true` and `false`. -/
  | bool (value : Bool)
  /-- A number. -/
  | number (value : Option Number)
  /-- A quoted text. -/
  | string (value : Option String)
  /-- The place where the text stops being JSON. -/
  | broken
  deriving DecidableEq, Repr

/-! ### Quoted texts -/

/-- A piece of a quoted text: a character, or a 16-bit unit given by its number. -/
inductive Piece where
  /-- A character that stands for itself or has an escape of its own. -/
  | char (c : Char)
  /-- A unit written as four hexadecimal digits. -/
  | unit (n : Nat)
  deriving DecidableEq, Repr

/-- The character of a one-letter escape. -/
def escaped? : Char → Option Char
  | '"' => some '"'
  | '\\' => some '\\'
  | '/' => some '/'
  | 'b' => some '\x08'
  | 'f' => some '\x0c'
  | 'n' => some '\n'
  | 'r' => some '\r'
  | 't' => some '\t'
  | _ => none

/-- The value of a hexadecimal digit. -/
def hexDigit? (c : Char) : Option Nat :=
  if '0' ≤ c ∧ c ≤ '9' then some (c.toNat - 48)
  else if 'a' ≤ c ∧ c ≤ 'f' then some (c.toNat - 87)
  else if 'A' ≤ c ∧ c ≤ 'F' then some (c.toNat - 55)
  else none

/-- The unit that four hexadecimal digits stand for. -/
def hexUnit? (a b c d : Char) : Option Nat := do
  some ((((← hexDigit? a) * 16 + (← hexDigit? b)) * 16 + (← hexDigit? c)) * 16 + (← hexDigit? d))

/-- Takes the pieces of a quoted text and its closing quote; the opening quote is already taken.
There are none if the text ends first, holds a control character or an unknown escape. -/
def scanPieces : List Char → Option (List Piece × List Char)
  | [] => none
  | '"' :: cs => some ([], cs)
  | '\\' :: 'u' :: a :: b :: c :: d :: cs =>
    (hexUnit? a b c d).bind fun n => (scanPieces cs).map fun (ps, rest) => (.unit n :: ps, rest)
  | '\\' :: e :: cs =>
    (escaped? e).bind fun c => (scanPieces cs).map fun (ps, rest) => (.char c :: ps, rest)
  | c :: cs =>
    if c.toNat < 32 then none
    else (scanPieces cs).map fun (ps, rest) => (.char c :: ps, rest)

/-- The characters of a quoted text; a high surrogate counts only with the low one behind it. -/
def joinPieces : List Piece → Option (List Char)
  | [] => some []
  | .char c :: ps => (joinPieces ps).map (c :: ·)
  | .unit hi :: .unit lo :: ps =>
    if 0xd800 ≤ hi ∧ hi < 0xdc00 then
      if 0xdc00 ≤ lo ∧ lo < 0xe000 then
        (joinPieces ps).map
          (Char.ofNat (0x10000 + (hi - 0xd800) * 0x400 + (lo - 0xdc00)) :: ·)
      else none
    else if 0xdc00 ≤ hi ∧ hi < 0xe000 then none
    else (joinPieces (.unit lo :: ps)).map (Char.ofNat hi :: ·)
  | .unit n :: ps =>
    if 0xd800 ≤ n ∧ n < 0xe000 then none else (joinPieces ps).map (Char.ofNat n :: ·)

theorem length_scanPieces {cs rest : List Char} {ps : List Piece}
    (h : scanPieces cs = some (ps, rest)) : rest.length < cs.length := by
  fun_induction scanPieces cs generalizing ps rest with
  | case1 => cases h
  | case2 cs => cases h; simp
  | case3 a b c d cs ih =>
    obtain ⟨n, -, h⟩ := Option.bind_eq_some_iff.1 h
    obtain ⟨⟨ps', rest'⟩, hs, h⟩ := Option.map_eq_some_iff.1 h
    cases h
    have := ih hs
    simp only [List.length_cons]
    omega
  | case4 e cs _ ih =>
    obtain ⟨n, -, h⟩ := Option.bind_eq_some_iff.1 h
    obtain ⟨⟨ps', rest'⟩, hs, h⟩ := Option.map_eq_some_iff.1 h
    cases h
    have := ih hs
    simp only [List.length_cons]
    omega
  | case5 => cases h
  | case6 c cs _ _ _ _ ih =>
    obtain ⟨⟨ps', rest'⟩, hs, h⟩ := Option.map_eq_some_iff.1 h
    cases h
    have := ih hs
    simp only [List.length_cons]
    omega

/-! ### The text as a whole -/

/-- Whether the character may stand between tokens. -/
def isGap (c : Char) : Bool := c = ' ' || c = '\n' || c = '\t' || c = '\r'

/-- The token that a single character makes. -/
def mark? (c : Char) : Option Token :=
  if c = '\x7b' then some .openBrace
  else if c = '\x7d' then some .closeBrace
  else if c = '[' then some .openBracket
  else if c = ']' then some .closeBracket
  else if c = ':' then some .colon
  else if c = ',' then some .comma
  else none

/-- Takes one of the words `null`, `true` and `false`. -/
def scanWord : List Char → Option (Token × List Char)
  | 'n' :: 'u' :: 'l' :: 'l' :: cs => some (.null, cs)
  | 't' :: 'r' :: 'u' :: 'e' :: cs => some (.bool true, cs)
  | 'f' :: 'a' :: 'l' :: 's' :: 'e' :: cs => some (.bool false, cs)
  | _ => none

theorem length_scanWord {cs rest : List Char} {t : Token} (h : scanWord cs = some (t, rest)) :
    rest.length < cs.length := by
  unfold scanWord at h
  split at h
  all_goals first
    | cases h; simp only [List.length_cons]; omega
    | cases h

/-- Takes a token that more than one character can make. -/
def scanToken (cs : List Char) : Option (Token × List Char) :=
  match cs with
  | '"' :: cs => (scanPieces cs).map fun (ps, rest) =>
      (.string ((joinPieces ps).map String.ofList), rest)
  | _ =>
    match scanWord cs with
    | some r => some r
    | none => (Numeral.scan cs).map fun (n, rest) => (.number n.value?, rest)

theorem length_scanToken {cs rest : List Char} {t : Token} (h : scanToken cs = some (t, rest)) :
    rest.length < cs.length := by
  unfold scanToken at h
  split at h
  · obtain ⟨⟨ps, rest'⟩, hs, h⟩ := Option.map_eq_some_iff.1 h
    cases h
    have := length_scanPieces hs
    simp only [List.length_cons]
    omega
  · split at h
    · next hw =>
      cases h
      exact length_scanWord hw
    · obtain ⟨⟨n, rest'⟩, hs, h⟩ := Option.map_eq_some_iff.1 h
      cases h
      exact Numeral.length_scan hs

/-- The tokens of a text. -/
def lex (cs : List Char) : List Token :=
  match cs with
  | [] => []
  | c :: cs =>
    if isGap c then lex cs
    else
      match mark? c with
      | some t => t :: lex cs
      | none =>
        match _h : scanToken (c :: cs) with
        | some (t, rest) => t :: lex rest
        | none => [.broken]
termination_by cs.length
decreasing_by
  · simp
  · simp
  · exact length_scanToken ‹_›

end CanaryRouting.Json
