import CanaryRouting.Json.Token

/-!
# What a JSON text shows

A request is decoded while its text is read, so a wrong value is reported even if the text goes
wrong further on. `Wire` is a text as far as it can be read: a value in which the place where the
text stops being JSON is marked `broken`. A value that is already in hand has a `Wire` without
such a place (`Json.wire`), so that values and texts are decoded by the same decoders.

Parts of a text that nobody looks at are less strict than the rest: they may hold half of a
surrogate pair, a number that is too large, and lists nested to any depth (`Wire.passable`).
-/

namespace CanaryRouting

/-- A JSON text as far as it can be read. -/
inductive Wire where
  /-- The value `null`. -/
  | null
  /-- A truth value. -/
  | bool (value : Bool)
  /-- A number, unless it is too large. -/
  | number (value : Option Json.Number)
  /-- A text, unless it holds half of a surrogate pair. -/
  | string (value : Option String)
  /-- A list; if the text breaks in it, its last item is broken. -/
  | array (items : List Wire)
  /-- Named values in the order of the text; a broken name stands for the rest of the object. -/
  | object (members : List (Option String × Wire))
  /-- A list or object nested too deep to be read: whether it is a list, and whether its text is
  sound. -/
  | deep (isList sound : Bool)
  /-- The place where the text stops being JSON. -/
  | broken
  deriving Repr, Inhabited

namespace Wire

open Json (Token)

/-! ### From texts -/

mutual

/-- Takes one value from the front of the tokens. The bound on the number of steps is not reached:
every token takes at most two. -/
def readValue : Nat → List Token → Wire × List Token
  | 0, _ => (.broken, [])
  | _ + 1, .null :: ts => (.null, ts)
  | _ + 1, .bool b :: ts => (.bool b, ts)
  | _ + 1, .number n :: ts => (.number n, ts)
  | _ + 1, .string s :: ts => (.string s, ts)
  | _ + 1, .openBracket :: .closeBracket :: ts => (.array [], ts)
  | steps + 1, .openBracket :: ts =>
    let (items, rest) := readItems steps ts
    (.array items, rest)
  | _ + 1, .openBrace :: .closeBrace :: ts => (.object [], ts)
  | steps + 1, .openBrace :: ts =>
    let (members, rest) := readMembers steps ts
    (.object members, rest)
  | _ + 1, _ => (.broken, [])

/-- Takes the items of a list and its closing bracket. -/
def readItems : Nat → List Token → List Wire × List Token
  | 0, _ => ([.broken], [])
  | steps + 1, ts =>
    match readValue steps ts with
    | (item, .comma :: rest) =>
      let (items, rest) := readItems steps rest
      (item :: items, rest)
    | (item, .closeBracket :: rest) => ([item], rest)
    | (item, _) => ([item, .broken], [])

/-- Takes the members of an object and its closing brace. -/
def readMembers : Nat → List Token → List (Option String × Wire) × List Token
  | 0, _ => ([(none, .broken)], [])
  | steps + 1, .string key :: .colon :: ts =>
    match readValue steps ts with
    | (value, .comma :: rest) =>
      let (members, rest) := readMembers steps rest
      ((key, value) :: members, rest)
    | (value, .closeBrace :: rest) => ([(key, value)], rest)
    | (value, _) => ([(key, value), (none, .broken)], [])
  | _ + 1, .string key :: _ => ([(key, .broken)], [])
  | _ + 1, _ => ([(none, .broken)], [])

end

mutual

/-- Whether the text is sound: a part that nobody looks at has to be no more than that. -/
def passable : Wire → Bool
  | .broken => false
  | .deep _ sound => sound
  | .array items => passableItems items
  | .object members => passableMembers members
  | _ => true

/-- Whether the text of every item is sound. -/
def passableItems : List Wire → Bool
  | [] => true
  | w :: ws => w.passable && passableItems ws

/-- Whether the text of every member is sound. -/
def passableMembers : List (Option String × Wire) → Bool
  | [] => true
  | (_, w) :: ms => w.passable && passableMembers ms

end

mutual

/-- Closes the lists and objects that are nested deeper than the limit. -/
def limitDepth : Nat → Wire → Wire
  | 0, .array items => .deep true (passableItems items)
  | 0, .object members => .deep false (passableMembers members)
  | depth + 1, .array items => .array (limitItems depth items)
  | depth + 1, .object members => .object (limitMembers depth members)
  | _, w => w

/-- Limits the depth of every item. -/
def limitItems (depth : Nat) : List Wire → List Wire
  | [] => []
  | w :: ws => limitDepth depth w :: limitItems depth ws

/-- Limits the depth of every member. -/
def limitMembers (depth : Nat) : List (Option String × Wire) → List (Option String × Wire)
  | [] => []
  | (k, w) :: ms => (k, limitDepth depth w) :: limitMembers depth ms

end

/-- Lists and objects may be nested this deep. -/
def maxDepth : Nat := 127

/-- What a text shows, and the tokens behind it. -/
def ofText (s : String) : Wire × List Token :=
  let tokens := Json.lex s.toList
  let (w, rest) := readValue (2 * tokens.length + 2) tokens
  (w.limitDepth maxDepth, rest)

end Wire

/-! ### From values -/

namespace Json

mutual

/-- What a text of the value shows. -/
def wire : Json → Wire
  | .null => .null
  | .bool b => .bool b
  | .number n => .number (some n)
  | .string s => .string (some s)
  | .array items => .array (wireItems items)
  | .object members => .object (wireMembers members)

/-- What the texts of the items show. -/
def wireItems : List Json → List Wire
  | [] => []
  | x :: xs => x.wire :: wireItems xs

/-- What the texts of the members show. -/
def wireMembers : List (String × Json) → List (Option String × Wire)
  | [] => []
  | (k, x) :: ms => (some k, x.wire) :: wireMembers ms

end

theorem wireMembers_eq_map (ms : List (String × Json)) :
    wireMembers ms = ms.map fun m => (some m.1, m.2.wire) := by
  induction ms with
  | nil => rfl
  | cons m ms ih => rw [wireMembers, ih, List.map_cons]

end Json

end CanaryRouting
