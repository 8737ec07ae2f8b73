/-!
# JSON values

The values that configurations, requests and stored objects are written in. A number is either an
integer or a double; the two differ in what they may be read as, so `1` and `1.0` are different
values. The members of an object keep the order they are listed in; a value read from a text lists
them in key order.
-/

namespace CanaryRouting

/-- A JSON number. -/
inductive Json.Number where
  /-- A number written without fraction and exponent that 64 bits can hold. -/
  | integer (value : Int)
  /-- Any other number, as the bits of a double. -/
  | double (bits : UInt64)
  deriving DecidableEq, Repr, Inhabited

/-- A JSON value. -/
inductive Json where
  /-- The value `null`. -/
  | null
  /-- A truth value. -/
  | bool (value : Bool)
  /-- A number. -/
  | number (value : Json.Number)
  /-- A text. -/
  | string (value : String)
  /-- A list of values. -/
  | array (items : List Json)
  /-- A list of named values. -/
  | object (members : List (String × Json))
  deriving Repr, Inhabited

namespace Json

mutual

/-- Equality of values can be decided. -/
def decideEq (a b : Json) : Decidable (a = b) :=
  match a, b with
  | .null, .null => isTrue rfl
  | .bool x, .bool y => decidable_of_iff (x = y) (by simp)
  | .number x, .number y => decidable_of_iff (x = y) (by simp)
  | .string x, .string y => decidable_of_iff (x = y) (by simp)
  | .array xs, .array ys =>
    match decideItemsEq xs ys with
    | isTrue h => isTrue (by rw [h])
    | isFalse h => isFalse (fun e => h (Json.array.inj e))
  | .object xs, .object ys =>
    match decideMembersEq xs ys with
    | isTrue h => isTrue (by rw [h])
    | isFalse h => isFalse (fun e => h (Json.object.inj e))
  | .null, .bool _ | .null, .number _ | .null, .string _ | .null, .array _ | .null, .object _
  | .bool _, .null | .bool _, .number _ | .bool _, .string _ | .bool _, .array _
  | .bool _, .object _ | .number _, .null | .number _, .bool _ | .number _, .string _
  | .number _, .array _ | .number _, .object _ | .string _, .null | .string _, .bool _
  | .string _, .number _ | .string _, .array _ | .string _, .object _ | .array _, .null
  | .array _, .bool _ | .array _, .number _ | .array _, .string _ | .array _, .object _
  | .object _, .null | .object _, .bool _ | .object _, .number _ | .object _, .string _
  | .object _, .array _ => isFalse nofun

/-- Equality of lists of values can be decided. -/
def decideItemsEq (xs ys : List Json) : Decidable (xs = ys) :=
  match xs, ys with
  | [], [] => isTrue rfl
  | x :: xs, y :: ys =>
    match decideEq x y, decideItemsEq xs ys with
    | isTrue h, isTrue h' => isTrue (by rw [h, h'])
    | isFalse h, _ => isFalse (fun e => h (List.cons.inj e).1)
    | _, isFalse h => isFalse (fun e => h (List.cons.inj e).2)
  | [], _ :: _ | _ :: _, [] => isFalse nofun

/-- Equality of lists of members can be decided. -/
def decideMembersEq (xs ys : List (String × Json)) : Decidable (xs = ys) :=
  match xs, ys with
  | [], [] => isTrue rfl
  | (k, x) :: xs, (j, y) :: ys =>
    match decEq k j, decideEq x y, decideMembersEq xs ys with
    | isTrue h, isTrue h', isTrue h'' => isTrue (by rw [h, h', h''])
    | isFalse h, _, _ => isFalse (fun e => h (Prod.ext_iff.1 (List.cons.inj e).1).1)
    | _, isFalse h, _ => isFalse (fun e => h (Prod.ext_iff.1 (List.cons.inj e).1).2)
    | _, _, isFalse h => isFalse (fun e => h (List.cons.inj e).2)
  | [], _ :: _ | _ :: _, [] => isFalse nofun

end

instance : DecidableEq Json := decideEq

/-- The whole number `n` as a value. -/
def ofInt (n : Int) : Json := .number (.integer n)

/-- The value of a member, if the value is an object that has it. -/
def member? (j : Json) (key : String) : Option Json :=
  match j with
  | .object members => (members.find? (·.1 == key)).map (·.2)
  | _ => none

/-- Puts a member at its place in key order, over a member of the same name. -/
def insertMember (key : String) (x : Json) : List (String × Json) → List (String × Json)
  | [] => [(key, x)]
  | m :: ms =>
    if key < m.1 then (key, x) :: m :: ms
    else if key = m.1 then (key, x) :: ms
    else m :: insertMember key x ms

/-- The object with these members; absent ones are left out. -/
def record (members : List (Option (String × Json))) : Json :=
  .object (members.filterMap id)

/-- A member that is always written. -/
def always (key : String) (x : Json) : Option (String × Json) := some (key, x)

/-- A member that is written when there is a value for it. -/
def whenSome {α : Type} (key : String) (encode : α → Json) (x : Option α) :
    Option (String × Json) := x.map fun v => (key, encode v)

end Json

end CanaryRouting
