import CanaryRouting.Data.KeyMap
import CanaryRouting.Json.Wire
import CanaryRouting.Decimal.Scientific
import CanaryRouting.Text.Quoted

/-!
# Decoding

A `Decoder` reads one type from what a JSON text shows, or says what is wrong with it. The members
of an object are read in the order of the text and the first fault counts; a missing member is
noticed only after all present ones have been read. A record may also be given as the list of its
fields in declaration order.

`Record` describes a record field by field; the names, which of them are required and how each is
read all come from the one expression that builds the record.
-/

namespace CanaryRouting

/-! ### Faults -/

/-- The kind of value that was found in place of another, with the value if it is a plain one. -/
inductive Found where
  /-- The value `null`. -/
  | null
  /-- A truth value. -/
  | bool (value : Bool)
  /-- An integer. -/
  | integer (value : Int)
  /-- A double. -/
  | double (bits : UInt64)
  /-- A text. -/
  | string (value : String)
  /-- A list. -/
  | sequence
  /-- An object. -/
  | map
  deriving DecidableEq, Repr

/-- Why something could not be decoded. -/
inductive Fault where
  /-- A value of one kind stands where another is expected. -/
  | wrongType (found : Found) (expected : String)
  /-- An integer is out of range. -/
  | outOfRange (value : Int) (expected : String)
  /-- A required field is missing. -/
  | missingField (name : String)
  /-- A field is given twice. -/
  | repeatedField (name : String)
  /-- A record given as a list lacks a required field. -/
  | tooFew (length : Nat) (record : String) (fields : Nat)
  /-- A record given as a list has items left over. -/
  | tooMany (length : Nat)
  /-- A word is none of the allowed ones. -/
  | unknownVariant (word : String) (allowed : List String)
  /-- A variant given as an object does not have exactly one member. -/
  | notOneKey
  /-- A text is not what is asked for: an embedded value, a time, or coded bytes. -/
  | unreadableText
  /-- The text is not JSON. -/
  | malformed
  deriving DecidableEq, Repr

/-- How a message names what was found. -/
def Found.describe : Found → String
  | .null => "null"
  | .bool b => "boolean `" ++ (if b then "true" else "false") ++ "`"
  | .integer n => "integer `" ++ toString n ++ "`"
  | .double bits => "floating point `" ++ Decimal.floatText bits ++ "`"
  | .string s => "string " ++ Text.quoted s
  | .sequence => "sequence"
  | .map => "map"

/-- The message of a fault. -/
def Fault.message : Fault → String
  | .wrongType found expected => "invalid type: " ++ found.describe ++ ", expected " ++ expected
  | .outOfRange n expected =>
    "invalid value: " ++ (Found.integer n).describe ++ ", expected " ++ expected
  | .missingField name => "missing field `" ++ name ++ "`"
  | .repeatedField name => "duplicate field `" ++ name ++ "`"
  | .tooFew n record fields =>
    "invalid length " ++ toString n ++ ", expected struct " ++ record ++ " with "
      ++ (if fields = 1 then "1 element" else toString fields ++ " elements")
  | .tooMany n => "invalid length " ++ toString n ++ ", expected fewer elements in array"
  | .unknownVariant word allowed =>
    "unknown variant `" ++ word ++ "`, expected one of "
      ++ ", ".intercalate (allowed.map fun a => "`" ++ a ++ "`")
  | .notOneKey => "invalid value: map, expected map with a single key"
  | .unreadableText => "the text is not what is asked for"
  | .malformed => "the text is not JSON"

/-- Whether the fault lies in the text, not in the value it shows. In a text, items left over in
a list that stands for a record are a fault of the text: the closing bracket is missing where it
is due. -/
def Fault.isTextual : Fault → Bool
  | .malformed => true
  | .tooMany _ => true
  | _ => false

/-! ### Plain values -/

/-- What a value is found to be; nothing is found where the text is not JSON. -/
def Wire.found? : Wire → Option Found
  | .null => some .null
  | .bool b => some (.bool b)
  | .number (some (.integer n)) => some (.integer n)
  | .number (some (.double bits)) => some (.double bits)
  | .string (some s) => some (.string s)
  | .array _ => some .sequence
  | .object _ => some .map
  | .number none | .string none | .deep .. | .broken => none

/-- The fault of finding this where something else is expected. -/
def Wire.mismatch (w : Wire) (expected : String) : Fault :=
  match w.found? with
  | some found => .wrongType found expected
  | none => .malformed

/-- A way to read one type. -/
abbrev Decoder (α : Type) := Wire → Except Fault α

namespace Decoder

variable {α β : Type}

/-- Changes what is read. -/
def map (f : α → β) (d : Decoder α) : Decoder β := fun w => (d w).map f

/-- Reads a value that is in hand. -/
def ofJson (d : Decoder α) (j : Json) : Except Fault α := d j.wire

/-- Reads a text; behind the value there may be blanks only. -/
def ofText (d : Decoder α) (s : String) : Except Fault α :=
  match Wire.ofText s with
  | (w, []) => d w
  | (w, _ :: _) => (d w).bind fun _ => .error .malformed

/-- Reads a text value. -/
def text : Decoder String
  | .string (some s) => .ok s
  | w => .error (w.mismatch "a string")

/-- Reads the one text that is expected. -/
def only (expected : String) : Decoder Unit := fun w =>
  (text w).bind fun s => if s = expected then .ok () else .error (.unknownVariant s [expected])

/-- Reads a truth value. -/
def boolean : Decoder Bool
  | .bool b => .ok b
  | w => .error (w.mismatch "a boolean")

/-- Reads a whole number between bounds. -/
def whole (low high : Int) (expected : String) : Decoder Int
  | .number (some (.integer n)) =>
    if low ≤ n ∧ n ≤ high then .ok n else .error (.outOfRange n expected)
  | w => .error (w.mismatch expected)

/-- Reads a whole number of 32 bits with a sign. -/
def int32 : Decoder Int := whole (-2147483648) 2147483647 "i32"

/-- Reads a whole number of 64 bits with a sign. -/
def int64 : Decoder Int := whole (-9223372036854775808) 9223372036854775807 "i64"

/-- Reads a position: a whole number of 64 bits without a sign. -/
def position : Decoder Nat := map Int.toNat (whole 0 18446744073709551615 "usize")

/-- Reads `null` as the absence of a value. -/
def optional (d : Decoder α) : Decoder (Option α)
  | .null => .ok none
  | w => (d w).map some

/-- Reads the items of a list one after the other. -/
def items (d : Decoder α) : List Wire → Except Fault (List α)
  | [] => .ok []
  | w :: ws => (d w).bind fun x => (items d ws).map (x :: ·)

/-- Reads a list. -/
def list (d : Decoder α) : Decoder (List α)
  | .array ws => items d ws
  | w => .error (w.mismatch "a sequence")

/-- Reads the members of an object into a map; of two members of one name the later counts. -/
def keyedMembers (d : Decoder α) (m : KeyMap String α) :
    List (Option String × Wire) → Except Fault (KeyMap String α)
  | [] => .ok m
  | (none, _) :: _ => .error .malformed
  | (some key, w) :: ms => (d w).bind fun x => keyedMembers d (m.insert key x) ms

/-- Reads an object as a map. -/
def keyed (d : Decoder α) : Decoder (KeyMap String α)
  | .object ms => keyedMembers d KeyMap.empty ms
  | w => .error (w.mismatch "a map")

/-- Reads one of several words, alone or as the name of an empty member. -/
def variant (words : List (String × α)) : Decoder α
  | .string (some s) => find s
  | .object [(some s, w)] =>
    (find s).bind fun x =>
      match w with
      | .null => .ok x
      | w => .error (w.mismatch "unit")
  | .object _ => .error .notOneKey
  | w => .error (w.mismatch "string or map")
where
  /-- The value of a word. -/
  find (s : String) : Except Fault α :=
    match words.lookup s with
    | some x => .ok x
    | none => .error (.unknownVariant s (words.map (·.1)))

end Decoder

/-! ### Values -/

namespace Decoder

/-- The name of a member that embeds a value: where it comes first, the object stands for the value
that the text of the member is. -/
def embeddedName : String := "$serde_json::private::RawValue"

/-- The first member if it embeds a value, and whether it is the only one. -/
def embedded? : List (Option String × Wire) → Option (Wire × Bool)
  | (some name, w) :: ms => if name = embeddedName then some (w, ms.isEmpty) else none
  | _ => none

/-- Reads an embedded value; behind it there may be no other member. Only a text embeds a value, so
that a list or object is at fault however deep it is nested. -/
def embedded (ofText? : String → Option Json) (w : Wire) (alone : Bool) : Except Fault Json :=
  match w with
  | .string (some s) =>
    match ofText? s with
    | some x => if alone then .ok x else .error .malformed
    | none => .error .unreadableText
  | .deep isList _ => .error (.wrongType (if isList then .sequence else .map) "raw value")
  | w => .error (w.mismatch "raw value")

mutual

/-- Reads any value; of two members of one name the later counts. -/
def value (ofText? : String → Option Json) : Wire → Except Fault Json
  | .null => .ok .null
  | .bool b => .ok (.bool b)
  | .number (some n) => .ok (.number n)
  | .string (some s) => .ok (.string s)
  | .array ws => (valueItems ofText? ws).map .array
  | .object ms =>
    match embedded? ms with
    | some (w, alone) => embedded ofText? w alone
    | none => (valueMembers ofText? [] ms).map .object
  | .number none | .string none | .deep .. | .broken => .error .malformed

/-- Reads the items of a list. -/
def valueItems (ofText? : String → Option Json) : List Wire → Except Fault (List Json)
  | [] => .ok []
  | w :: ws => (value ofText? w).bind fun x => (valueItems ofText? ws).map (x :: ·)

/-- Reads the members of an object and puts them in key order among those already taken. -/
def valueMembers (ofText? : String → Option Json) (taken : List (String × Json)) :
    List (Option String × Wire) → Except Fault (List (String × Json))
  | [] => .ok taken
  | (none, _) :: _ => .error .malformed
  | (some key, w) :: ms =>
    (value ofText? w).bind fun x => valueMembers ofText? (Json.insertMember key x taken) ms

end

/-- The value that a text is, in which values are embedded in one another less than `depth` times.
A text that is embedded in another is shorter than it. -/
def valueOfText? : Nat → String → Option Json
  | 0, _ => none
  | depth + 1, s => (ofText (value (valueOfText? depth)) s).toOption

/-- Reads any value. -/
def json : Decoder Json := value fun s => valueOfText? (s.length + 1) s

end Decoder

/-- The value that a text is, if it is JSON and nothing but blanks follow. -/
def Json.parse? (s : String) : Option Json := (Decoder.json.ofText s).toOption

/-! ### Records -/

/-- One field of a record as far as checking goes. -/
structure Slot where
  /-- The name of the field. -/
  name : String
  /-- Whether an object must have the field. -/
  required : Bool
  /-- Whether a list that stands for the record must reach the field. -/
  listed : Bool
  /-- Whether what stands there is right. -/
  check : Wire → Except Fault Unit

/-- How a record is read: its fields in declaration order, and the record made of them. -/
structure Record (α : Type) where
  /-- The fields. -/
  slots : List Slot
  /-- The record, from the present fields. -/
  build : List (String × Wire) → Except Fault α

namespace Record

variable {α β : Type}

instance : Functor Record where
  map f r := { slots := r.slots, build := fun ms => (r.build ms).map f }

instance : Seq Record where
  seq f r :=
    { slots := f.slots ++ (r ()).slots
      build := fun ms => (f.build ms).bind fun g => ((r ()).build ms).map g }

/-- A field that must be there. -/
def required (name : String) (d : Decoder α) : Record α where
  slots := [⟨name, true, true, fun w => (d w).map fun _ => ()⟩]
  build ms :=
    match ms.lookup name with
    | some w => d w
    | none => .error (.missingField name)

/-- A field that has a default. -/
def defaulted (name : String) (d : Decoder α) (default : α) : Record α where
  slots := [⟨name, false, false, fun w => (d w).map fun _ => ()⟩]
  build ms :=
    match ms.lookup name with
    | some w => d w
    | none => .ok default

/-- A field that may be absent or `null`. -/
def optional (name : String) (d : Decoder α) : Record (Option α) :=
  defaulted name (Decoder.optional d) none

/-- A field that may be absent from an object or `null`, but not absent from a list. -/
def nullable (name : String) (d : Decoder α) : Record (Option α) :=
  let r := optional name d
  { r with slots := r.slots.map fun s => { s with listed := true } }

/-- A field that the record does not have. -/
def absent : Record (Option α) where
  slots := []
  build _ := .ok none

/-- Checks members in the order of the text and keeps those that are fields. -/
def checkMembers (slots : List Slot) (seen : List String) :
    List (Option String × Wire) → Except Fault (List (String × Wire))
  | [] => .ok []
  | (none, _) :: _ => .error .malformed
  | (some key, w) :: ms =>
    match slots.find? (·.name == key) with
    | none => if w.passable then checkMembers slots seen ms else .error .malformed
    | some slot =>
      if key ∈ seen then .error (.repeatedField key)
      else
        (slot.check w).bind fun _ =>
          (checkMembers slots (key :: seen) ms).map ((key, w) :: ·)

/-- Checks the items of a list that stands for a record. -/
def checkItems : List Slot → List Wire → Except Fault (List (String × Wire))
  | slot :: slots, w :: ws =>
    (slot.check w).bind fun _ => (checkItems slots ws).map ((slot.name, w) :: ·)
  | _, _ => .ok []

/-- Reads a record, given as an object or as the list of its fields. -/
def decoder (name : String) (r : Record α) : Decoder α
  | .object ms =>
    (checkMembers r.slots [] ms).bind fun fields =>
      match r.slots.find? (fun s => s.required && (fields.lookup s.name).isNone) with
      | some slot => .error (.missingField slot.name)
      | none => r.build fields
  | .array ws =>
    (checkItems r.slots ws).bind fun fields =>
      if r.slots.length < ws.length then .error (.tooMany ws.length)
      else if (r.slots.drop ws.length).any (·.listed) then
        .error (.tooFew ws.length name r.slots.length)
      else r.build fields
  | w => .error (w.mismatch ("struct " ++ name))

/-- Reads a record that is only ever given as an object, in which a field that is missing or
`null` has its default and a repeated field counts as it is given last. -/
def lenientDecoder (name : String) (r : Record α) : Decoder α
  | .object ms =>
    (checkLenient ms).bind fun fields => r.build fields.reverse
  | w => .error (w.mismatch name)
where
  /-- Checks members in the order of the text. -/
  checkLenient : List (Option String × Wire) → Except Fault (List (String × Wire))
    | [] => .ok []
    | (none, _) :: _ => .error .malformed
    | (some key, w) :: ms =>
      match r.slots.find? (·.name == key) with
      | none => if w.passable then checkLenient ms else .error .malformed
      | some slot => (slot.check w).bind fun _ => (checkLenient ms).map ((key, w) :: ·)

end Record

end CanaryRouting
