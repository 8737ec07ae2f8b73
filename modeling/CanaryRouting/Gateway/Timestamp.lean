import CanaryRouting.Json.Numeral
import CanaryRouting.Text.Blank

/-!
# Points in time

Metadata say when something happened. A time is read from a date, a time of day and the distance
from UTC, with some freedom in the blanks between them (`Timestamp.ofText?`), and is written in
UTC without the parts of a second (`Timestamp.text`).
-/

namespace CanaryRouting

/-- A date of the Gregorian calendar and a time of day in UTC. -/
structure Timestamp where
  /-- The year; the one before year 1 is year 0. -/
  year : Int
  /-- The month, from 1. -/
  month : Nat
  /-- The day of the month, from 1. -/
  day : Nat
  /-- The hour. -/
  hour : Nat
  /-- The minute. -/
  minute : Nat
  /-- The second, which is 60 if it is inserted at the end of a minute. -/
  second : Nat
  deriving DecidableEq, Repr

namespace Timestamp

/-! ### The calendar -/

/-- Whether a year has a day more than others. -/
def isLeapYear (year : Int) : Bool := year % 4 = 0 && (year % 100 ≠ 0 || year % 400 = 0)

/-- How many days a month has. -/
def daysInMonth (year : Int) (month : Nat) : Nat :=
  if month = 2 then if isLeapYear year then 29 else 28
  else if month ∈ [4, 6, 9, 11] then 30
  else 31

/-- Whether there is such a point in time; years reach about as far back as forth. -/
def isValid (t : Timestamp) : Bool :=
  -262143 ≤ t.year && t.year ≤ 262142 && 1 ≤ t.month && t.month ≤ 12 && 1 ≤ t.day
    && t.day ≤ daysInMonth t.year t.month && t.hour < 24 && t.minute < 60 && t.second ≤ 60

/-- The same time on the next day. -/
def nextDay (t : Timestamp) : Timestamp :=
  if t.day < daysInMonth t.year t.month then { t with day := t.day + 1 }
  else if t.month < 12 then { t with month := t.month + 1, day := 1 }
  else { t with year := t.year + 1, month := 1, day := 1 }

/-- The same time on the day before. -/
def previousDay (t : Timestamp) : Timestamp :=
  if 1 < t.day then { t with day := t.day - 1 }
  else if 1 < t.month then
    { t with month := t.month - 1, day := daysInMonth t.year (t.month - 1) }
  else { t with year := t.year - 1, month := 12, day := 31 }

/-- The time so many minutes earlier, for less than a day either way. -/
def earlier (t : Timestamp) (minutes : Int) : Timestamp :=
  let total : Int := t.hour * 60 + t.minute - minutes
  let clock := (total % 1440).toNat
  let t := if total < 0 then t.previousDay else if total < 1440 then t else t.nextDay
  { t with hour := clock / 60, minute := clock % 60 }

/-! ### Reading -/

/-- A reader takes something from the front of a text, if it is there. -/
abbrev Reader (α : Type) := List Char → Option (α × List Char)

/-- Takes up to so many digits. -/
def takeDigits (most : Nat) : Reader Nat := fun cs =>
  let digits := (cs.take most).takeWhile Char.isDigit
  if digits.isEmpty then none else some (Json.Numeral.ofDigits digits, cs.drop digits.length)

/-- Takes blanks and a number of one or two digits. -/
def takeNumber : Reader Nat := fun cs => takeDigits 2 (cs.dropWhile Text.isBlank)

/-- Takes blanks and a year. It has up to four digits, or as many as it likes behind a sign. -/
def takeYear : Reader Int := fun cs =>
  match cs.dropWhile Text.isBlank with
  | '-' :: cs => (takeDigits cs.length cs).map fun (n, rest) => (-n, rest)
  | '+' :: cs => (takeDigits cs.length cs).map fun (n, rest) => (n, rest)
  | cs => (takeDigits 4 cs).map fun (n, rest) => (n, rest)

/-- Takes blanks and a mark. -/
def takeMark (mark : Char) : Reader Unit := fun cs =>
  match cs.dropWhile Text.isBlank with
  | c :: rest => if c = mark then some ((), rest) else none
  | [] => none

/-- Takes what stands between the date and the time of day. -/
def takeDivider : Reader Unit
  | c :: rest => if c ∈ ['T', 't', ' '] then some ((), rest) else none
  | [] => none

/-- Takes the parts of a second, if any are given. -/
def takeFraction : Reader Unit
  | '.' :: cs => (takeDigits cs.length cs).map fun (_, rest) => ((), rest)
  | cs => some ((), cs)

/-- Takes the two digits each of hours and minutes behind a sign, and makes minutes of them. -/
def takeClock : Reader Nat
  | h :: h' :: cs =>
    match cs.dropWhile fun c => c = ':' || Text.isBlank c with
    | m :: m' :: rest =>
      let hours := Json.Numeral.ofDigits [h, h']
      let minutes := Json.Numeral.ofDigits [m, m']
      if [h, h', m, m'].all Char.isDigit && hours < 24 && minutes < 60 then
        some (hours * 60 + minutes, rest)
      else none
    | _ => none
  | _ => none

/-- Takes the minutes by which the time is ahead of UTC. -/
def takeOffset : Reader Int
  | 'Z' :: rest | 'z' :: rest => some (0, rest)
  | '+' :: cs => (takeClock cs).map fun (n, rest) => (n, rest)
  | '-' :: cs | '−' :: cs => (takeClock cs).map fun (n, rest) => (-n, rest)
  | u :: t :: c :: rest =>
    if [u.toLower, t.toLower, c.toLower] = ['u', 't', 'c'] then some (0, rest) else none
  | _ => none

/-- The time that a text is. -/
def ofText? (s : String) : Option Timestamp := do
  let (year, cs) ← takeYear s.toList
  let (_, cs) ← takeMark '-' cs
  let (month, cs) ← takeNumber cs
  let (_, cs) ← takeMark '-' cs
  let (day, cs) ← takeNumber cs
  let (_, cs) ← takeDivider cs
  let (hour, cs) ← takeNumber cs
  let (_, cs) ← takeMark ':' cs
  let (minute, cs) ← takeNumber cs
  let (_, cs) ← takeMark ':' cs
  let (second, cs) ← takeNumber cs
  let (_, cs) ← takeFraction cs
  let (offset, cs) ← takeOffset (cs.dropWhile Text.isBlank)
  let there : Timestamp := { year, month, day, hour, minute, second }
  let here := there.earlier offset
  if there.isValid && here.isValid && cs.all Text.isBlank then some here else none

/-! ### Writing -/

/-- Writes a number with at least so many digits. -/
def padded (width n : Nat) : String :=
  let digits := Nat.toDigits 10 n
  String.ofList (List.replicate (width - digits.length) '0' ++ digits)

/-- The text of a time; a year that does not have four digits gets a sign. -/
def text (t : Timestamp) : String :=
  let year :=
    if 0 ≤ t.year ∧ t.year < 10000 then padded 4 t.year.toNat
    else (if t.year < 0 then "-" else "+") ++ padded 4 t.year.natAbs
  year ++ "-" ++ padded 2 t.month ++ "-" ++ padded 2 t.day ++ "T" ++ padded 2 t.hour ++ ":"
    ++ padded 2 t.minute ++ ":" ++ padded 2 t.second ++ "Z"

end Timestamp

end CanaryRouting
