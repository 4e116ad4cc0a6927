import ValueDocs.Json.Parse

/-!
# Yaml/Timestamp — days, and times of day on them

A day is written with dashes.  A time may follow it after a `T` or blanks, with a fraction of a
second and the distance from universal time.  A scalar is a timestamp without being called one if
its month and day have two digits each, or if it has a time.
-/

namespace ValueDocs.Yaml

/-- A time of day. -/
structure TimeOfDay where
  hour : Nat
  minute : Nat
  second : Nat
  microsecond : Nat := 0
  /-- How many minutes it is ahead of universal time, if that is told. -/
  ahead : Option Int := none
  deriving DecidableEq, Repr

/-- A day, and perhaps a time on it. -/
structure Timestamp where
  year : Nat
  month : Nat
  day : Nat
  time : Option TimeOfDay := none
  deriving DecidableEq, Repr

namespace Timestamp

/-! ## Reading -/

/-- The number that `least` to `most` digits write, and what follows them. -/
def number? (least most : Nat) (s : List Char) : Option (Nat × List Char) :=
  let digits := (s.take most).takeWhile Json.isAsciiDigit
  if digits.length < least then none else some (Json.ofAsciiDigits digits, s.drop digits.length)

/-- What follows a character. -/
def after? (c : Char) : List Char → Option (List Char)
  | [] => none
  | d :: s => if d = c then some s else none

/-- What follows spaces and tabs. -/
def skipBlanks (s : List Char) : List Char := s.dropWhile fun c => c == ' ' || c == '\t'

/-- What follows the mark between a day and a time. -/
def afterMark? : List Char → Option (List Char)
  | [] => none
  | c :: s =>
    if c == 'T' || c == 't' then some s
    else if c == ' ' || c == '\t' then some (skipBlanks s)
    else none

/-- The fraction of a second in millionths, further digits cut off, and what follows it. -/
def fraction : List Char → Nat × List Char
  | '.' :: s =>
    let (digits, s) := s.span Json.isAsciiDigit
    (Json.ofAsciiDigits ((digits ++ List.replicate 6 '0').take 6), s)
  | s => (0, s)

/-- The distance from universal time that a text writes after a sign. -/
def distance? (s : List Char) : Option Int := do
  let (hours, s) ← number? 1 2 s
  if s.isEmpty then return 60 * (hours : Int)
  let (minutes, s) ← number? 2 2 (← after? ':' s)
  if s.isEmpty then return 60 * (hours : Int) + minutes else none

/-- How far a text says a time is ahead of universal time, if it says so. -/
def ahead? (s : List Char) : Option (Option Int) :=
  if s.isEmpty then some none
  else match skipBlanks s with
    | ['Z'] => some (some 0)
    | '+' :: s => (distance? s).map some
    | '-' :: s => (distance? s).map fun d => some (-d)
    | _ => none

/-- The time of day a text writes. -/
def time? (s : List Char) : Option TimeOfDay := do
  let (hour, s) ← number? 1 2 s
  let (minute, s) ← number? 2 2 (← after? ':' s)
  let (second, s) ← number? 2 2 (← after? ':' s)
  let (microsecond, s) := fraction s
  return { hour, minute, second, microsecond, ahead := ← ahead? s }

/-- The timestamp a text writes, which may be of no day that is. -/
def read? (s : List Char) : Option Timestamp := do
  let (year, s) ← number? 4 4 s
  let (month, s) ← number? 1 2 (← after? '-' s)
  let (day, s) ← number? 1 2 (← after? '-' s)
  if s.isEmpty then return { year, month, day }
  return { year, month, day, time := some (← time? (← afterMark? s)) }

/-- Whether a text is a timestamp by its form. -/
def isWritten (s : List Char) : Bool := (read? s).any fun t => t.time.isSome || s.length == 10

/-! ## Validity -/

/-- Whether a year has a day more than others. -/
def isLeap (year : Nat) : Bool := year % 4 == 0 && (year % 100 != 0 || year % 400 == 0)

/-- The number of days in a month. -/
def daysIn (year month : Nat) : Nat :=
  if month = 2 then if isLeap year then 29 else 28
  else if month = 4 ∨ month = 6 ∨ month = 9 ∨ month = 11 then 30
  else 31

/-- Whether there is such a time of day. -/
def isValidTime (t : TimeOfDay) : Bool :=
  t.hour < 24 && t.minute < 60 && t.second < 60 && t.ahead.all fun d => d.natAbs < 24 * 60

/-- Whether there is such a day and time. -/
def isValid (t : Timestamp) : Bool :=
  1 ≤ t.year && 1 ≤ t.month && t.month ≤ 12 && 1 ≤ t.day && t.day ≤ daysIn t.year t.month &&
    t.time.all isValidTime

/-! ## Writing -/

/-- A number with zeros before it up to a width. -/
def padded (width n : Nat) : String :=
  let digits := toString n
  String.ofList (List.replicate (width - digits.length) '0') ++ digits

/-- The text of a distance from universal time. -/
def distanceText (d : Int) : String :=
  let n := d.natAbs
  (if d < 0 then "-" else "+") ++ padded 2 (n / 60) ++ ":" ++ padded 2 (n % 60)

/-- The text of a time of day. -/
def timeText (t : TimeOfDay) : String :=
  padded 2 t.hour ++ ":" ++ padded 2 t.minute ++ ":" ++ padded 2 t.second ++
    (if t.microsecond = 0 then "" else "." ++ padded 6 t.microsecond) ++
    (t.ahead.map distanceText).getD ""

/-- The text of a timestamp, with a space between the day and the time. -/
def text (t : Timestamp) : String :=
  padded 4 t.year ++ "-" ++ padded 2 t.month ++ "-" ++ padded 2 t.day ++
    (t.time.map fun time => " " ++ timeText time).getD ""

end Timestamp
end ValueDocs.Yaml
