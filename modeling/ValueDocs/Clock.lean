/-!
# Clock — writing a point in time

A point in time is a number of seconds since the start of 1970, and is written as a date and a time
of day without a zone of its own.  Dates are counted in eras of four hundred years that start in
March, so that the day a leap year adds comes last.
-/

namespace ValueDocs.Clock

/-- A date. -/
structure Date where
  year : Nat
  month : Nat
  day : Nat
  deriving DecidableEq, Repr

/-- The date of a day counted from the start of 1970. -/
def dateOf (day : Nat) : Date :=
  let n := day + 719468
  let ofEra := n % 146097
  let year := (ofEra - ofEra / 1460 + ofEra / 36524 - ofEra / 146096) / 365
  let ofYear := ofEra - (365 * year + year / 4 - year / 100)
  let month := (5 * ofYear + 2) / 153
  ⟨year + 400 * (n / 146097) + (if month < 10 then 0 else 1),
    if month < 10 then month + 3 else month - 9, ofYear - (153 * month + 2) / 5 + 1⟩

/-- A number padded with zeros. -/
def padded (width n : Nat) : String :=
  let digits := Nat.toDigits 10 n
  String.ofList (List.replicate (width - digits.length) '0' ++ digits)

/-- The written form of a point in time. -/
def write (seconds : Nat) : String :=
  let date := dateOf (seconds / 86400)
  let ofDay := seconds % 86400
  "-".intercalate [padded 4 date.year, padded 2 date.month, padded 2 date.day] ++ "T" ++
    ":".intercalate
      [padded 2 (ofDay / 3600), padded 2 (ofDay / 60 % 60), padded 2 (ofDay % 60)] ++ "+00:00"

end ValueDocs.Clock
