import Tdms.Timestamp
import Tdms.Timestamp.Calendar

/-!
Moments as text: a date and a time of day in UTC, for the years in which the
calendar is used, and the plain counts outside them.
-/

namespace Tdms

/-- `number` in decimal digits, with zeros in front up to `width` digits. -/
def paddedDigits (width number : Nat) : String :=
  let digits := Nat.toDigits 10 number
  String.ofList (List.replicate (width - digits.length) '0' ++ digits)

/-- Seconds in a day. -/
def secondsPerDay : Nat := 86400

/-- A year with at least four digits. Years after 9999 have a plus sign. -/
def yearText (year : Int) : String :=
  let sign := if year < 0 then "-" else if 9999 < year then "+" else ""
  sign ++ paddedDigits 4 year.natAbs

/-- A moment given by seconds since the start of 1970, as date and time up to the second. -/
def dateTimeText (unixSeconds : Int) : String :=
  let date := Calendar.dateOfDays (unixSeconds / secondsPerDay)
  let time := (unixSeconds % secondsPerDay).toNat
  let day :=
    yearText date.year ++ "-" ++ paddedDigits 2 date.month ++ "-" ++ paddedDigits 2 date.day
  let clock := paddedDigits 2 (time / 3600) ++ ":" ++ paddedDigits 2 (time / 60 % 60) ++ ":" ++
    paddedDigits 2 (time % 60)
  day ++ "T" ++ clock

/-- The first year that is written as such. -/
def firstYear : Int := -262143

/-- The last year that is written as such. -/
def lastYear : Int := 262142

namespace Timestamp

/-- Whether the moment falls into the years that are written as such. -/
def hasDate (moment : Timestamp) : Bool :=
  let year := (Calendar.dateOfDays (moment.unixSeconds / secondsPerDay)).year
  firstYear ≤ year && year ≤ lastYear

/-- A moment as text: a date with nanoseconds, or its counts. -/
def text (moment : Timestamp) : String :=
  if moment.hasDate then
    dateTimeText moment.unixSeconds ++ "." ++ paddedDigits 9 moment.subsecNanos ++ "Z"
  else
    s!"{moment.seconds.toInt}s+{moment.fractions.toNat}/2^64 after 1904-01-01"

end Timestamp

end Tdms
