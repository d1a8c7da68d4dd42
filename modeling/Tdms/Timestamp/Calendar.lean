/-!
The proleptic Gregorian calendar: days since 1970-01-01 as year, month and day,
and back.

Years are counted from March, so that a leap day is the last day of its year.
Four hundred such years, an era, always have the same number of days.
-/

namespace Tdms.Calendar

/-- A day of the proleptic Gregorian calendar. -/
structure Date where
  year : Int
  /-- 1 for January to 12 for December. -/
  month : Nat
  /-- 1 for the first day of the month. -/
  day : Nat
  deriving DecidableEq, Repr, Inhabited

/-- Days in four hundred years. -/
def daysPerEra : Nat := 146097

/-- Days from the first of March of the year 0 to the start of 1970. -/
def daysBeforeUnix : Int := 719468

/-- Years of an era before the one that holds a day of it. The days of leap years before that day
are taken off first. -/
def yearOfEra (dayOfEra : Nat) : Nat :=
  (dayOfEra - dayOfEra / 1460 + dayOfEra / 36524 - dayOfEra / 146096) / 365

/-- Days of an era before the first of March of its year `year`. -/
def daysBeforeYear (year : Nat) : Nat :=
  365 * year + year / 4 - year / 100

/-- Days from the first of March to the first of the month that comes `month` months after. -/
def daysBeforeMonth (month : Nat) : Nat :=
  (153 * month + 2) / 5

/-- The date that is `days` days after 1970-01-01. -/
def dateOfDays (days : Int) : Date :=
  let shifted := days + daysBeforeUnix
  let era := shifted / daysPerEra
  let dayOfEra := (shifted % daysPerEra).toNat
  let year := yearOfEra dayOfEra
  let dayOfYear := dayOfEra - daysBeforeYear year
  let month := (5 * dayOfYear + 2) / 153
  let inNextYear := 10 ≤ month
  { year := year + era * 400 + if inNextYear then 1 else 0
    month := if inNextYear then month - 9 else month + 3
    day := dayOfYear - daysBeforeMonth month + 1 }

/-- Days from 1970-01-01 to a date. -/
def daysOfDate (date : Date) : Int :=
  let year := if date.month ≤ 2 then date.year - 1 else date.year
  let era := year / 400
  let yearInEra := (year % 400).toNat
  let month := if date.month ≤ 2 then date.month + 9 else date.month - 3
  era * daysPerEra + daysBeforeYear yearInEra + daysBeforeMonth month + (date.day - 1 : Int) -
    daysBeforeUnix

end Tdms.Calendar
