namespace SchemaSampler.Calendar

/-!
# Civil dates — year, month and day of a day number

Days are counted from 1970-01-01 in the proleptic Gregorian calendar.
-/

/-- A year, a month from 1 and a day of the month from 1. -/
structure Civil where
  /-- The year, with a year zero. -/
  year : Int
  /-- The month, from 1 to 12. -/
  month : Nat
  /-- The day of the month, from 1. -/
  day : Nat
deriving DecidableEq, Repr

/-- Leap years: every fourth, of the centuries only every fourth. -/
def isLeapYear (year : Int) : Bool :=
  year % 4 == 0 && (year % 100 != 0 || year % 400 == 0)

/-- The number of days of a month. -/
def daysInMonth (year : Int) (month : Nat) : Nat :=
  if month = 2 then if isLeapYear year then 29 else 28
  else if month = 4 ∨ month = 6 ∨ month = 9 ∨ month = 11 then 30
  else 31

/-- Whether a date exists in the calendar. -/
def Civil.isValid (d : Civil) : Bool :=
  1 ≤ d.month && d.month ≤ 12 && 1 ≤ d.day && d.day ≤ daysInMonth d.year d.month

/-- The date of a day number.  Years are taken to begin in March, so that the leap day is the
    last of its year, and counted in eras of 400 years or 146097 days. -/
def Civil.ofDays (days : Int) : Civil :=
  let shifted := days + 719468
  let era := shifted.fdiv 146097
  let dayOfEra := (shifted - era * 146097).toNat
  let yearOfEra := (dayOfEra - dayOfEra / 1460 + dayOfEra / 36524 - dayOfEra / 146096) / 365
  let dayOfYear := dayOfEra - (365 * yearOfEra + yearOfEra / 4 - yearOfEra / 100)
  let marchMonth := (5 * dayOfYear + 2) / 153
  let day := dayOfYear - (153 * marchMonth + 2) / 5 + 1
  let month := if marchMonth < 10 then marchMonth + 3 else marchMonth - 9
  let year : Int := yearOfEra + era * 400
  { year := if month ≤ 2 then year + 1 else year, month, day }

end SchemaSampler.Calendar
