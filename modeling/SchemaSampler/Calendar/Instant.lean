import SchemaSampler.Calendar.Civil
import SchemaSampler.Decimal.Text

namespace SchemaSampler.Calendar

open Decimal (padded)

/-!
# Instants — points in time with nanoseconds

An instant is a second since 1970-01-01T00:00:00Z and a part of it in nanoseconds.  Inside a leap
second the part runs on from `10 ^ 9` to below `2 · 10 ^ 9`, and the second is written as 60.
-/

/-- A point in time. -/
structure Instant where
  /-- Whole seconds since the epoch. -/
  seconds : Int
  /-- Nanoseconds after that, from `10 ^ 9` on inside a leap second. -/
  nanos : Nat
deriving DecidableEq, Repr

namespace Instant

/-- Earlier in time: by the second, then by the part of it. -/
def before (a b : Instant) : Bool :=
  a.seconds < b.seconds || (a.seconds == b.seconds && a.nanos < b.nanos)

/-- Whole milliseconds since the epoch, rounded down. -/
def millis (t : Instant) : Int := t.seconds * 1000 + t.nanos / 1000000

/-- Milliseconds since the epoch, rounded up. -/
def ceilMillis (t : Instant) : Int :=
  if t.nanos % 1000000 = 0 then t.millis else t.millis + 1

/-- The instant of a number of milliseconds since the epoch. -/
def ofMillis (millis : Int) : Instant where
  seconds := millis.fdiv 1000
  nanos := (millis.fmod 1000).toNat * 1000000

/-- The date of an instant. -/
def date (t : Instant) : Civil := Civil.ofDays (t.seconds.fdiv 86400)

/-- The second of the day of an instant. -/
def secondOfDay (t : Instant) : Nat := (t.seconds.fmod 86400).toNat

/-- The part of the second, as it is written. -/
def fraction (t : Instant) : Nat := if t.nanos < 1000000000 then t.nanos else t.nanos - 1000000000

/-! ### Text -/

/-- A year with four digits, or with a sign and at least four when it is negative or longer. -/
def yearText (year : Int) : List Char :=
  if 0 ≤ year ∧ year ≤ 9999 then padded 4 year.toNat
  else (if year < 0 then '-' else '+') :: padded 4 year.natAbs

/-- The calendar date and the time of day to the second, as `YYYY-MM-DDTHH:MM:SS`. -/
def stamp (t : Instant) : List Char :=
  let d := t.date
  let s := t.secondOfDay
  let second := s % 60 + (if t.nanos < 1000000000 then 0 else 1)
  yearText d.year ++ '-' :: padded 2 d.month ++ '-' :: padded 2 d.day ++
    'T' :: padded 2 (s / 3600) ++ ':' :: padded 2 (s / 60 % 60) ++ ':' :: padded 2 second

/-- The part of the second with three, six or nine digits, whichever shows it exactly; nothing
    when it is zero. -/
def fractionText (t : Instant) : List Char :=
  let n := t.fraction
  if n = 0 then []
  else if n % 1000000 = 0 then '.' :: padded 3 (n / 1000000)
  else if n % 1000 = 0 then '.' :: padded 6 (n / 1000)
  else '.' :: padded 9 n

/-- The text of an instant with its offset from universal time, which is zero. -/
def offsetText (t : Instant) : String :=
  String.ofList (t.stamp ++ t.fractionText ++ ['+', '0', '0', ':', '0', '0'])

/-- The text of an instant with `Z` for universal time. -/
def zuluText (t : Instant) : String :=
  String.ofList (t.stamp ++ t.fractionText ++ ['Z'])

end Instant

end SchemaSampler.Calendar
