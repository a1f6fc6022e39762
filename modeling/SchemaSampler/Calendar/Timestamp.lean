import SchemaSampler.Calendar.Instant
import SchemaSampler.Text.Blank

namespace SchemaSampler.Calendar

open Text (trimStart)
open Decimal (padded zeros)

/-!
# Timestamps — texts such as `2024-02-29T12:30:00.250Z`

`isTimestamp` decides whether a text is a timestamp.  It first tests the outline: a zone at the
end, four digits in front, a `T` eleven bytes in, and after nineteen bytes either nothing or a
point and digits.  Then it reads the parts in turn, each of which may have blanks in front of it
and one digit instead of two, and tests that they name a date and a time of day.

`timestampText` writes one.
-/

/-- Whether a character is one of the ten ASCII digits. -/
def isDigit (c : Char) : Bool := '0' ≤ c && c ≤ '9'

/-- The number written by a list of digits. -/
def numberOf (ds : List Char) : Nat := ds.foldl (fun n c => 10 * n + (c.toNat - '0'.toNat)) 0

/-- The number of bytes of a text in UTF-8. -/
def byteCount (text : List Char) : Nat := text.foldl (fun n c => n + c.utf8Size) 0

/-- Splits a text after a number of bytes; `none` inside a character or past the end. -/
def splitBytes : (count : Nat) → List Char → Option (List Char × List Char)
  | 0, text => some ([], text)
  | _, [] => none
  | count, c :: rest =>
    if c.utf8Size ≤ count then
      (splitBytes (count - c.utf8Size) rest).map fun (front, back) => (c :: front, back)
    else none

/-! ### The zone -/

/-- Whether a text is a sign, two digits, a colon and two digits. -/
def isOffset (zone : List Char) : Bool :=
  match zone with
  | [sign, a, b, colon, c, d] =>
    (sign == '+' || sign == '-') && isDigit a && isDigit b && colon == ':' && isDigit c && isDigit d
  | _ => false

/-- Removes the zone from the end of a timestamp: `Z`, or an offset where one is allowed. -/
def withoutZone? (allowOffset : Bool) (text : List Char) : Option (List Char) :=
  if text.getLast? = some 'Z' then some text.dropLast
  else if allowOffset then
    match splitBytes (byteCount text - 6) text with
    | some (body, zone) => if isOffset zone then some body else none
    | none => none
  else none

/-! ### The outline -/

/-- The number of digits of the fraction that follows the nineteenth byte, none if there is no
    fraction; `none` if something else follows or the outline is not that of a timestamp. -/
def fractionLength? (body : List Char) : Option Nat :=
  if (body.take 4).length = 4 ∧ (body.take 4).all isDigit then
    match splitBytes 10 body, splitBytes 19 body with
    | some (_, 'T' :: _), some (_, rest) =>
      match rest with
      | [] => some 0
      | '.' :: ds => if ds ≠ [] ∧ ds.all isDigit then some ds.length else none
      | _ => none
    | _, _ => none
  else none

/-! ### The parts -/

/-- Reads a number of one to `width` digits after any blanks. -/
def readNumber (width : Nat) (text : List Char) : Option (Nat × List Char) :=
  let text := trimStart text
  let ds := (text.take width).takeWhile isDigit
  if ds.isEmpty then none else some (numberOf ds, text.drop ds.length)

/-- Reads one given character. -/
def readChar (c : Char) : List Char → Option (List Char)
  | d :: rest => if c = d then some rest else none
  | [] => none

/-- The parts of a timestamp without its zone. -/
structure Reading where
  /-- The date. -/
  date : Civil
  /-- The hour. -/
  hour : Nat
  /-- The minute. -/
  minute : Nat
  /-- The second. -/
  second : Nat

/-- Whether the parts name an existing date and a time of day; second 60 is a leap second. -/
def Reading.isValid (r : Reading) : Bool :=
  r.date.isValid && r.hour ≤ 23 && r.minute ≤ 59 && r.second ≤ 60

/-- Reads the parts of a timestamp: date, `T`, time of day, and a fraction that may be missing. -/
def readParts (text : List Char) : Option Reading := do
  let (year, text) ← readNumber 4 text
  let text ← readChar '-' text
  let (month, text) ← readNumber 2 text
  let text ← readChar '-' text
  let (day, text) ← readNumber 2 text
  let text ← readChar 'T' text
  let (hour, text) ← readNumber 2 text
  let text ← readChar ':' text
  let (minute, text) ← readNumber 2 text
  let text ← readChar ':' text
  let (second, text) ← readNumber 2 text
  let reading : Reading := ⟨⟨year, month, day⟩, hour, minute, second⟩
  match text with
  | [] => some reading
  | '.' :: ds => if ds ≠ [] ∧ ds.all isDigit then some reading else none
  | _ => none

/-- Whether a text is a timestamp: with `Z`, or with an offset where one is allowed, and with
    exactly `precision` fraction digits where a precision is given. -/
def isTimestamp (allowOffset : Bool) (precision : Option Nat) (text : List Char) : Bool :=
  match withoutZone? allowOffset text with
  | none => false
  | some body =>
    match fractionLength? body with
    | none => false
    | some length =>
      (precision.isNone || precision == some length) && (readParts body).any Reading.isValid

/-! ### Writing -/

/-- An offset from universal time: whether it is ahead, hours and minutes. -/
structure Offset where
  /-- Ahead of universal time, not behind it. -/
  ahead : Bool
  /-- Whole hours. -/
  hours : Nat
  /-- Minutes. -/
  minutes : Nat

/-- The text of a zone: `Z` without an offset. -/
def zoneText : Option Offset → List Char
  | none => ['Z']
  | some z => (if z.ahead then '+' else '-') :: padded 2 z.hours ++ ':' :: padded 2 z.minutes

/-- The first `places` decimal places of a number of nanoseconds, filled up with zeros past the
    ninth. -/
def decimalPlaces (nanos places : Nat) : List Char :=
  let ds := (padded 9 nanos).take places
  ds ++ zeros (places - ds.length)

/-- The timestamp of an instant given in milliseconds and nanoseconds after them. -/
def timestampText (millis : Int) (subMillis places : Nat) (zone : Option Offset) : List Char :=
  let t := Instant.ofMillis millis
  let fraction := if places = 0 then [] else '.' :: decimalPlaces (t.nanos + subMillis) places
  t.stamp ++ fraction ++ zoneText zone

end SchemaSampler.Calendar
