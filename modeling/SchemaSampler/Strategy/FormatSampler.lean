import SchemaSampler.Random.Text
import SchemaSampler.Schema.Format

namespace SchemaSampler.Format

/-!
# Texts of formats — one sampler for each format

Identifiers, e-mail addresses and URLs are texts of a pattern; timestamps and internet addresses
are written from random parts.
-/

open CharSet Pattern

/-- Small letters and digits. -/
def lowerAlphanumeric : CharSet := small.union digit

/-- Small letters, digits and the hyphen. -/
def labelSet : CharSet := lowerAlphanumeric.union (.single '-')

/-- Identifiers of twenty-five characters with `c` in front. -/
def cuidShape : Pattern := chain [text "c", exactly 24 (one (digit.union small))]

/-- Identifiers of twenty-four characters with a letter in front. -/
def cuid2Shape : Pattern := chain [one small, exactly 23 (one (digit.union small))]

/-- Addresses of a short local part and a host of two or three labels. -/
def emailShape : Pattern :=
  let label := [one lowerAlphanumeric, between 0 10 (one labelSet), text "."]
  chain <|
    [one lowerAlphanumeric, between 0 15 (one (lowerAlphanumeric.union (.ofList ['_', '+', '-']))),
      text "@"] ++
    label ++ [optional (chain label), between 2 6 (one small)]

/-- Web addresses with a host of two to four labels and up to three steps of a path. -/
def urlShape : Pattern :=
  let word := alphanumeric.union (.ofList ['_', '-'])
  chain
    [text "http", optional (text "s"), text "://", one small, between 0 15 (one labelSet),
      between 0 2 (chain [text ".", one small, between 0 10 (one labelSet)]), text ".",
      between 2 6 (one small), between 0 3 (chain [text "/", between 0 10 (one word)])]

/-- The first and the last millisecond of the years 1 to 9999. -/
def firstMilli : Int := -62135596800000

@[inherit_doc firstMilli] def lastMilli : Int := 253402300799999

/-- An internet address of version 4. -/
def addressV4 : Sampler (List Char) := do
  pure (Net.textV4 (← .upTo 255) (← .upTo 255) (← .upTo 255) (← .upTo 255))

/-- An internet address of version 6. -/
def addressV6 : Sampler (List Char) := do
  pure (Net.textV6 (← Sampler.replicate (.upTo 0xffff) 8))

/-- An offset from universal time of less than a day. -/
def offset : Sampler Calendar.Offset := do
  pure ⟨← .bool, ← .upTo 23, ← .upTo 59⟩

/-- A timestamp; without a fixed number of fraction digits it has none or three. -/
def timestamp (allowOffset : Bool) (precision : Option Nat) : Sampler (List Char) := do
  let millis ← Sampler.intBetween firstMilli lastMilli
  let subMillis ← Sampler.upTo 999999
  let places ← match precision with
    | some places => pure places
    | none => Sampler.element 0 [3]
  let zone ← if allowOffset && (← Sampler.bool) then some <$> offset else pure none
  pure (Calendar.timestampText millis subMillis places zone)

/-- A text that has a format. -/
def sampler : Format → Sampler (List Char)
  | uuid => .ofPattern uuidPattern
  | ulid => .ofPattern ulidPattern
  | cuid => .ofPattern cuidShape
  | cuid2 => .ofPattern cuid2Shape
  | email => .ofPattern emailShape
  | url => .ofPattern urlShape
  | ip .v4 => addressV4
  | ip .v6 => addressV6
  | ip .any => do if ← .bool then addressV4 else addressV6
  | datetime allowOffset precision => timestamp allowOffset precision

end SchemaSampler.Format
