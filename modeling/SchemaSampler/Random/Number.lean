import SchemaSampler.Binary64
import SchemaSampler.Random.Choice

namespace SchemaSampler.Sampler

/-!
# Random numbers — floats over a span and floats of all sizes
-/

/-- A number or NaN, by its bit pattern. -/
def pattern : Sampler Float := do
  pure (Float.ofBits (UInt64.ofNat (← upTo (Nat.pow 2 64 - 1))))

/-- A number from `lo` to `hi`, evenly spread over the span: a random fraction of it is added to
    `lo`, and should rounding carry the sum out of the span it becomes `hi`. -/
def evenBetween (lo hi : Float) : Sampler Float := do
  let k ← upTo (Nat.pow 2 53)
  let x := lo + (hi - lo) * (Binary64.ofInt k / Binary64.ofInt (Nat.pow 2 53))
  pure (if lo == hi then lo else if lo ≤ x ∧ x ≤ hi then x else hi)

/-- One of the numbers from `lo` to `hi`.  Most of the time it is one of those that are evenly
    spread; now and then it is any number whatever, provided that it lies in the span, so that none
    of the span is left out. -/
def floatBetween (lo hi : Float) : Sampler Float := do
  let even ← evenBetween lo hi
  let ticket ← upTo 4095
  let any ← pattern
  pure (if ticket = 0 ∧ lo ≤ any ∧ any ≤ hi then any else even)

/-- The number with the given sign, exponent field and mantissa field. -/
def ofFields (negative : Bool) (exponent mantissa : Nat) : Float :=
  Float.ofBits (UInt64.ofNat
    ((if negative then Nat.pow 2 63 else 0) + exponent * Nat.pow 2 52 + mantissa))

/-- Any finite number, with random sign and exponent; zeros and subnormal numbers come up now and
    then. -/
def finiteFloat : Sampler Float := do
  let negative ← bool
  let ticket ← upTo 26
  if ticket < 20 then
    pure (ofFields negative (← between 1 2046) (← upTo (Nat.pow 2 52 - 1)))
  else if ticket < 23 then
    pure (ofFields negative 0 (← between 1 (Nat.pow 2 52 - 1)))
  else pure (ofFields negative 0 0)

end SchemaSampler.Sampler
