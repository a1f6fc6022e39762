namespace SchemaSampler.Binary64

/-!
# Binary64 — exact operations on double-precision numbers

Every operation here is computed on the unpacked form of a number (`± mantissa · 2 ^ exponent`
with integer mantissa and exponent), so that a proof can open it:

* `floor`, `ceil`, `nearest` — the integral neighbours of a number, as numbers.
* `nextUp`, `nextDown` — the adjacent numbers, found by stepping the bit pattern.
* `remainder` — the exact remainder of a division.
* `same` — the equality that values use: the usual one, except that NaN equals itself.
-/

/-- The bit pattern of positive infinity, the largest pattern that is a number. -/
def infinity : Float := Float.ofBits 0x7ff0000000000000

/-- The negative infinity. -/
def negInfinity : Float := -infinity

/-- The canonical not-a-number. -/
def nan : Float := Float.ofBits 0x7ff8000000000000

/-- The largest finite number, `(2 ^ 53 - 1) · 2 ^ 971`. -/
def maxFinite : Float := Float.ofBits 0x7fefffffffffffff

/-- The smallest positive number, `2 ^ -1074`. -/
def minPositive : Float := Float.ofBits 1

/-- The largest integer `n` such that `n` and `n + 1` are both represented, `2 ^ 53 - 1`. -/
def maxSafeInteger : Int := 9007199254740991

/-- Equality of numbers as values: `0 = -0`, and NaN equals NaN. -/
def same (x y : Float) : Bool :=
  x == y || (x.isNaN && y.isNaN)

/-- The larger of two numbers; of two that compare equal the second. -/
def larger (x y : Float) : Float := if y < x then x else y

/-- The smaller of two numbers; of two that compare equal the second. -/
def smaller (x y : Float) : Float := if x < y then x else y

/-- The sign, mantissa and exponent of a finite non-zero number; `none` for zeros, infinities
    and NaN. -/
def parts? (x : Float) : Option (Bool × Nat × Int) :=
  match x.toModel.unpack with
  | .finite sign mantissa exponent _ => some (sign == .negative, mantissa, exponent)
  | _ => none

/-- The number nearest to an integer, ties to the even mantissa. -/
def ofInt (n : Int) : Float := Float.ofModel (Float.Model.ofInt n)

/-- Rounds a number to an integral one: `whole` gives the integer that replaces the fraction
    `numerator / denominator`.  A number that is already integral, an infinity or NaN is kept,
    and a fraction that becomes zero keeps its sign. -/
def roundWith (whole : Int → Nat → Int) (x : Float) : Float :=
  match parts? x with
  | none => x
  | some (negative, mantissa, exponent) =>
    if 0 ≤ exponent then x
    else
      let numerator : Int := if negative then -mantissa else mantissa
      let n := whole numerator (Nat.pow 2 (-exponent).toNat)
      if n = 0 ∧ negative then -ofInt 0 else ofInt n

/-- The largest integral number that is not above `x`. -/
def floor : Float → Float := roundWith fun n d => n.fdiv d

/-- The smallest integral number that is not below `x`. -/
def ceil : Float → Float := roundWith fun n d => -((-n).fdiv d)

/-- The integral number nearest to `x`, halves away from zero. -/
def nearest : Float → Float := roundWith fun n d =>
  if 0 ≤ n then (2 * n + d).fdiv (2 * d) else -((-2 * n + d).fdiv (2 * d))

/-- Whether a number is finite and has no fractional part. -/
def isIntegral (x : Float) : Bool :=
  match parts? x with
  | none => x == 0
  | some (_, mantissa, exponent) => 0 ≤ exponent || mantissa % Nat.pow 2 (-exponent).toNat == 0

/-- The integer part of a finite number, toward zero; `0` for infinities and NaN. -/
def toInt (x : Float) : Int :=
  match parts? x with
  | none => 0
  | some (negative, mantissa, exponent) =>
    let magnitude := if 0 ≤ exponent then mantissa * Nat.pow 2 exponent.toNat
      else mantissa / Nat.pow 2 (-exponent).toNat
    if negative then -magnitude else magnitude

/-- The least number strictly above `x`; NaN and positive infinity stay as they are.  Bit
    patterns grow with the number above zero and against it below. -/
def nextUp (x : Float) : Float :=
  if x.isNaN || x == infinity then x
  else if x == 0 then minPositive
  else if x > 0 then Float.ofBits (x.toBits + 1)
  else Float.ofBits (x.toBits - 1)

/-- The greatest number strictly below `x`; NaN and negative infinity stay as they are. -/
def nextDown (x : Float) : Float := -nextUp (-x)

/-- The number `2 ^ e`, for an exponent from `-1074` to `1023`. -/
def powerOfTwo (e : Int) : Float :=
  if -1022 ≤ e then Float.ofBits (UInt64.ofNat ((e + 1023).toNat * Nat.pow 2 52))
  else Float.ofBits (UInt64.ofNat (Nat.pow 2 (e + 1074).toNat))

/-- What is left of `x` after a whole number of times `m`, with the sign of `x`: exact, because it
    has no more digits than the smaller of the two.  NaN if `x` is not finite or `m` is zero. -/
def remainder (x m : Float) : Float :=
  if !x.isFinite || m.isNaN || m == 0 then nan
  else
    match parts? x, parts? m with
    | some (negative, a, p), some (_, b, q) =>
      let e := min p q
      let rest := (a * Nat.pow 2 (p - e).toNat) % (b * Nat.pow 2 (q - e).toNat)
      let magnitude := ofInt rest * powerOfTwo e
      if negative then -magnitude else magnitude
    | _, _ => x

end SchemaSampler.Binary64
