import SchemaSampler.Binary64

namespace SchemaSampler.Decimal

open Binary64

/-!
# Shortest decimals — the fewest digits that read back

A finite positive number `m · 2 ^ q` is the nearest number to every real in an interval around
it; the ends belong to the interval exactly when `m` is even.  `shortest` looks for a decimal
`c · 10 ^ e` inside that interval, with one digit, then two, up to seventeen.  On each grid only
the two neighbours of the number can be hits, the first grid with a hit wins, of two hits the
nearer one, and two equally near ones are decided by a `Tie` rule.
-/

/-- Which of two equally near decimals is taken. -/
inductive Tie where
  /-- The larger one. -/
  | up
  /-- The one with the even last digit. -/
  | even
deriving DecidableEq, Repr

/-- A decimal `coefficient · 10 ^ exponent`. -/
structure Scientific where
  /-- The digits, read as one number. -/
  coefficient : Nat
  /-- The power of ten they are multiplied by. -/
  exponent : Int
deriving DecidableEq, Repr

/-- A number and the interval that rounds to it, as integers over one scale: `value`, the
    distances `below` and `above` to its ends, and the power of two they are all multiplied by. -/
structure Rounding where
  /-- The number itself. -/
  value : Nat
  /-- The distance to the lower end. -/
  below : Nat
  /-- The distance to the upper end. -/
  above : Nat
  /-- The power of two of the scale. -/
  exponent : Int
  /-- Whether the two ends belong to the interval. -/
  closed : Bool

/-- The interval of the number `mantissa · 2 ^ exponent`.  At a power of two the numbers below
    are twice as dense as those above, unless the number is already of the smallest spacing. -/
def Rounding.of (mantissa : Nat) (exponent : Int) : Rounding :=
  let dense := mantissa == Nat.pow 2 52 && exponent > -1074
  { value := 4 * mantissa, below := if dense then 1 else 2, above := 2,
    exponent := exponent - 2, closed := mantissa % 2 == 0 }

/-- A point of the grid `10 ^ gridExponent` beside the number, when it lies in the interval:
    `units` steps of the grid, compared over a common integer scale. -/
def Rounding.neighbour? (r : Rounding) (scale value unit units : Nat) : Option Nat :=
  let point := units * unit
  let inside :=
    if point ≤ value then
      if r.closed then value - point ≤ r.below * scale else value - point < r.below * scale
    else
      if r.closed then point - value ≤ r.above * scale else point - value < r.above * scale
  if inside then some units else none

/-- Whether the lower of two neighbouring decimals is taken, given their distances from the
    number between them. -/
def Tie.takesLower (tie : Tie) (lower toLower toUpper : Nat) : Bool :=
  toLower < toUpper || (toLower == toUpper && tie == .even && lower % 2 == 0)

/-- The decimal with the given exponent that is nearest to the number, if the interval holds
    one. -/
def Rounding.onGrid (r : Rounding) (tie : Tie) (gridExponent : Int) : Option Nat :=
  -- Both the number and the grid are brought to integers over `2 ^ s · 10 ^ t`.
  let scale := Nat.pow 2 r.exponent.toNat * Nat.pow 10 (-gridExponent).toNat
  let value := r.value * scale
  let unit := Nat.pow 2 (-r.exponent).toNat * Nat.pow 10 gridExponent.toNat
  let lower := value / unit
  match r.neighbour? scale value unit lower, r.neighbour? scale value unit (lower + 1) with
  | some a, some b =>
    if tie.takesLower a (value - a * unit) (b * unit - value) then some a else some b
  | some a, none => some a
  | none, b => b

/-- The power of ten of the first digit: the largest `t` with `10 ^ t` not above the number. -/
def Rounding.leadingExponent (r : Rounding) : Int :=
  -- An estimate from the number of bits is at most one too large.
  let bits : Int := r.value.log2 + r.exponent
  let estimate := ((bits + 1) * 30103).fdiv 100000
  let reached (t : Int) : Bool :=
    Nat.pow 2 (-r.exponent).toNat * Nat.pow 10 t.toNat ≤
      r.value * Nat.pow 2 r.exponent.toNat * Nat.pow 10 (-t).toNat
  if reached estimate then estimate else if reached (estimate - 1) then estimate - 1
  else estimate - 2

/-- Removes trailing zeros from the coefficient. -/
def Scientific.trim : (fuel : Nat) → Scientific → Scientific
  | 0, d => d
  | fuel + 1, d =>
    if d.coefficient ≠ 0 ∧ d.coefficient % 10 = 0 then
      trim fuel ⟨d.coefficient / 10, d.exponent + 1⟩
    else d

/-- Tries the grids of `n`, `n + 1`, … digits in turn, `tries` of them. -/
def Rounding.search (r : Rounding) (tie : Tie) (leading : Int) : (tries n : Nat) → Scientific
  | 0, _ => ⟨0, 0⟩
  | tries + 1, n =>
    let gridExponent := leading - n + 1
    match r.onGrid tie gridExponent with
    | some c => Scientific.trim 20 ⟨c, gridExponent⟩
    | none => search r tie leading tries (n + 1)

/-- The shortest decimal that reads back as the magnitude of a finite number, `0` for a zero;
    `none` for infinities and NaN.  Seventeen digits always suffice. -/
def shortest (tie : Tie) (x : Float) : Option Scientific :=
  match parts? x with
  | some (_, mantissa, exponent) =>
    let r := Rounding.of mantissa exponent
    some (r.search tie r.leadingExponent 18 1)
  | none => if x == 0 then some ⟨0, 0⟩ else none

end SchemaSampler.Decimal
