import SchemaSampler.Decimal.Shortest

namespace SchemaSampler.Decimal

/-!
# Number text — plain, tagged and compact notation

Three notations for the shortest decimal of a number:

* `plain` — all digits in positions, no exponent: `1`, `0.1`, `-0`, `inf`, `NaN`.
* `tagged` — the text inside a value's structural form, always recognisable as a floating-point
  number: `1.0`, `1e16`, `1e-5`.
* `compact` — the text a configuration error quotes: `1.5`, `1e+21`, `1.0`.

The first two take the larger of two equally near shortest decimals, the third the even one.
-/

/-- The decimal digits of a natural number. -/
def digits (n : Nat) : List Char := Nat.toDigits 10 n

/-- `n` zeros. -/
def zeros (n : Nat) : List Char := List.replicate n '0'

/-- The digits of a decimal set out in positions; a whole number gets `wholeTail` after it. -/
def Scientific.positional (d : Scientific) (wholeTail : List Char) : List Char :=
  let ds := digits d.coefficient
  if 0 ≤ d.exponent then
    (if d.coefficient = 0 then ds else ds ++ zeros d.exponent.toNat) ++ wholeTail
  else
    let places := (-d.exponent).toNat
    if places < ds.length then
      ds.take (ds.length - places) ++ '.' :: ds.drop (ds.length - places)
    else '0' :: '.' :: zeros (places - ds.length) ++ ds

/-- One digit, a point before the others if there are any, and the power of ten, with
    `positiveSign` before a power that is not negative. -/
def Scientific.withExponent (d : Scientific) (positiveSign : List Char) : List Char :=
  let ds := digits d.coefficient
  let power : Int := d.exponent + (ds.length - 1 : Nat)
  let sign := if power < 0 then ['-'] else positiveSign
  let head := ds.take 1 ++ (if ds.length > 1 then '.' :: ds.drop 1 else [])
  head ++ 'e' :: sign ++ digits power.natAbs

/-- The position of the decimal point, counted from the first digit. -/
def Scientific.pointPosition (d : Scientific) : Int :=
  (digits d.coefficient).length + d.exponent

/-- Whether the sign bit of a number is set, as in `-0`. -/
def isNegative (x : Float) : Bool := x.toBits ≥ 0x8000000000000000

/-- The text of a number from the text of its shortest decimal; `inf`, `-inf` and `NaN` where
    there is none. -/
def signed (tie : Tie) (x : Float) (text : Scientific → List Char) : String :=
  if x.isNaN then "NaN"
  else
    let body := match shortest tie x with
      | some d => String.ofList (text d)
      | none => "inf"
    if isNegative x then "-" ++ body else body

/-- All digits in positions, without exponent and without a trailing `.0`. -/
def plain (x : Float) : String := signed .up x fun d => d.positional []

/-- Positional from `0.0001` to below `10 ^ 16`, with `.0` after a whole number; otherwise with an
    exponent. -/
def tagged (x : Float) : String := signed .up x fun d =>
  if d.coefficient = 0 ∨ (-4 < d.pointPosition ∧ d.pointPosition ≤ 16) then
    d.positional ['.', '0']
  else d.withExponent []

/-- Positional from `0.00001` to below `10 ^ 16`, with `.0` after a whole number; otherwise with an
    exponent, which always has a sign. -/
def compact (x : Float) : String := signed .even x fun d =>
  if d.coefficient = 0 ∨ (-5 < d.pointPosition ∧ d.pointPosition ≤ 16) then
    d.positional ['.', '0']
  else d.withExponent ['+']

/-- Pads decimal digits with zeros on the left to a width. -/
def padded (width : Nat) (n : Nat) : List Char :=
  let ds := digits n
  zeros (width - ds.length) ++ ds

end SchemaSampler.Decimal
