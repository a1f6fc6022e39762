import SchemaSampler.Schema.Format
import SchemaSampler.Schema.Problem
import SchemaSampler.Text.Casing

namespace SchemaSampler

open Calendar (Instant)

/-!
# Checks — the conditions of scalar schemas

A check finds a problem with a value or finds none.  Three checks of texts change the text
instead; the checks after one of them see the changed text.
-/

/-! ### Texts -/

/-- A regular expression with the text it was written by. -/
structure WrittenPattern where
  /-- The text, as messages show it. -/
  source : String
  /-- The pattern. -/
  pattern : Pattern

/-- A condition on a text, or a change of it. -/
inductive StringCheck where
  | minLength (n : Nat)
  | maxLength (n : Nat)
  | length (n : Nat)
  | format (f : Format)
  | pattern (p : WrittenPattern)
  | startsWith (start : String)
  | endsWith (ending : String)
  | includes (piece : String)
  | trim
  | lower
  | upper

namespace StringCheck

/-- Whether a piece occurs in a text. -/
def occurs (piece : List Char) : List Char → Bool
  | [] => piece.isEmpty
  | c :: rest => piece.isPrefixOf (c :: rest) || occurs piece rest

/-- Whether a check changes the text. -/
def isTransform : StringCheck → Bool
  | trim | lower | upper => true
  | _ => false

/-- The text after a check. -/
def apply (check : StringCheck) (s : String) : String :=
  match check with
  | trim => String.ofList (Text.trim s.toList)
  | lower => String.ofList (Text.lower s.toList)
  | upper => String.ofList (Text.upper s.toList)
  | _ => s

/-- Whether a text meets a condition; a change is met by every text. -/
def holds (check : StringCheck) (s : String) : Bool :=
  match check with
  | minLength n => n ≤ s.length
  | maxLength n => s.length ≤ n
  | length n => s.length == n
  | format f => f.holds s
  | pattern p => p.pattern.isMatch s
  | startsWith start => start.toList.isPrefixOf s.toList
  | endsWith ending => ending.toList.isSuffixOf s.toList
  | includes piece => occurs piece.toList s.toList
  | trim | lower | upper => true

/-- The problem of a text that does not meet a condition. -/
def problem : StringCheck → Problem
  | minLength n => .shorterThan n
  | maxLength n => .longerThan n
  | length n => .notOfLength n
  | format f => .notInFormat f.name
  | pattern p => .notMatching p.source
  | startsWith start => .notStartingWith start
  | endsWith ending => .notEndingWith ending
  | includes piece => .notIncluding piece
  | trim | lower | upper => .unspecified

/-- The problem a check finds with a text. -/
def violation? (check : StringCheck) (s : String) : Option Problem :=
  if check.holds s then none else some check.problem

/-- Runs checks in order: the problems they find, and the text after all changes. -/
def runAll : List StringCheck → String → List Problem × String
  | [], s => ([], s)
  | check :: rest, s =>
    let (problems, result) := runAll rest (check.apply s)
    ((check.violation? s).toList ++ problems, result)

end StringCheck

/-! ### Numbers -/

/-- A condition on a number. -/
inductive NumberCheck where
  | min (bound : Float) (inclusive : Bool)
  | max (bound : Float) (inclusive : Bool)
  | integral
  | multipleOf (step : Float)
  | finite

namespace NumberCheck

/-- Whether a number is a multiple of another: its quotient lies within a billionth of an integer,
    relative to its size. -/
def isMultiple (x step : Float) : Bool :=
  if step == 0 || !x.isFinite then false
  else
    let quotient := x / step
    if !quotient.isFinite then false
    else
      (quotient - Binary64.nearest quotient).abs ≤ 1e-9 * Binary64.larger quotient.abs 1

/-- Whether a number meets a condition. -/
def holds (check : NumberCheck) (x : Float) : Bool :=
  match check with
  | min bound inclusive => if inclusive then bound ≤ x else bound < x
  | max bound inclusive => if inclusive then x ≤ bound else x < bound
  | integral => Binary64.isIntegral x
  | multipleOf step => isMultiple x step
  | finite => x.isFinite

/-- The problem of a number that does not meet a condition. -/
def problem : NumberCheck → Problem
  | min bound inclusive => .numberBelow bound inclusive
  | max bound inclusive => .numberAbove bound inclusive
  | integral => .notIntegral
  | multipleOf step => .notMultiple step
  | finite => .notFinite

/-- The problem a check finds with a number. -/
def violation? (check : NumberCheck) (x : Float) : Option Problem :=
  if check.holds x then none else some check.problem

/-- Whether a check bounds numbers from below or above. -/
def isBound : NumberCheck → Bool
  | min _ _ | max _ _ => true
  | _ => false

/-! The usual combinations. -/

/-- Numbers above zero. -/
def positive : NumberCheck := min 0 false

/-- Numbers from zero on. -/
def nonnegative : NumberCheck := min 0 true

/-- Numbers below zero. -/
def negative : NumberCheck := max 0 false

/-- Numbers up to zero. -/
def nonpositive : NumberCheck := max 0 true

/-- Integers in the range where every integer is represented. -/
def safe : List NumberCheck :=
  let bound := Binary64.ofInt Binary64.maxSafeInteger
  [integral, min (-bound) true, max bound true]

end NumberCheck

/-! ### Big integers

Big integers have 128 bits.  Only one operation of the checks can leave them: the least big integer
has no quotient by minus one, and its remainder overflows with the quotient. -/

namespace Bigint

/-- The least big integer. -/
def least : Int := -(Nat.pow 2 127 : Nat)

/-- The greatest big integer. -/
def greatest : Int := (Nat.pow 2 127 - 1 : Nat)

/-- The remainder of a division, with the sign of the dividend, unless it overflows. -/
def remainder? (n step : Int) : Option Int :=
  if n = least ∧ step = -1 then none else some (n.tmod step)

end Bigint

/-- A condition on a big integer. -/
inductive BigintCheck where
  | min (bound : Int) (inclusive : Bool)
  | max (bound : Int) (inclusive : Bool)
  | multipleOf (step : Int)
deriving DecidableEq, Repr

namespace BigintCheck

/-- Whether a big integer meets a condition, unless a remainder overflows; nothing is a multiple of
    zero. -/
def holds? (check : BigintCheck) (n : Int) : Option Bool :=
  match check with
  | min bound inclusive => some (if inclusive then bound ≤ n else bound < n)
  | max bound inclusive => some (if inclusive then n ≤ bound else n < bound)
  | multipleOf step =>
    if step = 0 then some false else (Bigint.remainder? n step).map (· == 0)

/-- The problem of a big integer that does not meet a condition. -/
def problem : BigintCheck → Problem
  | min bound _ => .bigintBelow bound
  | max bound _ => .bigintAbove bound
  | multipleOf step => .notBigintMultiple step

/-- The problems a check finds with a big integer, one at most. -/
def problems? (check : BigintCheck) (n : Int) : Option (List Problem) :=
  (check.holds? n).map fun holds => if holds then [] else [check.problem]

/-- The problems that checks find with a big integer, in order. -/
def runAll? (checks : List BigintCheck) (n : Int) : Option (List Problem) :=
  (checks.mapM (problems? · n)).map List.flatten

end BigintCheck

/-! ### Dates -/

/-- A condition on a date. -/
inductive DateCheck where
  | min (bound : Instant)
  | max (bound : Instant)
deriving DecidableEq, Repr

namespace DateCheck

/-- Whether a date meets a condition. -/
def holds (check : DateCheck) (t : Instant) : Bool :=
  match check with
  | min bound => !t.before bound
  | max bound => !bound.before t

/-- The problem of a date that does not meet a condition. -/
def problem : DateCheck → Problem
  | min bound => .dateBefore bound
  | max bound => .dateAfter bound

/-- The problem a check finds with a date. -/
def violation? (check : DateCheck) (t : Instant) : Option Problem :=
  if check.holds t then none else some check.problem

end DateCheck

end SchemaSampler
