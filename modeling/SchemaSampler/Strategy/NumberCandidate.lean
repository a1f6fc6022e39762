import SchemaSampler.Random.Number
import SchemaSampler.Schema.Check
import SchemaSampler.Strategy.Candidate
import SchemaSampler.Strategy.Failure

namespace SchemaSampler

/-!
# Candidates of number schemas

The bounds of a schema are folded into one closed span; an exclusive bound moves to the adjacent
number.  If integers or multiples are asked for, the candidates are the multiples `k · step` of
the first step in the span, with `k` an integer; otherwise they are its ends, zero, and numbers
from all of the span or from the part of it around zero.
-/

/-- What the checks of a number schema ask for. -/
structure NumberPlan where
  /-- The least number. -/
  lo : Option Float
  /-- The greatest number. -/
  hi : Option Float
  /-- Whether integers are asked for. -/
  integral : Bool
  /-- The steps to be multiples of. -/
  steps : List Float

namespace NumberPlan

open Binary64

/-- The plan of no checks. -/
def empty : NumberPlan := ⟨none, none, false, []⟩

/-- Adds a check to a plan. -/
def add (plan : NumberPlan) : NumberCheck → Except Contradiction NumberPlan
  | .min bound inclusive =>
    if bound.isNaN then .error .nanMinimum
    else
      let bound := if inclusive then bound else nextUp bound
      .ok { plan with lo := some (plan.lo.elim bound (larger · bound)) }
  | .max bound inclusive =>
    if bound.isNaN then .error .nanMaximum
    else
      let bound := if inclusive then bound else nextDown bound
      .ok { plan with hi := some (plan.hi.elim bound (smaller · bound)) }
  | .integral => .ok { plan with integral := true }
  | .multipleOf step => .ok { plan with steps := plan.steps ++ [step] }
  | .finite => .ok plan

/-- The plan of a list of checks. -/
def ofChecks (checks : List NumberCheck) : Except Contradiction NumberPlan :=
  checks.foldlM add empty

/-- The bound of the range where all integers are represented, as a number. -/
def safeBound : Float := ofInt maxSafeInteger

/-! ### Multiples -/

/-- The largest integer magnitude up to which every integer is represented, `2 ^ 53`. -/
def exactBound : Int := maxSafeInteger + 1

/-- The multiples of a step in a span. -/
structure Multiples where
  /-- The step, which is positive and finite. -/
  step : Float
  /-- The start of the span. -/
  lo : Float
  /-- The end of the span. -/
  hi : Float
  /-- The least factor. -/
  first : Float
  /-- The greatest factor. -/
  last : Float

/-- Whether a number meets the bounds among the checks. -/
def meetsBounds (checks : List NumberCheck) (x : Float) : Bool :=
  (checks.filter NumberCheck.isBound).all (·.holds x)

/-- The multiples that a plan asks for.  Where a bound is missing the span reaches a safe integer
    beyond zero and beyond the other bound.  The factors come from quotients that may have been
    rounded, so the multiple at either end is tested once more. -/
def multiples (plan : NumberPlan) (checks : List NumberCheck) : Except Contradiction Multiples :=
  let step := (plan.steps.headD 1).abs
  if step == 0 || !step.isFinite then .error (.badStep step)
  else
    let lo := plan.lo.getD (smaller (-safeBound) (plan.hi.elim 0 (· - safeBound)))
    let hi := plan.hi.getD (larger safeBound (plan.lo.elim 0 (· + safeBound)))
    let first := ceil (lo / step)
    let last := floor (hi / step)
    let first := if meetsBounds checks (first * step) then first else first + 1
    let last := if meetsBounds checks (last * step) then last else last - 1
    if first.isNaN || last.isNaN || last < first then .error (.noMultiple step lo hi)
    else .ok ⟨step, lo, hi, first, last⟩

/-- Whether every product of the step with a factor in the range is a number that meets the
    checks: there is one step, it is integral, and everything stays in the range where integers
    are represented. -/
def Multiples.isExact (m : Multiples) (plan : NumberPlan) : Bool :=
  plan.steps.length ≤ 1 && isIntegral m.step && -safeBound ≤ m.lo && m.hi ≤ safeBound &&
    m.first.abs ≤ ofInt exactBound && m.last.abs ≤ ofInt exactBound

/-- A factor as an integer, brought into the range where integers are represented. -/
def factor (x : Float) : Int :=
  if x < ofInt (-exactBound) then -exactBound
  else if ofInt exactBound < x then exactBound
  else toInt x

/-- The product of the step with a factor. -/
def Multiples.at (m : Multiples) (k : Int) : Float := ofInt k * m.step

/-- The candidates among the multiples of a step. -/
def Multiples.candidate (m : Multiples) (plan : NumberPlan) : Candidate where
  sampler := do pure (.number (m.at (← Candidate.integerRange (factor m.first) (factor m.last))))
  exact := m.isExact plan

/-! ### Spans -/

/-- The greatest magnitude that counts as small. -/
def smallMagnitude : Float := 1000

/-- A span as spans whose width is finite: it is split at zero if it has to be. -/
def finiteSpans (lo hi : Float) : List (Float × Float) :=
  if lo < 0 && 0 < hi && !(hi - lo).isFinite then [(lo, 0), (0, hi)] else [(lo, hi)]

/-- Removes elements that equal the one before them. -/
def dropRepeats : List Float → List Float
  | a :: b :: rest => if a == b then dropRepeats (a :: rest) else a :: dropRepeats (b :: rest)
  | short => short

/-- The ends of the span and zero, as far as the checks admit them.  An infinite end comes up only
    where a bound names it. -/
def edges (plan : NumberPlan) (checks : List NumberCheck) (lo hi : Float) : List Float :=
  let named (x : Float) : Bool := plan.lo.any (· == x) || plan.hi.any (· == x)
  (dropRepeats ([lo, hi, 0].filter fun x => x.isFinite || named x)).filter fun x =>
    checks.all (·.holds x)

/-- The spans to draw from: all of the finite part, and its part around zero. -/
def spans (lo hi : Float) : List (Float × Float) :=
  let lo := larger lo (-maxFinite)
  let hi := smaller hi maxFinite
  if lo ≤ hi then
    let smallLo := larger lo (-smallMagnitude)
    let smallHi := smaller hi smallMagnitude
    finiteSpans lo hi ++ (if smallLo ≤ smallHi then [(smallLo, smallHi)] else [])
  else []

/-- The candidates in the span of a plan. -/
def spanCandidate (plan : NumberPlan) (checks : List NumberCheck) :
    Except Contradiction Candidate :=
  if plan.lo.isNone && plan.hi.isNone then
    .ok ⟨do pure (.number (← .finiteFloat)), true⟩
  else
    let lo := plan.lo.getD negInfinity
    let hi := plan.hi.getD infinity
    let options : Weighted (Sampler Float) :=
      (plan.edges checks lo hi).map (fun x => (Candidate.edgeWeight, pure x)) ++
        (spans lo hi).map fun (a, b) => (Candidate.rangeWeight, .floatBetween a b)
    if options.isEmpty then .error (.noNumber lo hi)
    else .ok ⟨do pure (.number (← .weighted options (pure lo))), true⟩

/-- Whether the bounds of a plan leave nothing between them. -/
def crossed? (plan : NumberPlan) : Option (Float × Float) :=
  match plan.lo, plan.hi with
  | some lo, some hi => if hi < lo then some (lo, hi) else none
  | _, _ => none

end NumberPlan

/-- The candidates of a number schema, and the multiples they were narrowed to, if any. -/
def numberCandidate (checks : List NumberCheck) :
    Except Contradiction (Candidate × Option NumberPlan.Multiples) := do
  let plan ← NumberPlan.ofChecks checks
  match plan.crossed? with
  | some (lo, hi) => .error (.noNumber lo hi)
  | none =>
    if plan.integral || !plan.steps.isEmpty then
      let m ← plan.multiples checks
      pure (m.candidate plan, some m)
    else
      pure (← plan.spanCandidate checks, none)

end SchemaSampler
