import SchemaSampler.Schema.Check
import SchemaSampler.Strategy.Candidate
import SchemaSampler.Strategy.Failure

namespace SchemaSampler

/-!
# Candidates of big integer schemas

The candidates are the multiples of the first step between the bounds; a missing bound lies
`2 ^ 64` beyond zero and beyond the other bound, as far as the 128 bits reach.
-/

namespace Bigint

/-- An integer brought into the range of big integers. -/
def saturate (n : Int) : Int := max least (min greatest n)

/-- How far the range reaches where a bound is missing. -/
def defaultSpan : Int := (Nat.pow 2 64 : Nat)

end Bigint

/-- What the checks of a big integer schema ask for. -/
structure BigintPlan where
  /-- The least integer. -/
  lo : Option Int
  /-- The greatest integer. -/
  hi : Option Int
  /-- The steps to be multiples of. -/
  steps : List Int

namespace BigintPlan

open Bigint

/-- The plan of no checks. -/
def empty : BigintPlan := ⟨none, none, []⟩

/-- Adds a check to a plan. -/
def add (plan : BigintPlan) : BigintCheck → Except Contradiction BigintPlan
  | .min bound inclusive =>
    if !inclusive && bound == greatest then .error (.noBigintAbove bound)
    else
      let bound := if inclusive then bound else bound + 1
      .ok { plan with lo := some (plan.lo.elim bound (max bound)) }
  | .max bound inclusive =>
    if !inclusive && bound == least then .error (.noBigintBelow bound)
    else
      let bound := if inclusive then bound else bound - 1
      .ok { plan with hi := some (plan.hi.elim bound (min bound)) }
  | .multipleOf step => .ok { plan with steps := plan.steps ++ [step] }

/-- The plan of a list of checks. -/
def ofChecks (checks : List BigintCheck) : Except Contradiction BigintPlan :=
  checks.foldlM add empty

/-- The magnitude of the first step, one if there is none. -/
def step (plan : BigintPlan) : Except Contradiction Int :=
  match plan.steps with
  | [] => .ok 1
  | step :: _ =>
    if step = 0 then .error .zeroStep
    else if step = least then .error (.stepOutOfRange step)
    else .ok step.natAbs

/-- The start of the range. -/
def lowEnd (plan : BigintPlan) : Int :=
  plan.lo.getD (saturate (plan.hi.elim 0 (min 0) - defaultSpan))

/-- The end of the range. -/
def highEnd (plan : BigintPlan) : Int :=
  plan.hi.getD (saturate (plan.lo.elim 0 (max 0) + defaultSpan))

end BigintPlan

/-- The candidates of a big integer schema. -/
def bigintCandidate (checks : List BigintCheck) : Except Contradiction Candidate := do
  let plan ← BigintPlan.ofChecks checks
  let step ← plan.step
  let first := -(-plan.lowEnd).fdiv step
  let last := plan.highEnd.fdiv step
  if last < first then .error (.noBigintMultiple step plan.lowEnd plan.highEnd)
  else
    pure
      { sampler := do pure (.bigint ((← Candidate.integerRange first last) * step))
        exact := plan.steps.length ≤ 1 }

end SchemaSampler
