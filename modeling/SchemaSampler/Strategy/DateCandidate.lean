import SchemaSampler.Schema.Check
import SchemaSampler.Strategy.Candidate
import SchemaSampler.Strategy.Failure
import SchemaSampler.Strategy.FormatSampler

namespace SchemaSampler

open Calendar (Instant)

/-!
# Candidates of date schemas

Dates are drawn to the millisecond from the years 1 to 9999.  A lower bound is rounded up to a
millisecond and an upper bound down.
-/

/-- The span of milliseconds that checks leave of a span. -/
def narrowMillis (span : Int × Int) : DateCheck → Int × Int
  | .min bound => (max span.1 bound.ceilMillis, span.2)
  | .max bound => (span.1, min span.2 bound.millis)

/-- The candidates of a date schema. -/
def dateCandidate (checks : List DateCheck) : Except Contradiction Candidate :=
  let (lo, hi) := checks.foldl narrowMillis (Format.firstMilli, Format.lastMilli)
  if hi < lo then .error (.noDate lo hi)
  else .ok ⟨do pure (.date (Instant.ofMillis (← Candidate.integerRange lo hi))), true⟩

end SchemaSampler
