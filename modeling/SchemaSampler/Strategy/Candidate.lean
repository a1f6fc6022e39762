import SchemaSampler.Random.Choice
import SchemaSampler.Value.Basic

namespace SchemaSampler

/-!
# Candidates — values that a scalar schema may accept
-/

/-- A source of values narrowed to what a schema may accept. -/
structure Candidate where
  /-- The source. -/
  sampler : Sampler Value
  /-- Whether the schema accepts everything the source yields, so that no test is needed. -/
  exact : Bool

namespace Candidate

/-- How often an end of a range comes up. -/
def edgeWeight : Nat := 1

/-- How often the inside of a range comes up. -/
def rangeWeight : Nat := 8

/-- An integer of a range, in which the two ends come up more often. -/
def integerRange (lo hi : Int) : Sampler Int :=
  .weighted [(edgeWeight, pure lo), (edgeWeight, pure hi), (rangeWeight, .intBetween lo hi)]
    (pure lo)

end Candidate

end SchemaSampler
