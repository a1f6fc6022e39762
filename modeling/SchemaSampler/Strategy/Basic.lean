import SchemaSampler.Random.Choice
import SchemaSampler.Schema.Basic
import SchemaSampler.Strategy.Breaker
import SchemaSampler.Strategy.Path

namespace SchemaSampler

/-!
# Strategies — what values are drawn from

A `Strategy` says how values are put together from random parts.  Two of its forms have a memory
between draws, which is kept under the name of a `Cell`: a cycle remembers its position and a
monitor its tally.  Strategies with the same cell share their memory.
-/

/-- The name of a memory: a place in the course of building strategies, the last step first. -/
abbrev Cell := List Nat

/-- What a monitor asks of a candidate. -/
inductive Acceptance where
  /-- The schema accepts it. -/
  | accepted (schema : Schema)
  /-- The schema accepts it; what the schema makes of it takes its place. -/
  | parsed (schema : Schema)
  /-- It is a set with at least as many elements. -/
  | sized (min : Nat)

/-- The rejection of candidates with a breaker. -/
structure Monitor where
  /-- The memory of the tally. -/
  cell : Cell
  /-- Where the schema stands. -/
  path : Path
  /-- When the search is given up. -/
  breaker : Breaker
  /-- What is asked of a candidate. -/
  acceptance : Acceptance

/-- How values are drawn. -/
inductive Strategy where
  /-- Values made of choices alone. -/
  | sample (sampler : Sampler Value)
  /-- A new symbol each time. -/
  | symbol
  /-- Given values in turn. -/
  | cycle (cell : Cell) (values : List Value)
  /-- Arrays of `min` to `max` elements. -/
  | array (item : Strategy) (min max : Nat)
  /-- Sets of the elements of `min` to `max` draws. -/
  | set (item : Strategy) (min max : Nat)
  /-- Objects with these members. -/
  | object (fields : List (String × Strategy))
  /-- Arrays of these elements and up to `maxExtra` further ones. -/
  | tuple (slots : List Strategy) (rest : Option Strategy) (maxExtra : Nat)
  /-- Objects of up to `max` members; keys that are no texts are left out. -/
  | record (key value : Strategy) (max : Nat)
  /-- Maps of up to `max` entries. -/
  | map (key value : Strategy) (max : Nat)
  /-- Functions that return one value. -/
  | function (result : Strategy)
  /-- Settled promises. -/
  | promise (inner : Strategy)
  /-- One of several strategies, by weight. -/
  | union (options : List (Nat × Strategy))
  /-- Values of a strategy that a monitor lets through. -/
  | monitored (monitor : Monitor) (source : Strategy)
  /-- Values of the strategies that values of another one lead to. -/
  | derived (source : Strategy) (next : Value → Strategy)

namespace Strategy

/-- One value. -/
def just (v : Value) : Strategy := sample (pure v)

/-- One of several values that are equally likely. -/
def select (first : Value) (others : List Value) : Strategy := sample (.element first others)

/-- One of several strategies that are equally likely. -/
def oneOf (options : List Strategy) : Strategy := union (Weighted.uniform options)

end Strategy

end SchemaSampler
