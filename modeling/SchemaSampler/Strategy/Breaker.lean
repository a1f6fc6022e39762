import SchemaSampler.Binary64

namespace SchemaSampler

/-!
# Breakers — giving up on candidates that are hardly ever accepted

A monitored source is asked for candidates until one is accepted.  A `Tally` counts candidates and
acceptances over the whole life of the source, and a `Breaker` ends a search once the ratio of the
two has fallen too low.  `Breaker.seek` is one search; it works on any source of candidates.
-/

/-- How many candidates were tried and how many were accepted. -/
structure Tally where
  /-- Candidates tried. -/
  trials : Nat
  /-- Candidates accepted. -/
  successes : Nat
deriving DecidableEq, Repr, Inhabited

namespace Tally

/-- The tally before the first candidate. -/
def zero : Tally := ⟨0, 0⟩

/-- Counts one candidate. -/
def record (t : Tally) (accepted : Bool) : Tally :=
  ⟨t.trials + 1, if accepted then t.successes + 1 else t.successes⟩

end Tally

/-- When a search is given up. -/
structure Breaker where
  /-- The number of candidates before which it never is. -/
  minTrials : Nat
  /-- The ratio of accepted candidates below which it is. -/
  minSuccessRate : Float

/-- How a search ended. -/
inductive Ending (ε β : Type) where
  /-- A candidate was accepted. -/
  | accepted (v : β)
  /-- The breaker tripped. -/
  | tripped (tally : Tally)
  /-- The source had no candidate. -/
  | refused (e : ε)
  /-- The bound on the number of candidates was reached. -/
  | stalled

namespace Breaker

/-- Whether the ratio is too low. -/
def tripped (b : Breaker) (t : Tally) : Bool :=
  b.minTrials ≤ t.trials &&
    decide (Binary64.ofInt t.successes < b.minSuccessRate * Binary64.ofInt t.trials)

/-- Asks a source for candidates, at most `patience` of them, until one is accepted.  The source
    gives either what an accepted candidate becomes, or nothing for one that is not accepted, or
    has no candidate at all, which is not counted. -/
def seek {σ ε β : Type} (b : Breaker) (next : σ → Except ε (Option β) × σ) :
    (patience : Nat) → Tally → σ → Ending ε β × Tally × σ
  | 0, tally, source => (.stalled, tally, source)
  | patience + 1, tally, source =>
    match next source with
    | (.error e, source) => (.refused e, tally, source)
    | (.ok image, source) =>
      let tally := tally.record image.isSome
      if b.tripped tally then (.tripped tally, tally, source)
      else
        match image with
        | some v => (.accepted v, tally, source)
        | none => seek b next patience tally source

end Breaker

end SchemaSampler
