import SchemaSampler.Schema.Problem
import SchemaSampler.Strategy.Path

namespace SchemaSampler

/-!
# Failures — why no values can be drawn
-/

/-- What makes a schema contradict itself. -/
inductive Contradiction where
  /-- A union has no options. -/
  | emptyUnion
  /-- A discriminated union has no options with a tag. -/
  | emptyTaggedUnion
  /-- A choice has no values. -/
  | emptyChoice (kind : String)
  /-- The options of a discriminated union contradict each other. -/
  | tags (fault : TagFault)
  /-- The greatest number of elements is below the least. -/
  | sizes (max min : Nat)
  /-- The greatest length is below the least. -/
  | lengths (max min : Nat)
  /-- A lower bound is NaN. -/
  | nanMinimum
  /-- An upper bound is NaN. -/
  | nanMaximum
  /-- No number lies between the bounds. -/
  | noNumber (lo hi : Float)
  /-- A step is zero, infinite or NaN. -/
  | badStep (step : Float)
  /-- No multiple lies between the bounds. -/
  | noMultiple (step lo hi : Float)
  /-- No big integer is above a bound. -/
  | noBigintAbove (bound : Int)
  /-- No big integer is below a bound. -/
  | noBigintBelow (bound : Int)
  /-- A step of big integers is zero. -/
  | zeroStep
  /-- The magnitude of a step is no big integer. -/
  | stepOutOfRange (step : Int)
  /-- No multiple lies between the bounds. -/
  | noBigintMultiple (step lo hi : Int)
  /-- No date lies between the bounds, which are in milliseconds. -/
  | noDate (lo hi : Int)
  /-- A factory says so in its own words. -/
  | stated (text : String)

/-- The wording of a contradiction. -/
def Contradiction.message : Contradiction → String
  | emptyUnion => "union must include at least one option"
  | emptyTaggedUnion => "discriminated union must include at least one option"
  | emptyChoice kind => kind ++ " must include at least one value"
  | tags fault => fault.message
  | sizes max min =>
    "maximum size " ++ toString max ++ " is below minimum size " ++ toString min
  | lengths max min =>
    "maximum length " ++ toString max ++ " is below minimum length " ++ toString min
  | nanMinimum => "minimum must not be NaN"
  | nanMaximum => "maximum must not be NaN"
  | noNumber lo hi =>
    "no number lies between " ++ Decimal.plain lo ++ " and " ++ Decimal.plain hi
  | badStep step =>
    "multiple-of step must be finite and non-zero, got " ++ Decimal.plain step
  | noMultiple step lo hi =>
    "no multiple of " ++ Decimal.plain step ++ " lies between " ++ Decimal.plain lo ++ " and " ++
      Decimal.plain hi
  | noBigintAbove bound => "no bigint is greater than " ++ toString bound
  | noBigintBelow bound => "no bigint is less than " ++ toString bound
  | zeroStep => "multiple-of step must be non-zero"
  | stepOutOfRange step => "multiple-of step " ++ toString step ++ " is out of range"
  | noBigintMultiple step lo hi =>
    "no multiple of " ++ toString step ++ " lies between " ++ toString lo ++ " and " ++ toString hi
  | noDate lo hi => "no date lies between " ++ toString lo ++ "ms and " ++ toString hi ++ "ms"
  | stated text => text

/-- Why values of a schema cannot be drawn, and where the schema stands. -/
inductive Failure where
  /-- Schemas of this kind have no values of their own to draw. -/
  | unsupported (path : Path) (typeName : String)
  /-- Too few candidates were accepted. -/
  | infeasible (path : Path) (trials successes : Nat)
  /-- The schema contradicts itself. -/
  | invalid (path : Path) (reason : Contradiction)

namespace Failure

/-- Where the schema stands. -/
def path : Failure → Path
  | unsupported path _ | infeasible path _ _ | invalid path _ => path

/-- The wording of a failure. -/
def message : Failure → String
  | unsupported path typeName =>
    "unable to generate values for " ++ typeName ++ " schema at path '" ++ path.display ++
      "': an override must be provided for this schema"
  | infeasible path trials successes =>
    "unable to generate valid values for schema at path '" ++ path.display ++ "' (" ++
      toString successes ++ " of " ++ toString trials ++
      " candidates accepted): an override must be provided for this schema"
  | invalid path reason =>
    "invalid schema at path '" ++ path.display ++ "': " ++ reason.message

end Failure

/-- Why compiling came to no strategy. -/
inductive Stop where
  /-- A schema has no strategy. -/
  | failed (failure : Failure)
  /-- Compilations that factories ask for are nested too deep; they may never end. -/
  | endless
  /-- The program broke off: a sum of lengths is beyond a machine word, or the weights of a choice
      are refused. -/
  | aborted

end SchemaSampler
