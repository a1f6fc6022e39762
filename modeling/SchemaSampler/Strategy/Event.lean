import SchemaSampler.Schema.Kind
import SchemaSampler.Strategy.Failure

namespace SchemaSampler

/-!
# Events — what building and drawing report
-/

/-- A report. -/
inductive Event where
  /-- A schema is about to get a strategy. -/
  | dispatching (kind : Kind) (path : Path)
  /-- An override takes the place of a schema. -/
  | overriding (kind : Kind) (path : Path)
  /-- A number schema was narrowed to the multiples of a step. -/
  | narrowed (checks : Nat) (step lo hi : Float)
  /-- A breaker tripped. -/
  | tripped (failure : Failure)

/-- The text of a report, its level in front. -/
def Event.text : Event → String
  | dispatching kind path =>
    "TRACE dispatching " ++ kind.typeName ++ " schema at '" ++ path.display ++ "'"
  | overriding kind path =>
    "TRACE override replaces " ++ kind.typeName ++ " schema at '" ++ path.display ++ "'"
  | narrowed checks step lo hi =>
    "TRACE number schema with " ++ toString checks ++ " checks narrowed to multiples of " ++
      Decimal.plain step ++ " in [" ++ Decimal.plain lo ++ ", " ++ Decimal.plain hi ++ "]"
  | tripped failure => "DEBUG acceptance breaker tripped: " ++ failure.message

end SchemaSampler
