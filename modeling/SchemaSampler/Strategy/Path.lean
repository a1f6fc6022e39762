namespace SchemaSampler

/-!
# Paths — where in a schema something stands

A path is a sequence of steps from the outermost schema to an inner one.  Its text puts the texts
of the steps in a row.
-/

/-- One step from a schema to an inner one. -/
inductive PathStep where
  /-- To a declared member. -/
  | property (name : String)
  /-- To the elements of a collection. -/
  | element
  /-- To a position of a tuple. -/
  | index (position : Nat)
  /-- To the keys of a record or map. -/
  | key
  /-- To the values of a record or map. -/
  | value
  /-- To the result of a function. -/
  | returnType
  /-- To what a promise is settled to. -/
  | resolvedType
deriving DecidableEq, Repr

/-- The text of a step. -/
def PathStep.text : PathStep → String
  | property name => "." ++ name
  | element => "[*]"
  | index position => "[" ++ toString position ++ "]"
  | key => ".(key)"
  | value => ".(value)"
  | returnType => ".(return type)"
  | resolvedType => ".(resolved type)"

/-- The place of an inner schema. -/
structure Path where
  /-- The steps from the outermost schema. -/
  steps : List PathStep
deriving DecidableEq, Repr

namespace Path

/-- The place of the outermost schema. -/
def root : Path := ⟨[]⟩

/-- The place one step further in. -/
def into (p : Path) (step : PathStep) : Path := ⟨p.steps ++ [step]⟩

/-- Whether a path leads nowhere from the outermost schema. -/
def isRoot (p : Path) : Bool := p.steps.isEmpty

/-- The texts of the steps in a row; empty for the outermost schema. -/
def text (p : Path) : String := "".intercalate (p.steps.map PathStep.text)

/-- The text of a path in messages, where the outermost schema is a point. -/
def display (p : Path) : String := if p.isRoot then "." else p.text

end Path

end SchemaSampler
