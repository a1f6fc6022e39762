import SchemaSampler.Value.Collection

namespace SchemaSampler.Value

/-!
# Merging — one value out of two

Two objects merge member by member, two arrays of one length element by element, and all other
values only when they are equal.
-/

mutual

/-- The value that agrees with both values, if there is one. -/
def merge : Value → Value → Option Value
  | object left, object right => (mergeMembers left right).map object
  | array left, array right => (mergeAll left right).map array
  | left, right => if left == right then some left else none

/-- Merges the members of the right object into those of the left one. -/
def mergeMembers : List (String × Value) → List (String × Value) →
    Option (List (String × Value))
  | left, [] => some left
  | left, (key, v) :: rest => do
    let merged ← match findMember? key left with
      | some existing => merge existing v
      | none => some v
    mergeMembers (insertMember key merged left) rest

/-- Merges two lists of one length, element by element. -/
def mergeAll : List Value → List Value → Option (List Value)
  | [], [] => some []
  | a :: left, b :: right => do
    let head ← merge a b
    let tail ← mergeAll left right
    some (head :: tail)
  | _, _ => none

end

end SchemaSampler.Value
