import SchemaSampler.Members
import SchemaSampler.Value.Equality

namespace SchemaSampler.Value

/-!
# Collections — maps, sets and objects from lists

* A map keeps each key where it came first, as it was spelled there, with the value that came
  last for it.
* A set keeps the first occurrence of each element.
* An object is sorted by key and keeps the value that came last for each.
-/

/-- Puts a value under a key: in the place of an equal key, which stays as it is, or at the end. -/
def putEntry (key value : Value) : List (Value × Value) → List (Value × Value)
  | [] => [(key, value)]
  | (k, v) :: rest => if k == key then (k, value) :: rest else (k, v) :: putEntry key value rest

/-- The map of a list of pairs. -/
def mapOfPairs (pairs : List (Value × Value)) : Value :=
  map (pairs.foldl (fun entries (k, v) => putEntry k v entries) [])

/-- Adds an element to a set, at the end, unless an equal one is there. -/
def addElement (elements : List Value) (item : Value) : List Value :=
  if elements.any (· == item) then elements else elements ++ [item]

/-- The set of a list of items. -/
def setOfItems (items : List Value) : Value := set (items.foldl addElement [])

/-- The object of a list of members. -/
def objectOf (members : List (String × Value)) : Value := object (sortMembers members)

end SchemaSampler.Value
