import SchemaSampler.Json.Basic
import SchemaSampler.Value.Basic

namespace SchemaSampler.Value

/-!
# Values and JSON documents

Every document is a value.  A value has a document when it is built of the kinds that JSON knows,
with finite numbers only; members of objects that are absent are left out of the document.
-/

mutual

/-- The document of a value. -/
def toJson? : Value → Option Json
  | null => some .null
  | bool b => some (.bool b)
  | number x => if x.isFinite then some (.number (.float x)) else none
  | string s => some (.string s)
  | array items => (itemsToJson? items).map .array
  | object members => (membersToJson? members).map .object
  | _ => none

/-- The documents of the items of an array. -/
def itemsToJson? : List Value → Option (List Json)
  | [] => some []
  | v :: rest => do
    let head ← toJson? v
    let tail ← itemsToJson? rest
    some (head :: tail)

/-- The documents of the members of an object that are not absent. -/
def membersToJson? : List (String × Value) → Option (List (String × Json))
  | [] => some []
  | (key, v) :: rest =>
    if v.isUndefined then membersToJson? rest
    else do
      let head ← toJson? v
      let tail ← membersToJson? rest
      some ((key, head) :: tail)

end

mutual

/-- The value of a document. -/
def ofJson : Json → Value
  | .null => null
  | .bool b => bool b
  | .number n => number n.toFloat
  | .string s => string s
  | .array items => array (ofJsonItems items)
  | .object members => object (ofJsonMembers members)

/-- The values of the items of an array. -/
def ofJsonItems : List Json → List Value
  | [] => []
  | d :: rest => ofJson d :: ofJsonItems rest

/-- The values of the members of an object. -/
def ofJsonMembers : List (String × Json) → List (String × Value)
  | [] => []
  | (key, d) :: rest => (key, ofJson d) :: ofJsonMembers rest

end

end SchemaSampler.Value
