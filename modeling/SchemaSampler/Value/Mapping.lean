import SchemaSampler.Decimal.Text
import SchemaSampler.Members
import SchemaSampler.Value.Collection
import SchemaSampler.Value.Predicate

namespace SchemaSampler

/-!
# Mappings — functions of values given as data

A transformation takes any function that gives a value or refuses its argument for a reason.  A
`Mapping` is such a function written down.  A mapping for values of one kind leaves values of
other kinds as they are, unless it says what it makes of them.
-/

/-- A function from values to values, which may refuse its argument. -/
inductive Mapping where
  /-- The value itself. -/
  | identity
  /-- Always this value. -/
  | constant (v : Value)
  /-- The number of characters of a text; the absent value for other kinds. -/
  | characterCount
  /-- The decimal text of a number. -/
  | decimalText
  /-- The name of the value's kind. -/
  | kindName
  /-- The array of the value alone. -/
  | singleton
  /-- A promise settled to the value. -/
  | promise
  /-- The negative of a number. -/
  | negative
  /-- The member of an object under a key; the absent value where there is none. -/
  | member (key : String)
  /-- The set of the items of an array. -/
  | itemSet
  /-- Refuses every value. -/
  | refuse (reason : String)
  /-- Refuses the values that meet a condition. -/
  | refuseIf (p : Predicate) (reason : String)

namespace Mapping

/-- What a mapping makes of a value, or the reason why it refuses it. -/
def apply (m : Mapping) (v : Value) : Except String Value :=
  match m with
  | identity => .ok v
  | constant result => .ok result
  | characterCount =>
    .ok (match v.asString? with
      | some s => .number (Binary64.ofInt s.length)
      | none => .undefined)
  | decimalText =>
    .ok (match v.asNumber? with
      | some x => .string (Decimal.plain x)
      | none => v)
  | kindName => .ok (.string v.typeName)
  | singleton => .ok (.array [v])
  | promise => .ok (.promise v)
  | negative =>
    .ok (match v.asNumber? with
      | some x => .number (-x)
      | none => v)
  | member key => .ok ((v.asObject?.bind (findMember? key)).getD .undefined)
  | itemSet =>
    .ok (match v.asArray? with
      | some items => Value.setOfItems items
      | none => v)
  | refuse reason => .error reason
  | refuseIf p reason => if p.holds v then .error reason else .ok v

/-- What a mapping makes of a value, the absent value where it refuses it. -/
def applyOrUndefined (m : Mapping) (v : Value) : Value :=
  match m.apply v with
  | .ok result => result
  | .error _ => .undefined

end Mapping

end SchemaSampler
