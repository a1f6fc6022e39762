import SchemaSampler.Value.Equality

namespace SchemaSampler

/-!
# Predicates — conditions on values given as data

A refinement takes any function for its condition.  A `Predicate` is such a function written down:
a few conditions on one value and their combinations.  A condition on values of one kind fails for
values of another.
-/

/-- A condition on a value. -/
inductive Predicate where
  /-- Holds always. -/
  | always
  /-- Holds never. -/
  | never
  /-- The value is equal to this one. -/
  | equals (v : Value)
  /-- The name of the value's kind is this one. -/
  | hasType (name : String)
  /-- Divided by `divisor` the number leaves `rest`. -/
  | leaves (divisor rest : Float)
  /-- The number is above a bound. -/
  | above (bound : Float)
  /-- The text or collection has at least this size. -/
  | sized (min : Nat)
  /-- The object has a member under this key. -/
  | hasKey (key : String)
  /-- The condition fails. -/
  | negation (p : Predicate)
  /-- All conditions hold. -/
  | all (ps : List Predicate)
  /-- One of the conditions holds. -/
  | any (ps : List Predicate)

namespace Predicate

mutual

/-- Whether a condition holds for a value. -/
def holds : Predicate → Value → Bool
  | always, _ => true
  | never, _ => false
  | equals expected, v => v == expected
  | hasType name, v => v.typeName == name
  | leaves divisor rest, v => v.asNumber?.any fun x => Binary64.remainder x divisor == rest
  | above bound, v => v.asNumber?.any fun x => bound < x
  | sized min, v => v.size?.any fun size => min ≤ size
  | hasKey key, v => v.asObject?.any fun members => members.any (·.1 == key)
  | negation p, v => !holds p v
  | all ps, v => holdsAll ps v
  | any ps, v => holdsAny ps v

/-- Whether all conditions of a list hold for a value. -/
def holdsAll : List Predicate → Value → Bool
  | [], _ => true
  | p :: ps, v => holds p v && holdsAll ps v

/-- Whether one of the conditions of a list holds for a value. -/
def holdsAny : List Predicate → Value → Bool
  | [], _ => false
  | p :: ps, v => holds p v || holdsAny ps v

end

end Predicate

end SchemaSampler
