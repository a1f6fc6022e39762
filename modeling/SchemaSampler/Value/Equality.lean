import SchemaSampler.Value.Basic

namespace SchemaSampler.Value

/-!
# Equality of values

Two values are equal when they are of one kind and their contents are equal, in order.  NaN
equals itself and the two zeros are equal; symbols and functions are equal only to themselves.
-/

mutual

/-- Equality of values. -/
def same : Value → Value → Bool
  | undefined, undefined => true
  | null, null => true
  | bool a, bool b => a == b
  | number x, number y => Binary64.same x y
  | bigint m, bigint n => m == n
  | string s, string t => s == t
  | date s, date t => s == t
  | symbol s, symbol t => s == t
  | array as, array bs => sameAll as bs
  | set as, set bs => sameAll as bs
  | object as, object bs => sameMembers as bs
  | map as, map bs => sameEntries as bs
  | function f, function g => f.identity == g.identity
  | promise a, promise b => same a b
  | _, _ => false

/-- Equality of lists of values. -/
def sameAll : List Value → List Value → Bool
  | [], [] => true
  | a :: as, b :: bs => same a b && sameAll as bs
  | _, _ => false

/-- Equality of the members of objects. -/
def sameMembers : List (String × Value) → List (String × Value) → Bool
  | [], [] => true
  | (k, a) :: as, (l, b) :: bs => k == l && same a b && sameMembers as bs
  | _, _ => false

/-- Equality of the entries of maps. -/
def sameEntries : List (Value × Value) → List (Value × Value) → Bool
  | [], [] => true
  | (k, a) :: as, (l, b) :: bs => same k l && same a b && sameEntries as bs
  | _, _ => false

end

instance : BEq Value := ⟨same⟩

end SchemaSampler.Value
