import SchemaSampler.Binary64
import SchemaSampler.Calendar.Instant

namespace SchemaSampler

open Calendar (Instant)

/-!
# Values — what schemas describe

A `Value` is a dynamically typed datum.  Three of its kinds are known only by identity:

* a symbol, which is equal to nothing but itself;
* a function, whose behaviour is either a constant, known here, or that of a function supplied
  from outside and named by a number; schemas that accepted it stand in its list of guards;
* a function that a schema wrapped is a new one, identified by the place where it was wrapped.

The members of an object are sorted by key and no key comes twice.
-/

/-- The number that tells a schema node from every other one. -/
abbrev SchemaId := Nat

/-- One step on the way from a schema's outermost test to an inner one. -/
inductive Step where
  /-- Into the member under a key. -/
  | key (name : String)
  /-- Into the element at a position. -/
  | index (position : Nat)
  /-- Into one of several tests at the same place of the value. -/
  | branch (number : Nat)
  /-- Into a test of a candidate: the cell that asks for it, and how many it asked for before. -/
  | trial (cell : List Nat) (number : Nat)
deriving DecidableEq, Repr

/-- A place in the course of a test, the last step first. -/
abbrev Site := List Step

/-- What tells a function from every other one. -/
inductive Identity where
  /-- The serial number of a function that was made. -/
  | made (serial : Nat)
  /-- The place where a schema wrapped a function. -/
  | wrapped (site : Site)
deriving DecidableEq, Repr

/-- A symbol. -/
structure Symbol where
  /-- The serial number of the symbol. -/
  serial : Nat
  /-- A text that describes it. -/
  description : Option String
deriving DecidableEq, Repr

/-- What a function does when it is called. -/
inductive Behaviour (α : Type) where
  /-- Ignores its arguments and returns one value. -/
  | constant (result : α)
  /-- Does what the function with this number does that is supplied from outside. -/
  | external (number : Nat)

/-- A function with the schemas that guard its calls, the outermost first. -/
structure Callable (α : Type) where
  /-- What tells the function from others. -/
  identity : Identity
  /-- What it does once the guards let a call through. -/
  behaviour : Behaviour α
  /-- The function schemas that test the arguments and the result of each call. -/
  guards : List SchemaId

/-- A dynamically typed datum. -/
inductive Value where
  /-- The absent value. -/
  | undefined
  /-- The empty value. -/
  | null
  /-- A truth value. -/
  | bool (b : Bool)
  /-- A floating-point number. -/
  | number (x : Float)
  /-- An integer of at most 128 bits. -/
  | bigint (n : Int)
  /-- A text. -/
  | string (s : String)
  /-- A point in time. -/
  | date (t : Instant)
  /-- A symbol. -/
  | symbol (s : Symbol)
  /-- A list of values. -/
  | array (items : List Value)
  /-- Values by name. -/
  | object (members : List (String × Value))
  /-- Values by value, in order of insertion. -/
  | map (entries : List (Value × Value))
  /-- A set, in order of insertion. -/
  | set (elements : List Value)
  /-- A function. -/
  | function (f : Callable Value)
  /-- A promise that is already settled. -/
  | promise (settled : Value)
deriving Inhabited

namespace Value

/-- The name of a value's kind, as messages show it. -/
def typeName : Value → String
  | undefined => "undefined"
  | null => "null"
  | bool _ => "boolean"
  | number x => if x.isNaN then "nan" else "number"
  | bigint _ => "bigint"
  | string _ => "string"
  | date _ => "date"
  | symbol _ => "symbol"
  | array _ => "array"
  | object _ => "object"
  | map _ => "map"
  | set _ => "set"
  | function _ => "function"
  | promise _ => "promise"

/-- Whether a value is the absent one. -/
def isUndefined : Value → Bool
  | undefined => true
  | _ => false

/-- The text of a string. -/
def asString? : Value → Option String
  | string s => some s
  | _ => none

/-- The number of a number. -/
def asNumber? : Value → Option Float
  | number x => some x
  | _ => none

/-- The members of an object. -/
def asObject? : Value → Option (List (String × Value))
  | object members => some members
  | _ => none

/-- The items of an array. -/
def asArray? : Value → Option (List Value)
  | array items => some items
  | _ => none

/-- The value that a promise is settled to. -/
def resolve? : Value → Option Value
  | promise settled => some settled
  | _ => none

/-- The size of a text in characters and of a collection in elements. -/
def size? : Value → Option Nat
  | string s => some s.length
  | array items | set items => some items.length
  | object members => some members.length
  | map entries => some entries.length
  | _ => none

mutual

/-- How deep arrays and objects are nested in a value. -/
def depth : Value → Nat
  | array items => depthOfAll items + 1
  | object members => depthOfMembers members + 1
  | _ => 0

/-- The greatest depth of a list of values. -/
def depthOfAll : List Value → Nat
  | [] => 0
  | v :: rest => max (depth v) (depthOfAll rest)

/-- The greatest depth of the members of an object. -/
def depthOfMembers : List (String × Value) → Nat
  | [] => 0
  | (_, v) :: rest => max (depth v) (depthOfMembers rest)

end

end Value

end SchemaSampler
