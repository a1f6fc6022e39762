import SchemaSampler.Strategy.Basic
import SchemaSampler.Strategy.Config
import SchemaSampler.Strategy.Failure

namespace SchemaSampler

/-!
# Overrides — strategies put in the place of schemas

Overrides are registered under the identity of a schema, and the latest registration counts.
Registering gives a new list and leaves the old one as it is.

An override is a strategy or a factory.  A factory may be any program that makes a strategy of what
it asks the compiler for.  Its `Recipe` is the tree of its requests, with a continuation for each
answer.
-/

/-- Which values of a schema are meant. -/
inductive Mode where
  /-- Those it accepts. -/
  | input
  /-- Those it makes of what it accepts. -/
  | output
deriving DecidableEq, Repr

/-- What a factory goes on to do when it has got a number of strategies compiled; `O` are the overrides
    that it may register.  Strategies can be put together to others, but not looked into, so nothing
    else depends on them. -/
inductive Recipe (O : Type) : (built : Nat) → Type where
  /-- Gives a strategy, put together from those it has. -/
  | give {built : Nat} (assemble : Vector Strategy built → Strategy) : Recipe O built
  /-- Gives none. -/
  | stop {built : Nat} (reason : Stop) : Recipe O built
  /-- Asks for the settings of the compiler and for the number of schemas it has overrides for. -/
  | inspect {built : Nat} (next : Config → (overridden : Nat) → Recipe O built) : Recipe O built
  /-- Has a schema compiled, either by the compiler that asks for the strategy or by a new one with
      `settings`, after further registrations, the latest first.  It goes on with one strategy more
      or with the failure. -/
  | compile {built : Nat} (settings : Option Config) (registrations : List (SchemaId × O))
      (mode : Mode) (schema : Schema) (next : Recipe O (built + 1))
      (otherwise : Failure → Recipe O built) : Recipe O built

/-- The recipe of a factory that has one schema compiled in the place of another. -/
def Recipe.forward {O : Type} (schema : Schema) (mode : Mode) : Recipe O 0 :=
  .compile none [] mode schema (.give fun strategies => strategies[0])
    fun failure => .stop (.failed failure)

/-- What is put in the place of a schema. -/
inductive Override where
  /-- A strategy. -/
  | ready (strategy : Strategy)
  /-- What a factory makes of the compiler that asks for it. -/
  | factory (recipe : Recipe Override 0)

/-- Registered overrides, the latest first. -/
structure Overrides where
  /-- The registrations. -/
  entries : List (SchemaId × Override)

namespace Overrides

/-- No overrides. -/
def empty : Overrides := ⟨[]⟩

/-- The overrides after one more registration. -/
def register (o : Overrides) (id : SchemaId) (replacement : Override) : Overrides :=
  ⟨(id, replacement) :: o.entries⟩

/-- The latest override of a schema. -/
def resolve? (o : Overrides) (id : SchemaId) : Option Override :=
  (o.entries.find? (·.1 == id)).map (·.2)

/-- How many schemas have an override. -/
def count (o : Overrides) : Nat := (o.entries.map (·.1)).eraseDups.length

end Overrides

end SchemaSampler
