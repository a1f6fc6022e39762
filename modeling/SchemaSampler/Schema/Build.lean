import SchemaSampler.Schema.Basic

namespace SchemaSampler

/-!
# Building schemas

A builder hands out identities in order, so that every schema it makes differs from all earlier
ones.
-/

/-- A computation that makes schemas; its state is the next identity. -/
abbrev Build := StateM SchemaId

/-- Makes a schema of a shape with an identity of its own. -/
def Schema.make (shape : Shape Schema) : Build Schema := do
  let id ← get
  set (id + 1)
  pure (.node id shape)

/-- A schema that accepts what another one does, null and the absent value. -/
def Schema.nullish (inner : Schema) : Build Schema := do
  Schema.make (.optional (← Schema.make (.nullable inner)))

/-- Declares a member; one declared before under the name is replaced in its place. -/
def declare {σ : Type} (name : String) (schema : σ) : List (String × σ) → List (String × σ)
  | [] => [(name, schema)]
  | (n, s) :: rest =>
    if n = name then (name, schema) :: rest else (n, s) :: declare name schema rest

/-- The shape of an object with members declared in order. -/
def Shape.ofFields {σ : Type} (fields : List (String × σ)) (unknownKeys : UnknownKeys) : Shape σ :=
  .object (fields.foldl (fun declared (name, s) => declare name s declared) []) unknownKeys

namespace SizeBounds

/-- No bounds. -/
def none : SizeBounds := ⟨.none, .none⟩

/-- Sets the least number. -/
def atLeast (b : SizeBounds) (n : Nat) : SizeBounds := { b with min := some n }

/-- Sets the greatest number. -/
def atMost (b : SizeBounds) (n : Nat) : SizeBounds := { b with max := some n }

/-- Sets the only number. -/
def exactly (b : SizeBounds) (n : Nat) : SizeBounds := (b.atLeast n).atMost n

end SizeBounds

end SchemaSampler
