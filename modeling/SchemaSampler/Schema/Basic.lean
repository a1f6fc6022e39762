import SchemaSampler.Schema.Check
import SchemaSampler.Schema.Kind

namespace SchemaSampler

/-!
# Schemas — descriptions of values

A `Schema` is a node with an identity and a `Shape`; the shape holds the inner schemas.  Two
schemas built apart have different identities even when their shapes agree.  A lazy schema names
an entry of a table of definitions, so that schemas can refer to themselves.
-/

/-- Bounds on the number of elements of a collection. -/
structure SizeBounds where
  /-- The least number. -/
  min : Option Nat
  /-- The greatest number. -/
  max : Option Nat
deriving DecidableEq, Repr

/-- What an object schema does with members it does not declare. -/
inductive UnknownKeys where
  /-- Leaves them out. -/
  | strip
  /-- Refuses them. -/
  | strict
  /-- Keeps them as they are. -/
  | passthrough
deriving DecidableEq, Repr

/-- What an effect schema adds to its inner schema. -/
inductive Effect where
  /-- A condition on the result of the inner schema. -/
  | refinement (check : Value → Bool) (reason : String)
  /-- A mapping of the result of the inner schema, which may refuse it. -/
  | transform (map : Value → Except String Value)
  /-- A mapping of the input before the inner schema sees it. -/
  | preprocess (map : Value → Value)

/-- The shape of a schema node over inner schemas of type `σ`. -/
inductive Shape (σ : Type) where
  | string (checks : List StringCheck)
  | number (checks : List NumberCheck)
  | bigint (checks : List BigintCheck)
  | boolean
  | date (checks : List DateCheck)
  | undefined
  | null
  | void
  | any
  | unknown
  | never
  | nan
  | symbol
  /-- One value. -/
  | literal (value : Value)
  /-- One of several texts. -/
  | enumeration (members : List String)
  /-- One of several named values. -/
  | nativeEnum (members : List (String × Value))
  | array (item : σ) (bounds : SizeBounds)
  | set (item : σ) (bounds : SizeBounds)
  /-- Declared members, in order of declaration. -/
  | object (fields : List (String × σ)) (unknownKeys : UnknownKeys)
  /-- Elements by position, then any number of further ones if `rest` is given. -/
  | tuple (slots : List σ) (rest : Option σ)
  | record (key value : σ)
  | map (key value : σ)
  | union (options : List σ)
  /-- Objects told apart by the text under one key. -/
  | discriminatedUnion (discriminator : String) (options : List σ)
  | intersection (left right : σ)
  | function (arguments : List σ) (result : σ)
  | promise (inner : σ)
  /-- The definition with a name. -/
  | lazy (name : String)
  | optional (inner : σ)
  | nullable (inner : σ)
  /-- Puts a value in the place of an absent one. -/
  | default (inner : σ) (value : Value)
  /-- Puts a value in the place of one that the inner schema refuses. -/
  | caught (inner : σ) (fallback : Value)
  | effects (inner : σ) (effect : Effect)
  /-- Feeds the result of the first schema to the second. -/
  | pipeline (first second : σ)
  | branded (inner : σ) (brand : String)
  | readonly (inner : σ)
  /-- A kind from outside, with its name and test. -/
  | custom (name : String) (check : Value → Bool)

/-- A schema node. -/
inductive Schema where
  /-- The node with an identity and a shape. -/
  | node (id : SchemaId) (shape : Shape Schema)

/-- The kind of a shape. -/
def Shape.kind {σ : Type} : Shape σ → Kind
  | string _ => .string
  | number _ => .number
  | bigint _ => .bigint
  | boolean => .boolean
  | date _ => .date
  | undefined => .undefined
  | null => .null
  | void => .void
  | any => .any
  | unknown => .unknown
  | never => .never
  | nan => .nan
  | symbol => .symbol
  | literal _ => .literal
  | enumeration _ => .enumeration
  | nativeEnum _ => .nativeEnum
  | array _ _ => .array
  | set _ _ => .set
  | object _ _ => .object
  | tuple _ _ => .tuple
  | record _ _ => .record
  | map _ _ => .map
  | union _ => .union
  | discriminatedUnion _ _ => .discriminatedUnion
  | intersection _ _ => .intersection
  | function _ _ => .function
  | promise _ => .promise
  | lazy _ => .lazy
  | optional _ => .optional
  | nullable _ => .nullable
  | default _ _ => .default
  | caught _ _ => .caught
  | effects _ _ => .effects
  | pipeline _ _ => .pipeline
  | branded _ _ => .branded
  | readonly _ => .readonly
  | custom _ _ => .custom

namespace Schema

/-- The identity of a schema. -/
def id : Schema → SchemaId
  | node id _ => id

/-- The shape of a schema. -/
def shape : Schema → Shape Schema
  | node _ shape => shape

/-- The kind of a schema. -/
def kind (s : Schema) : Kind := s.shape.kind

/-- The name of a schema's type: that of its kind, or its own for a kind from outside. -/
def typeName (s : Schema) : String :=
  match s.shape with
  | .custom name _ => name
  | shape => shape.kind.typeName

@[simp] theorem id_node (i : SchemaId) (shape : Shape Schema) : (node i shape).id = i := rfl

@[simp] theorem shape_node (i : SchemaId) (shape : Shape Schema) :
    (node i shape).shape = shape := rfl

end Schema

end SchemaSampler
