namespace SchemaSampler

/-!
# Kinds of schemas
-/

/-- The kind of a schema node. -/
inductive Kind where
  | string | number | bigint | boolean | date | undefined | null | void | any | unknown | never
  | nan | symbol | literal | enumeration | nativeEnum | array | set | object | tuple | record | map
  | union | discriminatedUnion | intersection | function | promise | lazy | optional | nullable
  | default | caught | effects | pipeline | branded | readonly | custom
deriving DecidableEq, Repr

namespace Kind

/-- The name of a kind, as messages show it. -/
def typeName : Kind → String
  | string => "string"
  | number => "number"
  | bigint => "bigint"
  | boolean => "boolean"
  | date => "date"
  | undefined => "undefined"
  | null => "null"
  | void => "void"
  | any => "any"
  | unknown => "unknown"
  | never => "never"
  | nan => "nan"
  | symbol => "symbol"
  | literal => "literal"
  | enumeration => "enum"
  | nativeEnum => "native enum"
  | array => "array"
  | set => "set"
  | object => "object"
  | tuple => "tuple"
  | record => "record"
  | map => "map"
  | union => "union"
  | discriminatedUnion => "discriminated union"
  | intersection => "intersection"
  | function => "function"
  | promise => "promise"
  | lazy => "lazy"
  | optional => "optional"
  | nullable => "nullable"
  | default => "default"
  | caught => "catch"
  | effects => "effects"
  | pipeline => "pipeline"
  | branded => "branded"
  | readonly => "readonly"
  | custom => "custom"

end Kind

end SchemaSampler
