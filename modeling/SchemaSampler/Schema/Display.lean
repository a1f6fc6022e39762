import SchemaSampler.Schema.Basic

namespace SchemaSampler

/-!
# Structural text of schemas

The text of the parts of a schema that hold functions or names: effects, kinds from outside and
lazy schemas.
-/

/-- The structural text of an effect. -/
def Effect.display : Effect → String
  | refinement _ reason => "Refinement \x7b message: " ++ Text.quoted reason ++ ", .. \x7d"
  | transform _ => "Transform(..)"
  | preprocess _ => "Preprocess(..)"

/-- The structural text of a schema that is an effect, of a kind from outside, or lazy. -/
def Schema.display? (s : Schema) : Option String :=
  match s.shape with
  | .effects _ effect => some effect.display
  | .custom name _ => some ("CustomDef \x7b type_name: " ++ Text.quoted name ++ ", .. \x7d")
  | .lazy _ => some "LazyDef(..)"
  | _ => none

end SchemaSampler
