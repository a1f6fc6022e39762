import SchemaSampler.Random.Number
import SchemaSampler.Random.Text
import SchemaSampler.Value.Collection

namespace SchemaSampler.Sampler

/-!
# Arbitrary values

Values of the simple kinds, and arrays and objects of up to three of them, nested to a given depth.
-/

/-- A short text of letters, digits and spaces. -/
def shortText : Sampler String := do
  let set := ((CharSet.small.union .capital).union .digit).union (.single ' ')
  pure (String.ofList (← list (ofSet set) 0 8))

/-- A key of one to six small letters. -/
def shortKey : Sampler String := do
  pure (String.ofList (← list (ofSet .small) 1 6))

/-- An arbitrary value that contains no others. -/
def leaf : Sampler Value :=
  .weighted
    (.uniform
      [pure .undefined, pure .null, .bool <$> bool, .number <$> finiteFloat,
        .bigint <$> intBetween (-(Nat.pow 2 63 : Nat)) (Nat.pow 2 63 - 1 : Nat),
        .string <$> shortText])
    (pure .null)

/-- An arbitrary value with arrays and objects nested at most `depth` deep. -/
def anyValue : (depth : Nat) → Sampler Value
  | 0 => leaf
  | depth + 1 =>
    let inner := anyValue depth
    let member : Sampler (String × Value) := do
      let key ← shortKey
      let v ← inner
      pure (key, v)
    .weighted
      [(3, leaf), (1, .array <$> list inner 0 3), (1, Value.objectOf <$> list member 0 3)]
      (pure .null)

end SchemaSampler.Sampler
