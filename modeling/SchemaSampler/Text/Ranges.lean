namespace SchemaSampler.Text

/-!
# Code point ranges — sets of characters as tables
-/

/-- A set of code points as closed ranges in ascending order. -/
abbrev Ranges := Array (Nat × Nat)

/-- Whether a character lies in one of the ranges. -/
def Ranges.has (ranges : Ranges) (c : Char) : Bool :=
  ranges.any fun (first, last) => first ≤ c.toNat && c.toNat ≤ last

end SchemaSampler.Text
