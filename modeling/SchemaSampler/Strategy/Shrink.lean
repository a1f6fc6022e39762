namespace SchemaSampler

/-!
# Shrinking — simpler values that are still accepted

A value tree shows a value, and can be asked for a simpler one or, after that went too far, for a
more complicated one.  A monitored tree shows only what its acceptance makes of accepted values:
after each step it complicates its source until the source shows an accepted value.
-/

/-- How trees with states of type `τ` are walked. -/
structure TreeSteps (τ α : Type) where
  /-- The value that a tree shows. -/
  current : τ → α
  /-- Makes the value simpler, if it can be done. -/
  simplify : τ → Bool × τ
  /-- Takes back a part of the last simplification, if it can be done. -/
  complicate : τ → Bool × τ

/-- A tree that shows accepted values only. -/
structure MonitoredTree (τ β : Type) where
  /-- The tree of candidates. -/
  source : τ
  /-- What the last accepted candidate became. -/
  shown : β

namespace MonitoredTree

variable {τ α β : Type}

/-- Complicates the source, at most `patience` times, until it shows an accepted value; `none` when
    the bound is reached.  The result says whether an accepted value was found; if not, the tree
    goes on showing what it showed. -/
def settle (steps : TreeSteps τ α) (accept : α → Option β) :
    (patience : Nat) → MonitoredTree τ β → Option (Bool × MonitoredTree τ β)
  | 0, _ => none
  | patience + 1, tree =>
    match accept (steps.current tree.source) with
    | some image => some (true, ⟨tree.source, image⟩)
    | none =>
      match steps.complicate tree.source with
      | (true, source) => settle steps accept patience ⟨source, tree.shown⟩
      | (false, source) => some (false, ⟨source, tree.shown⟩)

/-- Takes a step of the source and settles. -/
def step (steps : TreeSteps τ α) (accept : α → Option β) (move : τ → Bool × τ) (patience : Nat)
    (tree : MonitoredTree τ β) : Option (Bool × MonitoredTree τ β) :=
  match move tree.source with
  | (true, source) => settle steps accept patience ⟨source, tree.shown⟩
  | (false, source) => some (false, ⟨source, tree.shown⟩)

/-- Makes the shown value simpler, if it can be done. -/
def simplify (steps : TreeSteps τ α) (accept : α → Option β) (patience : Nat)
    (tree : MonitoredTree τ β) : Option (Bool × MonitoredTree τ β) :=
  step steps accept steps.simplify patience tree

/-- Takes back a part of the last simplification, if it can be done. -/
def complicate (steps : TreeSteps τ α) (accept : α → Option β) (patience : Nat)
    (tree : MonitoredTree τ β) : Option (Bool × MonitoredTree τ β) :=
  step steps accept steps.complicate patience tree

end MonitoredTree

end SchemaSampler
