namespace SchemaSampler

/-!
# Choices — the source of randomness

All randomness comes from `Choices`: the answer to each of the questions "which of `0, …, last`?"
that are asked one after another.  A `Sampler` asks questions and makes a result of the answers.
Whatever a sampler can yield, it yields for some choices, and a law that holds for all choices
holds whatever the source of randomness does.
-/

/-- The answers to the questions asked: for the number of a question and the last of its possible
    answers, the answer. -/
abbrev Choices := (question : Nat) → (last : Nat) → Fin (last + 1)

/-- A computation that asks questions; its state is the number of the next one. -/
abbrev Sampler := ReaderT Choices (StateM Nat)

namespace Sampler

/-- One of the numbers from `0` to `last`. -/
def upTo (last : Nat) : Sampler Nat := fun choices question =>
  ((choices question last).val, question + 1)

/-- One of the numbers from `lo` to `hi`; `lo` if there are none. -/
def between (lo hi : Nat) : Sampler Nat := do
  pure (lo + (← upTo (hi - lo)))

/-- One of the integers from `lo` to `hi`; `lo` if there are none. -/
def intBetween (lo hi : Int) : Sampler Int := do
  pure (lo + (← upTo (hi - lo).toNat))

/-- One of two truth values. -/
def bool : Sampler Bool := do
  pure ((← upTo 1) == 1)

/-- One of the elements of a list that has `first` in front of the others. -/
def element {α : Type} (first : α) (others : List α) : Sampler α := do
  pure ((first :: others).getD (← upTo others.length) first)

/-- A number of results, one after the other. -/
def replicate {α : Type} (sampler : Sampler α) : Nat → Sampler (List α)
  | 0 => pure []
  | n + 1 => do
    let head ← sampler
    let tail ← replicate sampler n
    pure (head :: tail)

/-- A list of a length from `lo` to `hi`. -/
def list {α : Type} (sampler : Sampler α) (lo hi : Nat) : Sampler (List α) := do
  replicate sampler (← between lo hi)

end Sampler

/-! ### Weights -/

/-- Options with weights. -/
abbrev Weighted (α : Type) := List (Nat × α)

namespace Weighted

/-- The sum of the weights. -/
def total {α : Type} (options : Weighted α) : Nat :=
  options.foldr (fun (weight, _) sum => weight + sum) 0

/-- The option that a ticket below the sum of the weights falls to. -/
def at? {α : Type} : Weighted α → (ticket : Nat) → Option α
  | [], _ => none
  | (weight, option) :: rest, ticket =>
    if ticket < weight then some option else at? rest (ticket - weight)

/-- Options of equal weight. -/
def uniform {α : Type} (options : List α) : Weighted α := options.map fun a => (1, a)

end Weighted

/-- One of several samplers, by weight; `otherwise` if there is none with a weight. -/
def Sampler.weighted {α : Type} (options : Weighted (Sampler α)) (otherwise : Sampler α) :
    Sampler α := do
  ((options.at? (← upTo (options.total - 1))).getD otherwise)

end SchemaSampler
