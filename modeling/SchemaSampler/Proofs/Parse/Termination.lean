import SchemaSampler.Proofs.Parse.Composition
import SchemaSampler.Proofs.Parse.Depth

namespace SchemaSampler

/-!
# Termination — schemas whose tests come to an end

* `Schema.Halts` — the tests of all values against a schema end, each within a depth of its own; a
  test ends also where a remainder overflows.
* `Schema.Ends` — they end with an outcome.
* `ends_of_children` — they do if those of the inner schemas do.
* `ends_of_lazyFree` — so they do in the absence of lazy schemas and of overflows, since only
  definitions can make a test go on for ever.
-/

/-- A shape that names no definition. -/
def Shape.LazyFree {σ : Type} : Shape σ → Prop
  | .lazy _ => False
  | _ => True

/-! ### Computations with a result -/

/-- The first of two computations has a result. -/
def HasResult (α : Type) (o _ : Option α) : Prop := o.isSome = true

/-- Whatever is put together of computations with a result has one. -/
theorem composes_hasResult : Composes HasResult where
  pure _ := rfl
  bind := by
    rintro α β (_ | a) _ f g first next
    · cases first
    · exact next a

/-- Whatever is put together of computations that do not break off for a reason does not either. -/
theorem composes_ne_halt (reason : Halt) :
    Composes fun α (run _ : Except Halt α) => run ≠ .error reason where
  pure _ := nofun
  bind := by
    rintro α β (_ | a) _ f g first next
    · rintro ⟨⟩
      exact first rfl
    · exact next a

/-- The tests of all values against a schema end with an outcome. -/
def Recur.Ends (recur : Recur) (s : Schema) : Prop := ∀ site v, (recur site s v).isSome

/-- One level of a test ends when the tests do that it consults, unless a remainder overflows. -/
theorem Shape.step_ends {recur : Recur} {site : Site} {v : Value} {definitions : Definitions}
    {id : SchemaId} {shape : Shape Schema} (overflowFree : shape.OverflowFree)
    (h : ∀ t u, shape.Consults definitions v t u → recur.Ends t) :
    (shape.step definitions recur site id v).isSome :=
  have consulted : ∀ t u, shape.Consults definitions v t u →
      ∀ site, HasResult _ (recur site t u) (recur site t u) := fun t u consults site =>
    h t u consults site u
  composes_hasResult.step (.inl overflowFree) consulted

/-! ### All levels -/

namespace Schema

variable {definitions : Definitions} {id : SchemaId} {shape : Shape Schema} {s : Schema}

/-- The tests of all values against a schema come to an end within some depth, with an outcome or
    because a remainder overflows. -/
def Halts (definitions : Definitions) (s : Schema) : Prop :=
  ∀ site v, ∃ depth, runWithin definitions depth site s v ≠ .error .bound

/-- The tests of all values against a schema end with an outcome, each within some depth. -/
def Ends (definitions : Definitions) (s : Schema) : Prop :=
  ∀ site v, ∃ depth out, parseWithin definitions depth site s v = some out

theorem Ends.parseFully (h : s.Ends definitions) : (parseFully definitions).Ends s := by
  intro site v
  obtain ⟨depth, out, returns⟩ := h site v
  exact Option.isSome_iff_exists.mpr ⟨out, parseFully_eq_some_iff.mpr ⟨depth, returns⟩⟩

/-- The tests against a node end if those do that one level consults. -/
theorem ends_of_consults (overflowFree : shape.OverflowFree)
    (h : ∀ v t u, shape.Consults definitions v t u → t.Ends definitions) :
    Ends definitions (.node id shape) := by
  intro site v
  have level : (shape.step definitions (Schema.parseFully definitions) site id v).isSome :=
    Shape.step_ends overflowFree fun t u consults => (h v t u consults).parseFully
  obtain ⟨out, returns⟩ := Option.isSome_iff_exists.mp level
  obtain ⟨depth, returns⟩ := exists_depth_of_step returns
  exact ⟨depth, out, returns⟩

/-- The tests against a node end if those against the inner schemas do. -/
theorem ends_of_children (lazyFree : shape.LazyFree) (overflowFree : shape.OverflowFree)
    (h : ∀ t ∈ shape.children, t.Ends definitions) : Ends definitions (.node id shape) := by
  refine ends_of_consults overflowFree fun v t u consults => ?_
  rcases consults.asks with child | ⟨name, rfl, _⟩
  · exact h t child
  · exact lazyFree.elim

/-- The tests against a schema without lazy nodes end unless a remainder overflows. -/
theorem ends_of_lazyFree (lazyFree : s.Everywhere Shape.LazyFree)
    (overflowFree : s.Everywhere Shape.OverflowFree) : s.Ends definitions := by
  induction lazyFree with
  | node id here _ ih =>
    exact ends_of_children here overflowFree.here fun t child =>
      ih t child (overflowFree.inside child)

end Schema

end SchemaSampler
