import SchemaSampler.Proofs.Parse.Refusal
import SchemaSampler.Proofs.Value.Collection

namespace SchemaSampler

/-!
# Sizes of collections — bounds are tested before the result is built

The bounds of a collection count the elements that come in.  An array comes out with as many
(`Schema.parse_array_size`).  The set that comes out is built of what the item schema made of the
elements, and it keeps one of several equal ones: its size is never above the greatest number, and
it is at least the least number as long as the results are distinct (`Schema.parse_set_size`).
Results that became equal can leave fewer elements than the least number
(`Schema.exists_set_below_min`).
-/

namespace Schema

variable {definitions : Definitions} {depth : Nat} {site : Site} {id : SchemaId} {item : Schema}
  {bounds : SizeBounds} {v w : Value}

/-- What the item schema makes of the elements of a collection, each at its position. -/
def ItemResults (definitions : Definitions) (depth : Nat) (site : Site) (item : Schema)
    (items results : List Value) : Prop :=
  List.Forall₂ (fun v w => ∃ i, item.parse definitions depth (.index i :: site) v = some (.ok w))
    items results

/-- A level of a collection that was accepted: the number of elements lies within the bounds, and
    the result is built of those of the elements. -/
theorem collection_of_accepted {c : Collection} {items : List Value} {build : List Value → Value}
    (h : parseCollection (parseWithin definitions depth) site c item bounds items build =
      some (.ok w)) :
    ((∀ min, bounds.min = some min → min ≤ items.length) ∧
        ∀ max, bounds.max = some max → items.length ≤ max) ∧
      ∃ results, ItemResults definitions depth site item items results ∧ w = build results := by
  obtain ⟨sizes, results, each, rfl⟩ := parseCollection_ok (parseWithin_reports definitions depth) h
  refine ⟨SizeBounds.problems_eq_nil_iff.mp sizes, results, each.imp ?_, rfl⟩
  rintro v w ⟨i, returns⟩
  exact ⟨i, parse_eq_ok_iff.mpr returns⟩

/-- An array that is accepted keeps its number of elements, which lies within the bounds. -/
theorem parse_array_size
    (h : parse definitions (depth + 1) site (.node id (.array item bounds)) v = some (.ok w)) :
    ∃ items results, v = .array items ∧ w = .array results ∧
      ItemResults definitions depth site item items results ∧
      (∀ min, bounds.min = some min → min ≤ results.length) ∧
      ∀ max, bounds.max = some max → results.length ≤ max := by
  rw [parse_eq_ok_iff, parseWithin, shape_node] at h
  simp only [Shape.step] at h
  split at h
  · rename_i items
    obtain ⟨within, results, each, rfl⟩ := collection_of_accepted h
    rw [each.length_eq] at within
    exact ⟨items, results, rfl, rfl, each, within⟩
  · cases h

/-- **Sizes of sets.** A set that is accepted came in with a number of elements within the bounds.
    It comes out with one of several results that are equal, so that its size is at most the
    greatest number, and at least the least number if no two results are equal. -/
theorem parse_set_size
    (h : parse definitions (depth + 1) site (.node id (.set item bounds)) v = some (.ok w)) :
    ∃ items results, v = .set items ∧ w = .set (Value.elementsOf results) ∧
      ItemResults definitions depth site item items results ∧
      (∀ max, bounds.max = some max → (Value.elementsOf results).length ≤ max) ∧
      (∀ min, bounds.min = some min → min ≤ results.length) ∧
      (Value.DistinctElements results →
        ∀ min, bounds.min = some min → min ≤ (Value.elementsOf results).length) := by
  rw [parse_eq_ok_iff, parseWithin, shape_node] at h
  simp only [Shape.step] at h
  split at h
  · rename_i items
    obtain ⟨within, results, each, rfl⟩ := collection_of_accepted h
    rw [each.length_eq] at within
    obtain ⟨above, below⟩ := within
    have fewer := Value.length_elementsOf_le results
    refine ⟨items, results, rfl, rfl, each, fun max hmax => ?_, above, fun distinct min hmin => ?_⟩
    · exact Nat.le_trans fewer (below max hmax)
    · -- Only without equal results does the set keep all of them.
      rw [Value.elementsOf_of_distinct distinct]
      exact above min hmin
  · cases h

/-- The schema of sets of at least two texts, which it trims. -/
def trimmedTexts : Schema := .node 1 (.set (.node 0 (.string [.trim])) ⟨some 2, none⟩)

/-- Two texts that stay different when they are trimmed stay two elements. -/
theorem parse_set_size_trimmed :
    ∃ results, ItemResults (fun _ => none) 1 [] (.node 0 (.string [.trim]))
        [.string "a ", .string "b"] results ∧
      Value.elementsOf results = [.string "a", .string "b"] ∧ 2 ≤ results.length := by
  have accepted : trimmedTexts.parse (fun _ => none) 2 [] (.set [.string "a ", .string "b"]) =
      some (.ok (.set [.string "a", .string "b"])) := by
    cbv
  obtain ⟨items, results, came, built, each, -, least, -⟩ := parse_set_size accepted
  obtain rfl : _ = items := Value.set.inj came
  exact ⟨results, each, (Value.set.inj built).symm, least 2 rfl⟩

/-- Two texts that are one when they are trimmed leave a set with fewer elements than the least
    number, which the same schema then refuses. -/
theorem exists_set_below_min :
    trimmedTexts.parse (fun _ => none) 2 [] (.set [.string "a", .string "a "]) =
        some (.ok (.set [.string "a"])) ∧
      trimmedTexts.parse (fun _ => none) 2 [] (.set [.string "a"]) =
        some (.error ⟨⟨[], .fewerElements .set 2⟩, []⟩) := by
  constructor <;> cbv

end Schema

end SchemaSampler
