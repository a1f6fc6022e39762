import SchemaSampler.Proofs.Parse.Acceptance
import SchemaSampler.Proofs.Parse.Termination

namespace SchemaSampler

/-!
# Decisions — values that some test accepts or no test refuses

* `Schema.NeverRefuses`, `Schema.AcceptsAt` — the two decisions at a place; what suits a schema is
  never refused, and what is never refused is accepted once a test of it ends.
* `Schema.Defers` — a test that another schema decides one level further in.
* `Schema.acceptsAt_number_iff` — a number schema accepts what meets all its checks.
-/

open Parsed

variable {definitions : Definitions} {site : Site} {id : SchemaId} {s t : Schema} {v w : Value}

namespace Schema

/-- No test of a value refuses it. -/
def NeverRefuses (definitions : Definitions) (site : Site) (s : Schema) (v : Value) : Prop :=
  ∀ depth outcome, s.parse definitions depth site v = some outcome → ∃ w, outcome = .ok w

/-- Some test of a value comes to a result. -/
def AcceptsAt (definitions : Definitions) (site : Site) (s : Schema) (v : Value) : Prop :=
  ∃ depth w, s.parse definitions depth site v = some (.ok w)

/-- Of two schemas, the one tests a value as the other tests another value one level further in. -/
def Defers (definitions : Definitions) (site : Site) (s : Schema) (v : Value) (t : Schema)
    (w : Value) : Prop :=
  ∀ depth, s.parse definitions (depth + 1) site v = t.parse definitions depth site w

theorem Defers.neverRefuses_iff (defers : Defers definitions site s v t w) :
    s.NeverRefuses definitions site v ↔ t.NeverRefuses definitions site w := by
  constructor
  · intro never depth outcome returns
    exact never (depth + 1) outcome ((defers depth).trans returns)
  · intro never depth outcome returns
    cases depth with
    | zero => cases returns
    | succ depth => exact never depth outcome ((defers depth).symm.trans returns)

theorem Defers.acceptsAt_iff (defers : Defers definitions site s v t w) :
    s.AcceptsAt definitions site v ↔ t.AcceptsAt definitions site w := by
  constructor
  · rintro ⟨depth, result, returns⟩
    cases depth with
    | zero => cases returns
    | succ depth => exact ⟨depth, result, (defers depth).symm.trans returns⟩
  · rintro ⟨depth, result, returns⟩
    exact ⟨depth + 1, result, (defers depth).trans returns⟩

theorem Suits.neverRefuses (suits : s.Suits definitions v) (fresh : s.FreshAt definitions site) :
    s.NeverRefuses definitions site v := by
  intro depth outcome returns
  obtain ⟨out, within, rfl⟩ := Option.map_eq_some_iff.mp returns
  obtain ⟨w, rfl, -⟩ := suits.accepts site fresh depth out within
  exact ⟨w, rfl⟩

/-- A value that is never refused is accepted once a test of it ends. -/
theorem NeverRefuses.acceptsAt (never : s.NeverRefuses definitions site v)
    (ends : s.Ends definitions) : s.AcceptsAt definitions site v := by
  obtain ⟨depth, out, within⟩ := ends site v
  have returns : s.parse definitions depth site v = some _ := congrArg (Option.map _) within
  obtain ⟨w, accepted⟩ := never depth _ returns
  exact ⟨depth, w, returns.trans (congrArg some accepted)⟩

/-! ### Checks -/

/-- The checks of a value find no problem exactly if each of them finds none. -/
theorem exists_ofProblems_eq_ok_iff {α : Type} {violation? : α → Option Problem}
    {checks : List α} :
    (∃ w, ofProblems site v (checks.filterMap violation?) = .ok w) ↔
      ∀ check ∈ checks, violation? check = none := by
  rw [← List.filterMap_eq_nil_iff]
  constructor
  · rintro ⟨w, accepted⟩
    exact (ofProblems_eq_ok_iff.mp accepted).1
  · intro fine
    exact ⟨v, ofProblems_eq_ok_iff.mpr ⟨fine, rfl⟩⟩

/-- A number schema accepts the numbers that meet all its checks. -/
theorem acceptsAt_number_iff {checks : List NumberCheck} {x : Float} :
    (Schema.node id (.number checks)).AcceptsAt definitions site (.number x) ↔
      x.isNaN = false ∧ ∀ check ∈ checks, check.holds x = true := by
  have tested (depth : Nat) (w : Value) :
      (Schema.node id (.number checks)).parse definitions (depth + 1) site (.number x) =
        some (.ok w) ↔ x.isNaN = false ∧
          ofProblems site (.number x) (checks.filterMap (·.violation? x)) = .ok w := by
    rw [parse_eq_ok_iff, parseWithin, shape_node, Shape.step]
    cases x.isNaN <;> simp [mismatch, refuse]
  have meets (check : NumberCheck) : check.violation? x = none ↔ check.holds x = true := by
    rw [NumberCheck.violation?]
    split <;> simp_all
  have decided : (∃ w, ofProblems site (.number x) (checks.filterMap (·.violation? x)) = .ok w) ↔
      ∀ check ∈ checks, check.violation? x = none := exists_ofProblems_eq_ok_iff
  simp only [meets] at decided
  rw [← decided]
  constructor
  · rintro ⟨_ | depth, w, returns⟩
    · cases returns
    · obtain ⟨number, fine⟩ := (tested depth w).mp returns
      exact ⟨number, w, fine⟩
  · rintro ⟨number, w, fine⟩
    exact ⟨1, w, (tested 0 w).mpr ⟨number, fine⟩⟩

end Schema

end SchemaSampler
