import SchemaSampler.Proofs.Schema.NumberCheck
import SchemaSampler.Proofs.Strategy.Compiled
import SchemaSampler.Proofs.Strategy.NumberPlan

namespace SchemaSampler

open Binary64

/-!
# Admission of numbers — plans from the side of the numbers that meet the checks

* `NumberPlan.exists_plan` — checks that a number meets have a plan, and the number lies between the
  bounds of the plan.
* `NumberPlan.Admits.meetsBounds` — a finite number between the bounds of a plan meets those of the
  checks.
* `NumberPlan.free_ofChecks` — a plan asks for integers and multiples only if the checks do.
* `compileInput_number` — what compiling comes to is decided by the candidates.
-/

variable {checks : List NumberCheck} {x y : Float}

/-- A number meets all checks. -/
def Meets (checks : List NumberCheck) (x : Float) : Prop :=
  x.isNaN = false ∧ ∀ check ∈ checks, check.holds x = true

/-- Numbers of one value meet the same checks. -/
theorem meets_congr (number_x : x.isNaN = false) (number_y : y.isNaN = false)
    (same : value x = value y) : Meets checks x ↔ Meets checks y := by
  have alike (check : NumberCheck) := check.holds_eq_of_value_eq number_x number_y same
  simp only [Meets, number_x, number_y, alike]

namespace NumberPlan

variable {plan plan' : NumberPlan} {check : NumberCheck} {bound : Float} {inclusive : Bool}

/-! ### Numbers between the bounds -/

/-- A number lies between the bounds of a plan. -/
structure Admits (plan : NumberPlan) (x : Float) : Prop where
  lo : ∀ lo, plan.lo = some lo → lo ≤ x
  hi : ∀ hi, plan.hi = some hi → x ≤ hi

theorem closedLo_le (holds : (NumberCheck.min bound inclusive).holds x = true) :
    closedLo bound inclusive ≤ x := by
  cases inclusive with
  | true => exact of_decide_eq_true holds
  | false => exact nextUp_le_of_lt (of_decide_eq_true holds)

theorem le_closedHi (holds : (NumberCheck.max bound inclusive).holds x = true) :
    x ≤ closedHi bound inclusive := by
  cases inclusive with
  | true => exact of_decide_eq_true holds
  | false => exact le_nextDown_of_lt (of_decide_eq_true holds)

theorem number_of_min (holds : (NumberCheck.min bound inclusive).holds x = true) :
    bound.isNaN = false := by
  cases inclusive with
  | true => exact (number_of_le (of_decide_eq_true holds)).1
  | false => exact (number_of_lt (of_decide_eq_true holds)).1

theorem number_of_max (holds : (NumberCheck.max bound inclusive).holds x = true) :
    bound.isNaN = false := by
  cases inclusive with
  | true => exact (number_of_le (of_decide_eq_true holds)).2
  | false => exact (number_of_lt (of_decide_eq_true holds)).2

/-- A check that an admitted number meets can be added, and the number stays admitted. -/
theorem Admits.add (admits : plan.Admits x) (holds : check.holds x = true) :
    ∃ plan', plan.add check = .ok plan' ∧ plan'.Admits x := by
  cases check with
  | min bound inclusive =>
    obtain ⟨plan', added⟩ : ∃ plan', plan.add (.min bound inclusive) = .ok plan' :=
      ⟨_, by rw [NumberPlan.add, number_of_min holds]; rfl⟩
    refine ⟨plan', added, ?_⟩
    obtain ⟨-, rfl⟩ := add_min added
    refine ⟨fun lo hlo => ?_, admits.hi⟩
    cases hlo
    cases old : plan.lo with
    | none => exact closedLo_le holds
    | some lo =>
      rcases larger_cases lo (closedLo bound inclusive) with h | h <;>
        rw [Option.elim_some, h]
      · exact admits.lo lo old
      · exact closedLo_le holds
  | max bound inclusive =>
    obtain ⟨plan', added⟩ : ∃ plan', plan.add (.max bound inclusive) = .ok plan' :=
      ⟨_, by rw [NumberPlan.add, number_of_max holds]; rfl⟩
    refine ⟨plan', added, ?_⟩
    obtain ⟨-, rfl⟩ := add_max added
    refine ⟨admits.lo, fun hi hhi => ?_⟩
    cases hhi
    cases old : plan.hi with
    | none => exact le_closedHi holds
    | some hi =>
      rcases smaller_cases hi (closedHi bound inclusive) with h | h <;>
        rw [Option.elim_some, h]
      · exact admits.hi hi old
      · exact le_closedHi holds
  | integral | finite | multipleOf _ => exact ⟨_, rfl, admits.lo, admits.hi⟩

/-- Checks that a number meets have a plan, which admits the number. -/
theorem exists_plan (holds : ∀ check ∈ checks, check.holds x = true) :
    ∃ plan, ofChecks checks = .ok plan ∧ plan.Admits x :=
  exists_foldlM ⟨nofun, nofun⟩ fun _ check member admits => admits.add (holds check member)

/-- A finite number between the bounds of a plan meets the checks that bound numbers. -/
theorem Admits.meetsBounds (admits : plan.Admits x) (planned : ofChecks checks = .ok plan)
    (finite : x.isFinite = true) : meetsBounds checks x = true := by
  refine List.all_eq_true.mpr fun check among => ?_
  obtain ⟨member, bound⟩ := List.mem_filter.mp among
  have covered := (covers_ofChecks planned).2 check member
  cases check with
  | min bound inclusive =>
    obtain ⟨lo, lower, holds⟩ := covered
    exact holds x finite (admits.lo lo lower)
  | max bound inclusive =>
    obtain ⟨hi, upper, holds⟩ := covered
    exact holds x finite (admits.hi hi upper)
  | _ => cases bound

/-- Bounds with a number between them are not crossed. -/
theorem Admits.crossed?_eq_none (admits : plan.Admits x) : plan.crossed? = none := by
  rw [crossed?]
  split
  · rename_i lo hi lower upper
    have ends := float_le_trans (admits.lo lo lower) (admits.hi hi upper)
    obtain ⟨number_lo, number_hi⟩ := number_of_le ends
    rw [if_neg ((float_not_lt_iff number_hi number_lo).mpr ends)]
  · rfl

/-- Numbers of one value meet the same bounds. -/
theorem meetsBounds_congr (number_x : x.isNaN = false) (number_y : y.isNaN = false)
    (same : value x = value y) : meetsBounds checks x = meetsBounds checks y := by
  simp only [meetsBounds, NumberCheck.holds_eq_of_value_eq _ number_x number_y same]

/-! ### Integers and multiples -/

/-- A plan asks for integers and for multiples only if the checks do. -/
theorem asked_ofChecks (h : ofChecks checks = .ok plan) :
    (plan.integral = true → .integral ∈ checks) ∧
      ∀ step ∈ plan.steps, .multipleOf step ∈ checks := by
  refine foldlM_induction
    (motive := fun seen plan => (plan.integral = true → .integral ∈ seen) ∧
      ∀ step ∈ plan.steps, .multipleOf step ∈ seen)
    ⟨Bool.noConfusion, nofun⟩ (fun seen plan check next given added => ?_) h
  -- Whatever the check, the plan asked for no more before, nor do the checks ask for less.
  have kept : (plan.integral = true → .integral ∈ seen ++ [check]) ∧
      ∀ step ∈ plan.steps, .multipleOf step ∈ seen ++ [check] :=
    ⟨fun asked => List.mem_append_left _ (given.1 asked),
      fun step member => List.mem_append_left _ (given.2 step member)⟩
  cases check with
  | min bound inclusive =>
    obtain ⟨-, rfl⟩ := add_min added
    exact kept
  | max bound inclusive =>
    obtain ⟨-, rfl⟩ := add_max added
    exact kept
  | integral =>
    cases added
    exact ⟨fun _ => List.mem_append_right _ (List.mem_singleton_self _), kept.2⟩
  | finite =>
    cases added
    exact kept
  | multipleOf other =>
    cases added
    refine ⟨kept.1, fun step member => ?_⟩
    rcases List.mem_append.mp member with member | member
    · exact kept.2 step member
    · rw [List.mem_singleton.mp member]
      exact List.mem_append_right _ (List.mem_singleton_self _)

/-- The plan of checks without integers and multiples is free. -/
theorem free_ofChecks (h : ofChecks checks = .ok plan) (fractional : .integral ∉ checks)
    (unstepped : ∀ step, .multipleOf step ∉ checks) : plan.Free := by
  obtain ⟨integral, steps⟩ := asked_ofChecks h
  refine ⟨Bool.eq_false_iff.mpr fun asked => fractional (integral asked), ?_⟩
  exact List.eq_nil_iff_forall_not_mem.mpr fun step member => unstepped step (steps step member)

end NumberPlan

/-! ### Compiling -/

section Compiling

variable {config : Config} {resolver : Resolver} {cell : Cell} {path : Path} {id : SchemaId}

/-- What compiling a number schema comes to is decided by its candidates. -/
theorem compileInput_number (free : resolver id = none) :
    (compileInput config resolver (.node id (.number checks)) cell path).outcome =
      match numberCandidate checks with
      | .ok (c, _) => .ok (config.settle cell path (.node id (.number checks)) c)
      | .error reason => .error (.failed (.invalid path reason)) := by
  rw [compileInput_free free]
  show (Compiled.bind _ _).outcome = _
  rcases candidates : numberCandidate checks with reason | ⟨c, _ | m⟩ <;>
    simp only [compileShape, candidates] <;> rfl

end Compiling

end SchemaSampler
