import SchemaSampler.Proofs.Binary64.Accuracy
import SchemaSampler.Proofs.Parse.Outcome
import SchemaSampler.Proofs.Schema.NumberCheck

namespace SchemaSampler

open Binary64

/-!
# Multiples of integers — how much the tolerance lets pass

The quotient of a number by a step is compared with the nearest integer up to a billionth of its
size.  For integers `X` and `T` this compares the distance `offset X T` of `X` from the nearest
multiple of `T` with a billionth of `max |X| |T|`, up to the errors of four roundings, which are
far smaller (`isMultiple_of_near`, `not_isMultiple_of_far`).  Up to `999 999 750` in size no
integer is found to be a multiple that is none; beyond `10 ^ 9` some are.
-/

namespace Multiple

/-! ### The distance to the nearest multiple -/

/-- The distance of an integer from the nearest multiple of another one. -/
def offset (X T : ℤ) : ℤ := min (X % T) (|T| - X % T)

variable {X T : ℤ}

/-- A remainder lies between zero and the size of the step. -/
theorem mod_bounds (nonzero : T ≠ 0) (X : ℤ) : 0 ≤ X % T ∧ X % T < |T| :=
  ⟨Int.emod_nonneg X nonzero, Int.emod_lt_abs X nonzero⟩

/-- An offset is a distance. -/
theorem offset_nonneg (nonzero : T ≠ 0) (X : ℤ) : 0 ≤ offset X T := by
  have := mod_bounds nonzero X
  rw [offset]
  omega

/-- No multiple is closer. -/
theorem offset_le (nonzero : T ≠ 0) (X k : ℤ) : offset X T ≤ |X - k * T| := by
  obtain ⟨low, high⟩ := mod_bounds nonzero X
  have parts : X - k * T = T * (X / T - k) + X % T := by
    have := Int.mul_ediv_add_emod X T
    linarith
  rw [parts, offset]
  rcases eq_or_ne (X / T - k) 0 with zero | apart
  · rw [zero, mul_zero, zero_add, abs_of_nonneg low]
    exact min_le_left _ _
  · -- Another multiple is at least one whole step away from the one below.
    have far : |T| ≤ |T * (X / T - k)| := by
      rw [abs_mul]
      exact le_mul_of_one_le_right (abs_nonneg T) (Int.one_le_abs apart)
    generalize T * (X / T - k) = p at far
    have back := abs_sub_le (p + X % T) 0 (X % T)
    rw [sub_zero, zero_sub, abs_neg, add_sub_cancel_right, abs_of_nonneg low] at back
    exact (min_le_right _ _).trans (by linarith)

/-- Some multiple is as close. -/
theorem exists_offset (nonzero : T ≠ 0) (X : ℤ) : ∃ k : ℤ, |X - k * T| = offset X T := by
  obtain ⟨low, high⟩ := mod_bounds nonzero X
  have parts := Int.mul_ediv_add_emod X T
  -- One of the two multiples around `X` is the nearest.
  by_cases below : X % T ≤ |T| - X % T
  · refine ⟨X / T, ?_⟩
    rw [offset, min_eq_left below, show X - X / T * T = X % T by linarith, abs_of_nonneg low]
  · -- The next multiple up is closer than the one below.
    refine ⟨X / T + T.sign, ?_⟩
    have step : T.sign * T = |T| := Int.sign_mul_self_eq_abs T
    rw [offset, min_eq_right (not_le.mp below).le,
      show X - (X / T + T.sign) * T = -(|T| - X % T) by linarith, abs_neg,
      abs_of_nonneg (by omega)]

/-- Multiples are those integers that are no distance away from one. -/
theorem offset_eq_zero_iff (nonzero : T ≠ 0) : offset X T = 0 ↔ T ∣ X := by
  have := mod_bounds nonzero X
  rw [offset, Int.dvd_iff_emod_eq_zero]
  omega

/-! ### The rounded quotient -/

/-- An integral number and an integral step, both of at most 53 bits. -/
structure Integers (x step : Float) (X T : ℤ) : Prop where
  finite : x.isFinite = true
  value_eq : value x = X
  small : X.natAbs ≤ 2 ^ 53
  finite_step : step.isFinite = true
  step_eq : value step = T
  small_step : T.natAbs ≤ 2 ^ 53
  nonzero : T ≠ 0

/-- The larger of two integers by size. -/
def size (X T : ℤ) : ℤ := max |X| |T|

section Quotient

variable {x step : Float} (h : Integers x step X T)
include h

/-- A step is at least one and within the exact integers. -/
theorem Integers.abs_step_bounds : (1 : ℚ) ≤ |(T : ℚ)| ∧ |(T : ℚ)| ≤ 2 ^ 53 := by
  have low : 1 ≤ |T| := Int.one_le_abs h.nonzero
  have small := h.small_step
  have high : |T| ≤ 2 ^ 53 := abs_le.mpr ⟨by omega, by omega⟩
  exact ⟨by exact_mod_cast low, by exact_mod_cast high⟩

/-- The number is within the exact integers, too. -/
theorem Integers.abs_number_le : |(X : ℚ)| ≤ 2 ^ 53 := by
  have small := h.small
  have high : |X| ≤ 2 ^ 53 := abs_le.mpr ⟨by omega, by omega⟩
  exact_mod_cast high

/-- So their quotient is no larger than the number. -/
theorem Integers.abs_quotient_le : |(X : ℚ) / T| ≤ 2 ^ 53 := by
  obtain ⟨low, -⟩ := h.abs_step_bounds
  rw [abs_div]
  exact (div_le_self (abs_nonneg _) low).trans h.abs_number_le

/-- The quotient of the floats is the rounded quotient. -/
theorem Integers.rounds : Rounds ((X : ℚ) / T) (x / step) := by
  have nonzero : value step ≠ 0 := by
    rw [h.step_eq]
    exact_mod_cast h.nonzero
  have rounded := rounds_div h.finite h.finite_step nonzero
  rwa [h.value_eq, h.step_eq] at rounded

/-- The quotient is rounded by a small part of it. -/
theorem Integers.near_quotient :
    |value (x / step) - X / T| ≤ |(X : ℚ) / T| * roundoff := by
  obtain ⟨low, high⟩ := h.abs_step_bounds
  -- The error bound needs a quotient of moderate size, which that of zero is not.
  by_cases zero : X = 0
  · have exact_zero : (X : ℚ) / T = 0 := by rw [zero, Int.cast_zero, zero_div]
    have rounded := h.rounds
    rw [exact_zero] at rounded ⊢
    rw [rounded.value_eq number_literal_zero value_literal_zero]
    simp
  · have whole : (1 : ℚ) ≤ |(X : ℚ)| := by exact_mod_cast Int.one_le_abs zero
    refine h.rounds.near ?_ (h.abs_quotient_le.trans (by norm_num))
    calc (2 : ℚ) ^ (-200 : ℤ) ≤ 1 / 2 ^ 53 := by norm_num
      _ ≤ |(X : ℚ)| / |(T : ℚ)| := div_le_div₀ (abs_nonneg _) whole (by linarith) high
      _ = |(X : ℚ) / T| := (abs_div _ _).symm

/-- Rounding at most doubles the bound. -/
theorem Integers.abs_value_quotient_le : |value (x / step)| ≤ 2 ^ 54 := by
  have near := h.near_quotient
  have bound := h.abs_quotient_le
  have triangle := abs_sub_le (value (x / step)) (X / T) 0
  rw [sub_zero, sub_zero] at triangle
  have small : |(X : ℚ) / T| * roundoff ≤ 2 := by
    rw [roundoff]
    calc |(X : ℚ) / T| * 2 ^ (-52 : ℤ) ≤ 2 ^ 53 * 2 ^ (-52 : ℤ) := by gcongr
      _ ≤ _ := by norm_num
  linarith

/-- So the quotient of the floats is finite. -/
theorem Integers.isFinite_quotient : (x / step).isFinite = true := by
  have large : (2 : ℚ) ^ (54 : ℤ) < limit := zpow_lt_zpow_right₀ (by norm_num) (by norm_num)
  rw [isFinite_iff h.rounds.number]
  exact lt_of_le_of_lt h.abs_value_quotient_le (by exact_mod_cast large)

/-! ### The distance from an integer -/

/-- The larger one of a number and a step, in steps. -/
theorem Integers.max_quotient : max |(X : ℚ) / T| 1 = size X T / |(T : ℚ)| := by
  have positive : 0 < |(T : ℚ)| := by linarith [h.abs_step_bounds.1]
  rw [size, abs_div, ← div_self positive.ne', max_div_div_right positive.le]
  push_cast
  rfl

/-- The size of a quotient counts as one at least. -/
theorem Integers.size_pos : 1 ≤ (size X T : ℚ) / |(T : ℚ)| := by
  rw [← h.max_quotient]
  exact le_max_right _ _

/-- The error of the quotient is bounded by its size. -/
theorem Integers.quotient_le_size : |(X : ℚ) / T| * roundoff ≤ size X T / |(T : ℚ)| * roundoff := by
  rw [← h.max_quotient]
  exact mul_le_mul_of_nonneg_right (le_max_left _ _) roundoff_pos.le

/-- The quotient is as far from an integer as the number is from a multiple of the step, up to the
    error of the division. -/
theorem Integers.near_distance :
    |(|value (x / step) - nearestInt (value (x / step))| - offset X T / |(T : ℚ)|)| ≤
      size X T / |(T : ℚ)| * roundoff := by
  have near := h.near_quotient.trans h.quotient_le_size
  have positive : 0 < |(T : ℚ)| := by linarith [h.abs_step_bounds.1]
  have apart (k : ℤ) : |(X : ℚ) / T - k| = |((X - k * T : ℤ) : ℚ)| / |(T : ℚ)| := by
    have nonzero : (T : ℚ) ≠ 0 := by exact_mod_cast h.nonzero
    rw [← abs_div]
    push_cast
    congr 1
    field_simp
  rw [abs_le]
  constructor
  · -- The integer that is nearest to the computed quotient is not closer to the exact one.
    have least : offset X T / |(T : ℚ)| ≤ |(X : ℚ) / T - nearestInt (value (x / step))| := by
      rw [apart]
      have := offset_le h.nonzero X (nearestInt (value (x / step)))
      exact div_le_div_of_nonneg_right (by exact_mod_cast this) positive.le
    have triangle := abs_sub_le ((X : ℚ) / T) (value (x / step)) (nearestInt (value (x / step)))
    rw [abs_sub_comm ((X : ℚ) / T) (value (x / step))] at triangle
    linarith
  · -- The integer that is nearest to the exact quotient is not closer to the computed one.
    obtain ⟨k, closest⟩ := exists_offset h.nonzero X
    have reached : |(X : ℚ) / T - k| = offset X T / |(T : ℚ)| := by
      rw [apart, ← closest]
      push_cast
      rfl
    have nearest := nearestInt_le (value (x / step)) k
    have triangle := abs_sub_le (value (x / step)) ((X : ℚ) / T) k
    linarith

/-- The distance to the nearest integer is rounded once more. -/
theorem Integers.rounds_difference :
    Rounds (value (x / step) - nearestInt (value (x / step))) (x / step - nearest (x / step)) := by
  obtain ⟨number, same⟩ := value_nearest h.isFinite_quotient
  have finite : (nearest (x / step)).isFinite = true := by
    have large : (2 : ℚ) ^ (55 : ℤ) < limit := zpow_lt_zpow_right₀ (by norm_num) (by norm_num)
    have half := abs_sub_nearestInt_le (value (x / step))
    have bound := h.abs_value_quotient_le
    have triangle := abs_sub_le ((nearestInt (value (x / step)) : ℤ) : ℚ) (value (x / step)) 0
    rw [sub_zero, sub_zero, abs_sub_comm] at triangle
    rw [isFinite_iff number, same]
    refine lt_of_le_of_lt triangle (lt_of_le_of_lt ?_ large)
    norm_num at bound ⊢
    linarith
  have rounded := rounds_sub h.isFinite_quotient finite
  rwa [same] at rounded

/-! ### The tolerance -/

/-- The size that the test computes is close to the exact one. -/
theorem Integers.near_size :
    |(max |value (x / step)| 1 - size X T / |(T : ℚ)|)| ≤ size X T / |(T : ℚ)| * roundoff := by
  calc |(max |value (x / step)| 1 - size X T / |(T : ℚ)|)|
      = |(max |value (x / step)| 1 - max |(X : ℚ) / T| 1)| := by rw [h.max_quotient]
    _ ≤ |(|value (x / step)| - |(X : ℚ) / T|)| := abs_max_sub_max_le_abs _ _ _
    _ ≤ |value (x / step) - X / T| := abs_abs_sub_abs_le _ _
    _ ≤ |(X : ℚ) / T| * roundoff := h.near_quotient
    _ ≤ size X T / |(T : ℚ)| * roundoff := h.quotient_le_size

omit h in
/-- The exact value of the tolerance. -/
theorem value_billionth : value 1e-9 = 4835703278458517 * 2 ^ (-82 : ℤ) := by
  have written : form 1e-9 = .finite .positive 4835703278458517 (-82) (by decide) := by rfl
  rw [value, written, formValue_finite_positive]
  norm_num

omit h in
/-- The tolerance is positive. -/
theorem billionth_pos : 0 < value 1e-9 := by
  rw [value_billionth]
  positivity

/-- The size that the test computes is that of the quotient, or one. -/
theorem Integers.value_size : value (larger (x / step).abs 1) = max |value (x / step)| 1 := by
  have number : (x / step).abs.isNaN = false := (isNaN_abs _).trans h.rounds.number
  rw [value_larger number rfl, value_abs, value_literal_one]

/-- The tolerance is scaled by the size and rounded. -/
theorem Integers.rounds_tolerance :
    Rounds (value 1e-9 * max |value (x / step)| 1) (1e-9 * larger (x / step).abs 1) := by
  have number : (x / step).abs.isNaN = false := (isNaN_abs _).trans h.rounds.number
  have finite : (larger (x / step).abs 1).isFinite = true := by
    have large : (2 : ℚ) ^ (54 : ℤ) < limit := zpow_lt_zpow_right₀ (by norm_num) (by norm_num)
    rw [isFinite_iff (isNaN_larger number rfl), h.value_size, abs_of_nonneg (by positivity)]
    exact lt_of_le_of_lt (max_le h.abs_value_quotient_le (by norm_num)) (by exact_mod_cast large)
  have rounded := rounds_mul (x := 1e-9) rfl finite
  rwa [h.value_size] at rounded

/-- The scaled tolerance is close to the exact one. -/
theorem Integers.near_tolerance :
    |value (1e-9 * larger (x / step).abs 1) - value 1e-9 * max |value (x / step)| 1| ≤
      value 1e-9 * max |value (x / step)| 1 * roundoff := by
  have low : 1 ≤ max |value (x / step)| 1 := le_max_right _ _
  have high : max |value (x / step)| 1 ≤ 2 ^ 54 := max_le h.abs_value_quotient_le (by norm_num)
  have nonneg : 0 ≤ value 1e-9 * max |value (x / step)| 1 :=
    mul_nonneg billionth_pos.le (by linarith)
  have near := h.rounds_tolerance.near
  rw [abs_of_nonneg nonneg] at near
  refine near ?_ ?_
  · calc (2 : ℚ) ^ (-200 : ℤ) ≤ value 1e-9 * 1 := by rw [value_billionth]; norm_num
      _ ≤ _ := mul_le_mul_of_nonneg_left low billionth_pos.le
  · calc value 1e-9 * max |value (x / step)| 1 ≤ value 1e-9 * 2 ^ 54 :=
          mul_le_mul_of_nonneg_left high billionth_pos.le
      _ ≤ _ := by rw [value_billionth]; norm_num

/-- What the test compares: the distance of the quotient from an integer and the tolerance. -/
theorem Integers.isMultiple_iff : NumberCheck.isMultiple x step = true ↔
    |value (x / step - nearest (x / step))| ≤ value (1e-9 * larger (x / step).abs 1) := by
  have not_zero : (step == 0) = false := by
    rw [Bool.eq_false_iff]
    intro zero
    rw [beq_iff (number_of_isFinite h.finite_step) number_literal_zero, value_literal_zero,
      h.step_eq] at zero
    exact h.nonzero (by exact_mod_cast zero)
  rw [NumberCheck.isMultiple, not_zero, h.finite]
  simp only [Bool.not_true, Bool.or_false, Bool.false_eq_true, if_false, h.isFinite_quotient,
    decide_eq_true_eq]
  rw [le_iff ((isNaN_abs _).trans h.rounds_difference.number) h.rounds_tolerance.number, value_abs]

/-! ### Near and far -/

/-- An integer that is close to a multiple in proportion to its size is found to be one. -/
theorem isMultiple_of_near (near : offset X T * (10 ^ 9 + 250) ≤ size X T) :
    NumberCheck.isMultiple x step = true := by
  have positive : 0 < |(T : ℚ)| := by linarith [h.abs_step_bounds.1]
  have close : (offset X T : ℚ) / |(T : ℚ)| * (10 ^ 9 + 250) ≤ size X T / |(T : ℚ)| := by
    rw [div_mul_eq_mul_div]
    exact div_le_div_of_nonneg_right (by exact_mod_cast near) positive.le
  have large := h.size_pos
  -- In steps: how much farther than `offset` the test sees `X`, and how much less it tolerates.
  obtain ⟨-, distance⟩ := abs_le.mp h.near_distance
  obtain ⟨sized, -⟩ := abs_le.mp h.near_size
  obtain ⟨tolerance, -⟩ := abs_le.mp h.near_tolerance
  rw [h.isMultiple_iff]
  -- The tolerance is a number, so that rounding cannot carry the distance beyond it.
  refine h.rounds_difference.abs_value_le h.rounds_tolerance.number ?_
  rw [value_billionth] at tolerance
  rw [roundoff] at distance sized tolerance
  norm_num at close distance sized tolerance ⊢
  linarith

/-- An integer that is far from all multiples in proportion to its size is not found to be one. -/
theorem not_isMultiple_of_far (far : size X T ≤ offset X T * (10 ^ 9 - 250)) :
    NumberCheck.isMultiple x step = false := by
  have positive : 0 < |(T : ℚ)| := by linarith [h.abs_step_bounds.1]
  have apart : size X T / |(T : ℚ)| ≤ (offset X T : ℚ) / |(T : ℚ)| * (10 ^ 9 - 250) := by
    rw [div_mul_eq_mul_div]
    exact div_le_div_of_nonneg_right (by exact_mod_cast far) positive.le
  have large := h.size_pos
  -- In steps: how much closer than `offset` the test sees `X`, and how much more it tolerates.
  obtain ⟨distance, -⟩ := abs_le.mp h.near_distance
  obtain ⟨-, sized⟩ := abs_le.mp h.near_size
  obtain ⟨-, tolerance⟩ := abs_le.mp h.near_tolerance
  rw [value_billionth] at tolerance
  rw [roundoff] at distance sized tolerance
  generalize max |value (x / step)| 1 = L at sized tolerance
  generalize hr : value (x / step) - nearestInt (value (x / step)) = r at distance
  have rounded := h.rounds_difference
  rw [hr] at rounded
  have half : |r| ≤ 1 / 2 := hr ▸ abs_sub_nearestInt_le (value (x / step))
  have least : (2 : ℚ) ^ (-200 : ℤ) ≤ |r| := by
    norm_num at apart distance ⊢
    linarith
  -- The distance is of moderate size, so that it is not rounded by much either.
  have near := rounded.near least (half.trans (by norm_num))
  have kept := abs_sub_abs_le_abs_sub r (value (x / step - nearest (x / step)))
  rw [abs_sub_comm] at kept
  rw [Bool.eq_false_iff, ne_eq, h.isMultiple_iff, not_le]
  rw [roundoff] at near
  generalize value (x / step - nearest (x / step)) = d at near kept
  generalize value (1e-9 * larger (x / step).abs 1) = t at tolerance
  norm_num at apart distance sized tolerance near ⊢
  linarith

end Quotient

/-- Integers up to `2 ^ 53` are floats of their values. -/
theorem integers_ofInt (small : X.natAbs ≤ 2 ^ 53) (small_step : T.natAbs ≤ 2 ^ 53)
    (nonzero : T ≠ 0) : Integers (ofInt X) (ofInt T) X T where
  finite := isFinite_of_small (rounds_ofInt X).number (value_ofInt small) small
  value_eq := value_ofInt small
  small := small
  finite_step := isFinite_of_small (rounds_ofInt T).number (value_ofInt small_step) small_step
  step_eq := value_ofInt small_step
  small_step := small_step
  nonzero := nonzero

end Multiple

/-! ### Schemas -/

namespace Schema

open Binary64 Multiple

/-- The schema of the multiples of a number. -/
def ofMultiples (id : SchemaId) (step : Float) : Schema := .node id (.number [.multipleOf step])

/-- What the schema of multiples says to a number of which the test says that it is one, or not. -/
theorem parse_ofMultiples (definitions : Definitions) (depth : Nat) (site : Site) (id : SchemaId)
    {x : Float} (number : x.isNaN = false) (step : Float) :
    (ofMultiples id step).parse definitions (depth + 1) site (.number x) =
      some (if NumberCheck.isMultiple x step then .ok (.number x)
        else .error ⟨⟨site.path, .notMultiple step⟩, []⟩) := by
  have violation : (NumberCheck.multipleOf step).violation? x =
      if NumberCheck.isMultiple x step then none else some (.notMultiple step) := rfl
  rw [parse, parseWithin, ofMultiples, shape_node, Shape.step]
  simp only [number, Bool.false_eq_true, if_false, List.filterMap_cons, violation]
  cases NumberCheck.isMultiple x step <;> rfl

/-- **Multiples of integers, up to a billionth.**  With the check for multiples of an integer, an
    integer is accepted when it is one, or is off by at most a billionth of the larger of the two;
    it is refused when it is off by more.  Up to `999 999 750` in size, where less than one is a
    billionth, it is accepted exactly if the step divides it. -/
theorem parse_multipleOf (definitions : Definitions) (depth : Nat) (site : Site) (id : SchemaId)
    {x step : Float} {X T : ℤ} (h : Integers x step X T) :
    let outcome := (ofMultiples id step).parse definitions (depth + 1) site (.number x)
    let refusal : ParseError := ⟨⟨site.path, .notMultiple step⟩, []⟩
    (T ∣ X → outcome = some (.ok (.number x))) ∧
      (offset X T * (10 ^ 9 + 250) ≤ size X T → outcome = some (.ok (.number x))) ∧
      (size X T ≤ offset X T * (10 ^ 9 - 250) → outcome = some (.error refusal)) ∧
      (size X T ≤ 999999750 → ¬ T ∣ X → outcome = some (.error refusal)) := by
  intro outcome refusal
  have size_nonneg : 0 ≤ size X T := (abs_nonneg X).trans (le_max_left _ _)
  have answer : outcome = some (if NumberCheck.isMultiple x step then .ok (.number x)
      else .error refusal) :=
    parse_ofMultiples definitions depth site id (number_of_isFinite h.finite) step
  have near (close : offset X T * (10 ^ 9 + 250) ≤ size X T) :
      outcome = some (.ok (.number x)) := by
    rw [answer, isMultiple_of_near h close, if_pos rfl]
  have far (apart : size X T ≤ offset X T * (10 ^ 9 - 250)) : outcome = some (.error refusal) := by
    rw [answer, not_isMultiple_of_far h apart, if_neg Bool.false_ne_true]
  refine ⟨fun divides => near ?_, near, far, fun small divides => far ?_⟩
  · rw [(offset_eq_zero_iff h.nonzero).mpr divides, zero_mul]
    exact size_nonneg
  · -- What is no multiple is off by one at least.
    have nonneg := offset_nonneg h.nonzero X
    have nonzero : offset X T ≠ 0 := fun zero => divides ((offset_eq_zero_iff h.nonzero).mp zero)
    omega

/-- Nine is refused as a multiple of six. -/
theorem parse_multipleOf_nine :
    (ofMultiples 0 (ofInt 6)).parse (fun _ => none) 1 [] (.number (ofInt 9)) =
      some (.error ⟨⟨[], .notMultiple (ofInt 6)⟩, []⟩) := by
  have integers : Integers (ofInt 9) (ofInt 6) 9 6 :=
    integers_ofInt (by decide) (by decide) (by decide)
  obtain ⟨-, -, -, refused⟩ := parse_multipleOf (fun _ => none) 0 [] 0 integers
  exact refused (by decide) (by decide)

/-- Two billion and one is accepted as a multiple of two, which does not divide it. -/
theorem exists_accepted_not_divided :
    Integers (ofInt 2000000001) (ofInt 2) 2000000001 2 ∧
      (ofMultiples 0 (ofInt 2)).parse (fun _ => none) 1 [] (.number (ofInt 2000000001)) =
        some (.ok (.number (ofInt 2000000001))) ∧
      ¬ (2 : ℤ) ∣ 2000000001 := by
  have integers : Integers (ofInt 2000000001) (ofInt 2) 2000000001 2 :=
    integers_ofInt (by decide) (by decide) (by decide)
  refine ⟨integers, ?_, by decide⟩
  rw [parse_ofMultiples _ 0 _ _ (number_of_isFinite integers.finite),
    isMultiple_of_near integers (by decide), if_pos rfl]

end Schema

end SchemaSampler
