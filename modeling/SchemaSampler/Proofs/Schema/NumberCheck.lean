import SchemaSampler.Proofs.Binary64.Equal
import SchemaSampler.Schema.Check

namespace SchemaSampler.NumberCheck

open Binary64
open Float.Model.UnpackedFloat (Sign)

/-!
# Checks of numbers — what they depend on

* `min_holds_of_le`, `max_holds_of_le` — a bound that a number meets is met by those further in.
* `isMultiple_of_value` — an exact multiple is found to be one.
* `violation?_eq_of_same` — no check tells equal numbers apart.
-/

variable {x y : Float}

/-! ### Bounds -/

/-- A lower bound that a number meets is met by the numbers above it. -/
theorem min_holds_of_le {bound : Float} {inclusive : Bool} (h : x ≤ y)
    (holds : (min bound inclusive).holds x = true) :
    (min bound inclusive).holds y = true := by
  cases inclusive with
  | true => exact decide_eq_true (float_le_trans (of_decide_eq_true holds) h)
  | false => exact decide_eq_true (float_lt_of_lt_of_le (of_decide_eq_true holds) h)

theorem max_holds_of_le {bound : Float} {inclusive : Bool} (h : x ≤ y)
    (holds : (max bound inclusive).holds y = true) :
    (max bound inclusive).holds x = true := by
  cases inclusive with
  | true => exact decide_eq_true (float_le_trans h (of_decide_eq_true holds))
  | false => exact decide_eq_true (float_lt_of_le_of_lt h (of_decide_eq_true holds))

/-! ### Multiples -/

/-- A multiple of a step by an integer, where both are represented, is found to be one. -/
theorem isMultiple_of_value {step : Float} {T : ℤ} (finiteStep : step.isFinite = true)
    (stepValue : value step = T) (nonzero : T ≠ 0) (finite : x.isFinite = true) {k : ℤ}
    (small : k.natAbs ≤ 2 ^ 53) (same : value x = ((k * T : ℤ) : ℚ)) :
    isMultiple x step = true := by
  have nonzero' : (T : ℚ) ≠ 0 := by exact_mod_cast nonzero
  have numberStep := number_of_isFinite finiteStep
  have not_zero : (step == 0) = false := by
    rw [Bool.eq_false_iff]
    intro zero
    rw [beq_iff numberStep number_literal_zero, value_literal_zero, stepValue] at zero
    exact nonzero' zero
  have rounds := rounds_div finite finiteStep (by rwa [stepValue])
  rw [same, stepValue, Int.cast_mul, mul_div_cancel_right₀ _ nonzero'] at rounds
  have quotient := rounds.value_eq (rounds_ofInt k).number (value_ofInt small)
  have finite_quotient := isFinite_of_small rounds.number quotient small
  obtain ⟨number_nearest, value_nearest⟩ := value_nearest finite_quotient
  rw [quotient, nearestInt_intCast] at value_nearest
  have finite_nearest := isFinite_of_small number_nearest value_nearest small
  -- Quotient and nearest integer do not differ, and the tolerance is not negative.
  have difference := rounds_sub finite_quotient finite_nearest
  rw [quotient, value_nearest, sub_self] at difference
  have none_between := difference.value_eq number_literal_zero value_literal_zero
  have finite_size : (larger (x / step).abs 1).isFinite = true := by
    rcases larger_cases (x / step).abs 1 with h | h <;> rw [h]
    · show (form (x / step).abs).isFinite = true
      rw [form_abs]
      rcases form_finite finite_quotient with ⟨t, ft⟩ | ⟨t, n, f, hn, ft⟩ <;> rw [ft] <;> rfl
    · rfl
  have size_nonneg : 0 ≤ value (larger (x / step).abs 1) := by
    rcases larger_cases (x / step).abs 1 with h | h <;> rw [h]
    · rw [value_abs]
      exact abs_nonneg _
    · rw [value_literal_one]
      exact zero_le_one
  have finite_tolerance : (1e-9 : Float).isFinite = true := rfl
  have tolerance_nonneg : 0 ≤ value 1e-9 := by
    have := (le_iff number_literal_zero (number_of_isFinite finite_tolerance)).mp (by decide)
    rwa [value_literal_zero] at this
  have tolerance := rounds_mul finite_tolerance finite_size
  have nonneg := tolerance.ge 0 number_literal_zero (by
    rw [value_literal_zero]
    exact mul_nonneg tolerance_nonneg size_nonneg)
  rw [value_literal_zero] at nonneg
  rw [isMultiple, not_zero, finite]
  simp only [Bool.not_true, Bool.or_false, Bool.false_eq_true, if_false, finite_quotient]
  refine decide_eq_true ?_
  rw [le_iff ((isNaN_abs _).trans difference.number) tolerance.number, value_abs, none_between,
    abs_zero]
  exact nonneg

/-- A zero is a multiple of every number but zero. -/
theorem isMultiple_of_zero {s : Sign} (hx : form x = .zero s) (step : Float) :
    isMultiple x step = (!(step == 0) && !step.isNaN) := by
  have finite : x.isFinite = true := by
    show (form x).isFinite = true
    rw [hx]
    rfl
  have tolerated (t : Sign) : (ofForm (.zero t) - nearest (ofForm (.zero t))).abs ≤
      1e-9 * larger (ofForm (.zero t)).abs 1 := by
    cases t <;> decide
  cases zero : step == 0 with
  | true => simp [isMultiple, zero]
  | false =>
    cases nan : step.isNaN with
    | true => simp [isMultiple, zero, finite, div_of_nan hx nan]
    | false =>
      obtain ⟨t, quotient⟩ := div_of_zero hx nan zero
      have finite_quotient : (ofForm (.zero t)).isFinite = true := by cases t <;> rfl
      simp only [isMultiple, zero, finite, quotient, finite_quotient, Bool.not_true, Bool.or_self,
        Bool.false_eq_true, if_false]
      exact decide_eq_true (tolerated t)

/-! ### Equal numbers -/

/-- No check tells numbers of one value apart. -/
theorem holds_eq_of_value_eq (check : NumberCheck) (hx : x.isNaN = false) (hy : y.isNaN = false)
    (h : value x = value y) : check.holds x = check.holds y := by
  have upward : x ≤ y := (le_iff hx hy).mpr h.le
  have downward : y ≤ x := (le_iff hy hx).mpr h.ge
  have finite : x.isFinite = y.isFinite := by
    rw [Bool.eq_iff_iff, isFinite_iff hx, isFinite_iff hy, h]
  rw [Bool.eq_iff_iff]
  cases check with
  | min bound inclusive => exact ⟨min_holds_of_le upward, min_holds_of_le downward⟩
  | max bound inclusive => exact ⟨max_holds_of_le downward, max_holds_of_le upward⟩
  | integral =>
    have whole : x.isFinite = true → (isIntegral x = true ↔ isIntegral y = true) := by
      intro hf
      rw [isIntegral_iff hf, isIntegral_iff (finite ▸ hf), h]
    exact ⟨fun hi => (whole (isFinite_of_isIntegral hi)).mp hi,
      fun hi => (whole (finite.trans (isFinite_of_isIntegral hi))).mpr hi⟩
  | multipleOf step =>
    -- Division tells the two zeros apart, so that here the value alone does not suffice.
    show isMultiple x step = true ↔ isMultiple y step = true
    rcases eq_or_zeros_of_value_eq hx hy h with rfl | ⟨s, t, zeroX, zeroY⟩
    · rfl
    · rw [isMultiple_of_zero zeroX, isMultiple_of_zero zeroY]
  | finite =>
    show x.isFinite = true ↔ y.isFinite = true
    rw [finite]

/-- No check tells equal numbers apart. -/
theorem violation?_eq_of_same (check : NumberCheck) (number : x.isNaN = false)
    (h : same x y = true) : check.violation? x = check.violation? y := by
  obtain ⟨alike, value_eq⟩ := same_iff.mp h
  rw [violation?, violation?, holds_eq_of_value_eq check number (alike ▸ number) value_eq]

end SchemaSampler.NumberCheck
