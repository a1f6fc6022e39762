import SchemaSampler.Proofs.Binary64.Adjacent
import SchemaSampler.Proofs.Binary64.Integral
import SchemaSampler.Strategy.Breaker

namespace SchemaSampler

/-!
# Breakers — which tallies trip them

* `Breaker.not_tripped_of_full` — a tally without rejections trips no breaker that asks for a rate
  of at most one.
* `Breaker.tripped_without_successes` — a tally without acceptances trips a breaker that asks for a
  positive rate as soon as it may trip.
* `Breaker.exists_tripped` — with a positive rate any number of acceptances is too low some time.
* `Breaker.not_tripped_of_zero` — with the rate zero none ever is.
-/

open Binary64
open Float.Model (UnpackedFloat)
open Float.Model.UnpackedFloat (Sign)

namespace Binary64

variable {r y : Float}

/-- The product of an infinity and a finite number is an infinity, unless the number is zero. -/
theorem Infinite.mul_eq (h : Infinite r) (finite : y.isFinite = true)
    (number : (r * y).isNaN = false) :
    ∃ t, 0 < unit t * value y ∧ value (r * y) = unit t * value r := by
  obtain ⟨s, hr⟩ := h
  have product : r * y = ofForm (UnpackedFloat.mul format (form r) (form y)) := rfl
  rcases form_finite finite with ⟨t, hy⟩ | ⟨t, m, e, positive, hy⟩
  · have undefined : form (r * y) = .notANumber := by
      rw [product, hr, hy]
      exact form_ofForm trivial
    exact absurd undefined (isNaN_eq_false_iff.mp number)
  · have infinite : form (r * y) = .infinity (s * t) := by
      rw [product, hr, hy]
      exact form_ofForm trivial
    refine ⟨t, ?_, ?_⟩
    · have magnitude : (0 : ℚ) < m * 2 ^ e := magnitude_pos e positive
      have same : unit t * value y = m * 2 ^ e := by
        rw [value, hy, formValue, ← mul_assoc, unit_mul_self, one_mul]
      rwa [same]
    · have left : value (r * y) = unit (s * t) * limit := by rw [value, infinite, formValue]
      have right : value r = unit s * limit := by rw [value, hr, formValue]
      rw [left, right, unit_mul]
      ring

/-- A number that is not negative is not exceeded by its product with one of at most one. -/
theorem not_lt_mul (atMostOne : r ≤ 1) (nonnegative : 0 ≤ value y) : ¬ y < r * y := by
  intro exceeds
  obtain ⟨numberR, numberOne⟩ := number_of_le atMostOne
  obtain ⟨numberY, numberProduct⟩ := number_of_lt exceeds
  have small : value r ≤ 1 := by
    have := (le_iff numberR numberOne).mp atMostOne
    rwa [value_literal_one] at this
  rw [lt_iff numberY numberProduct] at exceeds
  by_cases finiteY : y.isFinite = true
  · by_cases finiteR : r.isFinite = true
    · have product : value r * value y ≤ value y := by nlinarith
      have := (rounds_mul finiteR finiteY).le y numberY product
      linarith
    · have infinite := infinite_of_not_isFinite numberR finiteR
      obtain ⟨t, sign, product⟩ := infinite.mul_eq finiteY numberProduct
      have large := infinite.abs_value
      have one_lt : (1 : ℚ) < limit := one_lt_zpow₀ (by norm_num) (by norm_num)
      have negative : value r < 0 := by
        rcases abs_cases (value r) with ⟨same, _⟩ | ⟨_, negative⟩ <;> linarith
      have plus : 0 < unit t := pos_of_mul_pos_left sign nonnegative
      have := mul_neg_of_pos_of_neg plus negative
      linarith
  · have infinite := (infinite_of_not_isFinite numberY finiteY).abs_value
    rw [abs_of_nonneg nonnegative] at infinite
    have := value_le_limit (r * y)
    linarith

/-- The form of a positive number. -/
theorem form_of_pos (positive : 0 < value y) : form y = .infinity .positive ∨
    ∃ m e h, form y = .finite .positive m e h := by
  rw [value] at positive
  cases hy : form y with
  | notANumber | zero =>
    rw [hy, formValue] at positive
    exact absurd positive (lt_irrefl 0)
  | infinity s =>
    cases s with
    | positive => exact .inl rfl
    | negative =>
      rw [hy, formValue_infinity_negative] at positive
      exact absurd positive (neg_nonpos.mpr limit_pos.le).not_gt
  | finite s m e h =>
    cases s with
    | positive => exact .inr ⟨m, e, h, rfl⟩
    | negative =>
      rw [hy, formValue_finite_negative] at positive
      exact absurd positive (neg_nonpos.mpr (magnitude_pos e h).le).not_gt

/-- A product of positive numbers is infinite if one of them is. -/
theorem form_mul_of_infinite (hr : 0 < value r) (hy : 0 < value y)
    (infinite : Infinite r ∨ Infinite y) : form (r * y) = .infinity .positive := by
  have product : r * y = ofForm (UnpackedFloat.mul format (form r) (form y)) := rfl
  rcases form_of_pos hr with fr | ⟨m, e, h, fr⟩ <;> rcases form_of_pos hy with fy | ⟨n, f, h', fy⟩
  · rw [product, fr, fy]
    exact form_ofForm trivial
  · rw [product, fr, fy]
    exact form_ofForm trivial
  · rw [product, fr, fy]
    exact form_ofForm trivial
  · rcases infinite with ⟨s, same⟩ | ⟨s, same⟩
    · cases fr.symm.trans same
    · cases fy.symm.trans same

theorem infinite_of_form (h : form y = .infinity .positive) :
    y.isNaN = false ∧ value y = limit := by
  rw [isNaN_eq_false_iff, value, h, formValue_infinity_positive]
  exact ⟨by simp, rfl⟩

/-- A positive number does not exceed its product with one of at least one. -/
theorem le_value_mul (hr : 0 < value r) (hy : 1 ≤ value y) (numberR : r.isNaN = false)
    (numberY : y.isNaN = false) : (r * y).isNaN = false ∧ value r ≤ value (r * y) := by
  by_cases finite : r.isFinite = true ∧ y.isFinite = true
  · have rounded := rounds_mul finite.1 finite.2
    exact ⟨rounded.number, rounded.ge r numberR (by nlinarith)⟩
  · have infinite : Infinite r ∨ Infinite y := by
      rcases not_and_or.mp finite with infinite | infinite
      · exact .inl (infinite_of_not_isFinite numberR infinite)
      · exact .inr (infinite_of_not_isFinite numberY infinite)
    obtain ⟨number, same⟩ :=
      infinite_of_form (form_mul_of_infinite hr (one_pos.trans_le hy) infinite)
    exact ⟨number, same ▸ value_le_limit r⟩

/-- Nothing that is not negative is below a product with zero. -/
theorem not_lt_mul_of_zero {x : Float} (zero : value r = 0) (number : r.isNaN = false)
    (nonnegative : 0 ≤ value x) : ¬ x < r * y := by
  intro less
  obtain ⟨numberX, numberProduct⟩ := number_of_lt less
  have finite : r.isFinite = true := by
    rw [isFinite_iff number, zero, abs_zero]
    exact limit_pos
  have product : r * y = ofForm (UnpackedFloat.mul format (form r) (form y)) := rfl
  rcases form_finite finite with ⟨s, fr⟩ | ⟨s, m, e, positive, fr⟩
  · have outcome : form (r * y) = .notANumber ∨ ∃ s, form (r * y) = .zero s := by
      rw [product, fr]
      cases form y with
      | notANumber | infinity => exact .inl (form_ofForm trivial)
      | zero | finite => exact .inr ⟨_, form_ofForm trivial⟩
    rcases outcome with undefined | ⟨t, fz⟩
    · exact isNaN_eq_false_iff.mp numberProduct undefined
    · rw [lt_iff numberX numberProduct, show value (r * y) = 0 by rw [value, fz, formValue]] at less
      exact nonnegative.not_gt less
  · have nonzero : value r ≠ 0 := by
      rw [value, fr, formValue]
      have := magnitude_pos e positive
      cases s <;> simp only [unit] <;> linarith
    exact nonzero zero

/-- Integers beyond the finite numbers become infinite. -/
theorem form_ofInt_of_large {n : ℕ} (large : limit ≤ n) :
    form (ofInt n) = .infinity .positive := by
  have rounded := rounds_ofInt n
  obtain ⟨number, same⟩ :=
    infinite_of_form (form_ofForm trivial : form (ofForm (.infinity .positive)) = _)
  have exceeds : limit ≤ value (ofInt n) := by
    rw [← same]
    refine rounded.ge _ number ?_
    rw [same]
    exact_mod_cast large
  have positive : 0 < value (ofInt n) := limit_pos.trans_le exceeds
  rcases form_of_pos positive with infinite | ⟨m, e, h, finite⟩
  · exact infinite
  · have bounded : |value (ofInt n)| < limit :=
      (isFinite_iff rounded.number).mp (by show (form _).isFinite = true; rw [finite]; rfl)
    rw [abs_of_pos positive] at bounded
    exact absurd bounded exceeds.not_gt

end Binary64

theorem number_of_pos {r : Float} (positive : 0 < r) : r.isNaN = false ∧ 0 < value r := by
  obtain ⟨numberZero, number⟩ := number_of_lt positive
  have := (lt_iff numberZero number).mp positive
  rw [value_literal_zero] at this
  exact ⟨number, this⟩

theorem value_ofInt_nonneg (n : ℕ) : 0 ≤ value (ofInt n) := by
  have := (rounds_ofInt n).ge 0 (by decide) (by rw [value_literal_zero]; positivity)
  rwa [value_literal_zero] at this

namespace Breaker

variable {b : Breaker}

/-- A tally without rejections trips no breaker that asks for a rate of at most one. -/
theorem not_tripped_of_full (atMostOne : b.minSuccessRate ≤ 1) (n : Nat) :
    b.tripped ⟨n, n⟩ = false := by
  have steady : ¬ ofInt n < b.minSuccessRate * ofInt n :=
    not_lt_mul atMostOne (value_ofInt_nonneg n)
  rw [tripped, decide_eq_false steady, Bool.and_false]

theorem tripped_iff {t : Tally} : b.tripped t = true ↔
    b.minTrials ≤ t.trials ∧ ofInt t.successes < b.minSuccessRate * ofInt t.trials := by
  rw [tripped, Bool.and_eq_true, decide_eq_true_iff, decide_eq_true_iff]

/-- With a positive rate, a tally without acceptances trips the breaker as soon as it may trip. -/
theorem tripped_without_successes (positive : 0 < b.minSuccessRate) {n : Nat} (some_trial : 0 < n) :
    b.tripped ⟨n, 0⟩ = true ↔ b.minTrials ≤ n := by
  obtain ⟨numberRate, positiveRate⟩ := number_of_pos positive
  have rounded := rounds_ofInt n
  have one_le : 1 ≤ value (ofInt n) := by
    have := rounded.ge 1 (by decide) (by rw [value_literal_one]; exact_mod_cast some_trial)
    rwa [value_literal_one] at this
  obtain ⟨number, exceeds⟩ := le_value_mul positiveRate one_le numberRate rounded.number
  have none_there : value (ofInt (0 : Nat)) = 0 := by
    have := value_ofInt (n := 0) (by decide)
    exact_mod_cast this
  have below : ofInt (0 : Nat) < b.minSuccessRate * ofInt n := by
    rw [lt_iff (rounds_ofInt _).number number, none_there]
    exact positiveRate.trans_le exceeds
  exact tripped_iff.trans (and_iff_left below)

/-- With a positive rate, any number of acceptances is too low from some number of trials on. -/
theorem exists_tripped (positive : 0 < b.minSuccessRate) {successes : Nat}
    (small : successes < 2 ^ 64) (trials : Nat) :
    ∃ n, trials < n ∧ b.tripped ⟨n, successes⟩ = true := by
  obtain ⟨numberRate, positiveRate⟩ := number_of_pos positive
  -- So many trials that their number, and with it the product, is infinite as a float.
  let n := max ⌈limit⌉₊ (max b.minTrials (trials + 1))
  have beyond : limit ≤ (n : ℚ) := (Nat.le_ceil limit).trans (by exact_mod_cast le_max_left _ _)
  have infinite := form_ofInt_of_large beyond
  have positiveTrials : 0 < value (ofInt n) := (infinite_of_form infinite).2 ▸ limit_pos
  obtain ⟨number, product⟩ := infinite_of_form
    (form_mul_of_infinite positiveRate positiveTrials (.inr ⟨_, infinite⟩))
  have finite : value (ofInt successes) < limit := by
    obtain ⟨w, numberW, same⟩ := exists_value (m := 1) (e := 64) (by decide) (by decide) (by decide)
    have := (rounds_ofInt successes).le w numberW (by rw [same]; exact_mod_cast small.le)
    refine this.trans_lt ?_
    rw [same, limit, Nat.cast_one, one_mul]
    exact zpow_lt_zpow_right₀ (by norm_num) (by norm_num)
  refine ⟨n, lt_max_of_lt_right (lt_max_of_lt_right (Nat.lt_succ_self _)), tripped_iff.mpr
    ⟨le_max_of_le_right (le_max_left _ _), ?_⟩⟩
  rw [lt_iff (rounds_ofInt _).number number, product]
  exact finite

/-- With the rate zero, no breaker trips. -/
theorem not_tripped_of_zero (zero : value b.minSuccessRate = 0)
    (number : b.minSuccessRate.isNaN = false)
    (t : Tally) : b.tripped t = false := by
  have steady : ¬ ofInt t.successes < b.minSuccessRate * ofInt t.trials :=
    not_lt_mul_of_zero zero number (value_ofInt_nonneg _)
  rw [tripped, decide_eq_false steady, Bool.and_false]

/-- A search ends with a candidate at whose rejection the breaker trips. -/
theorem seek_of_tripped {σ ε β : Type} {next : σ → Except ε (Option β) × σ} {t : Tally} {p q : σ}
    (rejected : next p = (.ok none, q)) (trips : b.tripped (t.record false) = true)
    (patience : ℕ) :
    b.seek next (patience + 1) t p = (.tripped (t.record false), t.record false, q) := by
  rw [seek, rejected]
  exact if_pos trips

end Breaker

end SchemaSampler
