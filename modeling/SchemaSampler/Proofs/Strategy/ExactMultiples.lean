import SchemaSampler.Proofs.Binary64.Accuracy
import SchemaSampler.Proofs.Strategy.NumberAdmission
import SchemaSampler.Proofs.Strategy.NumberCandidates

namespace SchemaSampler

open Binary64

/-!
# Exact multiples — the candidates are all the multiples that meet the bounds

The quotient of a bound by the step is rounded, but never past an integer whose multiple lies within
the bound, since integers of 53 bits are not rounded.  If the multiple next to it does not meet the
bounds, it is not the one within, so the correction by one does not go past that either
(`ShortMultiple.firstFactor_le`, `ShortMultiple.le_lastFactor`).

* `numberCandidate_multiples` — exact candidates are products that are not rounded and meet all
  checks, and among them are all multiples in the span that meet the bounds.
-/

namespace NumberPlan

variable {plan : NumberPlan} {checks : List NumberCheck} {m : Multiples} {step lo hi x y : Float}
  {S n : ℤ}

/-! ### Quotients in the safe range -/

/-- A number in the safe range is finite. -/
theorem isFinite_of_safe (number : x.isNaN = false) (safe : |value x| ≤ 2 ^ 53 - 1) :
    x.isFinite = true := by
  by_contra infinite
  exact not_infinite (safe.trans (by norm_num)) (infinite_of_not_isFinite number infinite)

/-- The quotient of a number in the safe range by an integral step. -/
theorem quotient_spec (integral : IntegralStep step S) (finite : x.isFinite = true)
    (safe : |value x| ≤ 2 ^ 53 - 1) :
    Rounds (value x / S) (x / step) ∧ (x / step).isFinite = true ∧
      |value (x / step)| ≤ 2 ^ 53 - 1 := by
  have one_le : (1 : ℚ) ≤ S := by exact_mod_cast integral.positive
  have positive : (0 : ℚ) < S := one_pos.trans_le one_le
  have rounds := rounds_div finite integral.finite (by rw [integral.value_eq]; exact positive.ne')
  rw [integral.value_eq] at rounds
  have bound : |value x / S| ≤ value safeBound := by
    rw [value_safeBound, abs_div, abs_of_pos positive]
    exact (div_le_self (abs_nonneg _) one_le).trans safe
  have near := rounds.abs_value_le rfl bound
  rw [value_safeBound] at near
  exact ⟨rounds, isFinite_of_safe rounds.number near, near⟩

/-- A rational in the safe range is rounded to short integers. -/
theorem natAbs_ceil_floor_le {q : ℚ} (safe : |q| ≤ 2 ^ 53 - 1) :
    ⌈q⌉.natAbs ≤ 2 ^ 53 ∧ ⌊q⌋.natAbs ≤ 2 ^ 53 := by
  obtain ⟨lower, upper⟩ := abs_le.mp safe
  have ceil_le : ⌈q⌉ ≤ 2 ^ 53 - 1 := Int.ceil_le.mpr (by exact_mod_cast upper)
  have le_floor : -(2 ^ 53 - 1) ≤ ⌊q⌋ := Int.le_floor.mpr (by exact_mod_cast lower)
  have order := Int.floor_le_ceil q
  omega

/-! ### Multiples within the bounds -/

/-- What is known of a multiple of an integral step in the range where integers are represented. -/
structure ShortMultiple (step y : Float) (S n : ℤ) : Prop where
  integral : IntegralStep step S
  number : y.isNaN = false
  value_eq : value y = ((n * S : ℤ) : ℚ)
  small : (n * S).natAbs < 2 ^ 53

namespace ShortMultiple

theorem short (h : ShortMultiple step y S n) : n.natAbs < 2 ^ 53 := by
  have longer : n.natAbs * 1 ≤ n.natAbs * S.natAbs :=
    Nat.mul_le_mul_left _ (Int.natAbs_pos.mpr h.integral.positive.ne')
  have small := h.small
  rw [Int.natAbs_mul] at small
  omega

/-- If a factor times the step does not meet bounds that the multiple meets, it is another factor. -/
theorem ne_of_not_meets (h : ShortMultiple step y S n) (meets : meetsBounds checks y = true)
    (number : x.isNaN = false) {k : ℤ} (same : value x = k)
    (fails : ¬ meetsBounds checks (x * step) = true) : k ≠ n := by
  rintro rfl
  obtain ⟨finite, product⟩ := value_product h.integral
    (isFinite_of_small number same h.short.le) same h.small.le
  refine fails (meets ▸ meetsBounds_congr (number_of_isFinite finite) h.number ?_)
  rw [product, h.value_eq]

/-- The least factor for a lower bound is not above the factor of a multiple that lies above it and
    meets the bounds. -/
theorem firstFactor_le (h : ShortMultiple step y S n) (meets : meetsBounds checks y = true)
    (finite : lo.isFinite = true) (safe : |value lo| ≤ 2 ^ 53 - 1) (above : value lo ≤ value y) :
    value (firstFactor checks step lo) ≤ n := by
  obtain ⟨rounds, finite_quotient, near⟩ := quotient_spec h.integral finite safe
  obtain ⟨number, same⟩ := value_ceil finite_quotient
  have positive : (0 : ℚ) < S := by exact_mod_cast h.integral.positive
  have exact_value : value (ofInt n) = n := value_ofInt h.short.le
  -- The factor is a number, so the quotient cannot be rounded past it.
  have below : value (lo / step) ≤ n := by
    rw [← exact_value]
    refine rounds.le (ofInt n) (rounds_ofInt n).number ?_
    rw [exact_value, div_le_iff₀ positive, ← Int.cast_mul, ← h.value_eq]
    exact above
  have ceil_le : ⌈value (lo / step)⌉ ≤ n := Int.ceil_le.mpr below
  rw [firstFactor]
  split
  · rw [same]
    exact_mod_cast ceil_le
  · rename_i fails
    -- The multiple by the ceiling fails, so the given one has a greater factor.
    have other := h.ne_of_not_meets meets number same fails
    have short := (natAbs_ceil_floor_le near).1
    have sum := rounds_add (isFinite_of_small number same short) isFinite_one
    rw [same, value_literal_one] at sum
    rw [← exact_value]
    refine sum.le (ofInt n) (rounds_ofInt n).number ?_
    rw [exact_value]
    exact_mod_cast lt_of_le_of_ne ceil_le other

/-- The greatest factor for an upper bound is not below the factor of a multiple that lies below it
    and meets the bounds. -/
theorem le_lastFactor (h : ShortMultiple step y S n) (meets : meetsBounds checks y = true)
    (finite : hi.isFinite = true) (safe : |value hi| ≤ 2 ^ 53 - 1) (below : value y ≤ value hi) :
    n ≤ value (lastFactor checks step hi) := by
  obtain ⟨rounds, finite_quotient, near⟩ := quotient_spec h.integral finite safe
  obtain ⟨number, same⟩ := value_floor finite_quotient
  have positive : (0 : ℚ) < S := by exact_mod_cast h.integral.positive
  have exact_value : value (ofInt n) = n := value_ofInt h.short.le
  have above : n ≤ value (hi / step) := by
    rw [← exact_value]
    refine rounds.ge (ofInt n) (rounds_ofInt n).number ?_
    rw [exact_value, le_div_iff₀ positive, ← Int.cast_mul, ← h.value_eq]
    exact below
  have le_floor : n ≤ ⌊value (hi / step)⌋ := Int.le_floor.mpr above
  rw [lastFactor]
  split
  · rw [same]
    exact_mod_cast le_floor
  · rename_i fails
    have other := h.ne_of_not_meets meets number same fails
    have short := (natAbs_ceil_floor_le near).2
    have difference := rounds_sub (isFinite_of_small number same short) isFinite_one
    rw [same, value_literal_one] at difference
    rw [← exact_value]
    refine difference.ge (ofInt n) (rounds_ofInt n).number ?_
    rw [exact_value, le_sub_iff_add_le]
    exact_mod_cast lt_of_le_of_ne le_floor other.symm

end ShortMultiple

/-- A multiple in the span of exact multiples that meets the bounds has a factor between the ends. -/
theorem MultiplesOf.among (h : MultiplesOf plan checks m) (exact_there : m.isExact plan = true)
    (multiple : value y = n * value m.step) (above : m.lo ≤ y) (below : y ≤ m.hi)
    (meets : meetsBounds checks y = true) :
    factor m.first ≤ n ∧ n ≤ factor m.last := by
  obtain ⟨-, integral, safe_lo, safe_hi, -, -⟩ := isExact_iff.mp exact_there
  obtain ⟨S, hS⟩ := h.integralStep integral
  have factors := h.factors exact_there hS
  obtain ⟨number_lo, number⟩ := number_of_le above
  obtain ⟨-, number_hi⟩ := number_of_le below
  rw [le_iff rfl number_lo, value_neg, value_safeBound] at safe_lo
  rw [le_iff number_hi rfl, value_safeBound] at safe_hi
  rw [le_iff number_lo number] at above
  rw [le_iff number number_hi] at below
  -- The multiple lies in a span in the safe range, so its factor is short as well.
  have safe : |value m.lo| ≤ 2 ^ 53 - 1 ∧ |value y| ≤ 2 ^ 53 - 1 ∧ |value m.hi| ≤ 2 ^ 53 - 1 := by
    refine ⟨abs_le.mpr ?_, abs_le.mpr ?_, abs_le.mpr ?_⟩ <;> constructor <;> linarith
  have value_eq : value y = ((n * S : ℤ) : ℚ) := by
    rw [multiple, hS.value_eq, Int.cast_mul]
  have small : (n * S).natAbs < 2 ^ 53 := by
    have bound := safe.2.1
    rw [value_eq] at bound
    have size : |n * S| ≤ 2 ^ 53 - 1 := by exact_mod_cast bound
    obtain ⟨lower, upper⟩ := abs_le.mp size
    omega
  have short : ShortMultiple m.step y S n := ⟨hS, number, value_eq, small⟩
  have first_le := short.firstFactor_le meets (isFinite_of_safe number_lo safe.1) safe.1 above
  have le_last := short.le_lastFactor meets (isFinite_of_safe number_hi safe.2.2) safe.2.2 below
  rw [← h.first_eq, factors.first_eq] at first_le
  rw [← h.last_eq, factors.last_eq] at le_last
  exact ⟨by exact_mod_cast first_le, by exact_mod_cast le_last⟩

end NumberPlan

/-! ### Candidates -/

section Candidates

open NumberPlan

variable {checks : List NumberCheck} {c : Candidate} {found : Option Multiples}

/-- **Exact candidates are all multiples that meet the bounds.**  Let a number schema ask for integers
    or for multiples, and let its candidates be exact.  They are the products of the step by the
    integers from the least to the greatest factor.  Neither the factors nor the products are rounded,
    and each product meets all checks; and each multiple of the step in the span that meets the bounds
    is the product by its factor. -/
theorem numberCandidate_multiples
    (asked : .integral ∈ checks ∨ ∃ step, .multipleOf step ∈ checks)
    (given : numberCandidate checks = .ok (c, found)) (sure : c.exact = true) :
    ∃ m, found = some m ∧
      (∀ v, c.sampler.Reaches v ↔
        ∃ k, factor m.first ≤ k ∧ k ≤ factor m.last ∧ v = .number (m.at k)) ∧
      (∀ k, factor m.first ≤ k → k ≤ factor m.last →
        value (ofInt k) = k ∧ value (m.at k) = k * value m.step ∧ Meets checks (m.at k)) ∧
      ∀ y, ∀ n : ℤ, value y = n * value m.step → m.lo ≤ y → y ≤ m.hi → meetsBounds checks y = true →
        factor m.first ≤ n ∧ n ≤ factor m.last ∧ value (m.at n) = value y := by
  obtain ⟨plan, planned, -, ⟨m, -, multiples, rfl, rfl⟩ | ⟨free, -⟩⟩ := numberCandidate_eq_ok given
  · have h := multiplesOf_of_ok multiples
    obtain ⟨S, hS⟩ := h.integralStep (isExact_iff.mp sure).2.1
    have factors := h.factors sure hS
    have product (k : ℤ) (above : factor m.first ≤ k) (below : k ≤ factor m.last) :
        value (ofInt k) = k ∧ value (m.at k) = k * value m.step := by
      have same := value_ofInt (factors.small hS.positive above below).1
      refine ⟨same, ?_⟩
      rw [hS.value_eq, ← Int.cast_mul]
      exact (factors.product hS above below (rounds_ofInt k).number same).2
    refine ⟨m, rfl, fun v => Candidate.reaches_image_iff factors.order fun k => Value.number (m.at k),
      fun k above below => ?_, fun y n multiple above below meets => ?_⟩
    · obtain ⟨number, holds⟩ := h.holds sure above below
      refine ⟨(product k above below).1, (product k above below).2, number, fun check member => ?_⟩
      exact holds check member ((covers_ofChecks planned).2 check member)
    · obtain ⟨first, last⟩ := h.among sure multiple above below meets
      exact ⟨first, last, (product n first last).2.trans multiple.symm⟩
  · -- A free plan has neither integers nor multiples among its checks.
    rcases asked with whole | ⟨step, member⟩
    · have covered := (covers_ofChecks planned).2 _ whole
      cases free.1.symm.trans covered
    · have covered : step ∈ plan.steps := (covers_ofChecks planned).2 _ member
      rw [free.2] at covered
      cases covered


/-- Multiples of three above zero, up to ten: the factor of zero is corrected, and what comes up are the
    products by one, two and three. -/
theorem numberCandidate_multiples_threes :
    let checks : List NumberCheck := [.multipleOf 3, .min 0 false, .max 10 true]
    ∃ c m, numberCandidate checks = .ok (c, some m) ∧
      (∀ v, c.sampler.Reaches v ↔ ∃ k, 1 ≤ k ∧ k ≤ 3 ∧ v = .number (m.at k)) ∧
      ∀ k, 1 ≤ k → k ≤ 3 → Meets checks (m.at k) := by
  intro checks
  obtain ⟨c, found, given⟩ : ∃ c found, numberCandidate [.multipleOf 3, .min 0 false, .max 10 true] =
    .ok (c, found) := ⟨_, _, rfl⟩
  have sure : c.exact = true := by
    cases given
    rfl
  obtain ⟨m, rfl, reaches, products, -⟩ :=
    numberCandidate_multiples (.inr ⟨3, by simp⟩) given sure
  have ends : factor m.first = 1 ∧ factor m.last = 3 := by
    cases given
    exact ⟨rfl, rfl⟩
  rw [ends.1, ends.2] at reaches products
  exact ⟨c, m, given, reaches, fun k above below => (products k above below).2.2⟩

end Candidates

end SchemaSampler
