import SchemaSampler.Proofs.Schema.NumberCheck
import SchemaSampler.Proofs.Strategy.NumberPlan

namespace SchemaSampler

open Binary64

/-!
# Candidates of numbers — exact ones meet all checks

The factors of the multiples of an integral step come from quotients that were rounded, but the
multiples themselves are exact as long as the span lies in the range where all integers are
represented (`NumberPlan.lower_end`, `NumberPlan.upper_end`): a factor may lie one too far, and
then its multiple is tested and the next factor taken.  So all of them meet the checks
(`NumberPlan.multiples_yields`), and so do all exact candidates (`numberCandidate_yields`).
-/

namespace NumberPlan

variable {plan : NumberPlan} {checks : List NumberCheck} {q x y : Float} {L : ℚ} {S k : ℤ}

/-! ### The ends of a span -/

/-- An integer of at most 53 bits over a power of two that is not above a number is not above what
    the number is rounded to. -/
theorem fraction_le_rounded {r : ℚ} {m j : ℕ} (short : m ≤ 2 ^ 53) (exponent : j < 1024)
    (rounds : Rounds r q) (below : -(m / 2 ^ j : ℚ) ≤ r) : -(m / 2 ^ j : ℚ) ≤ value q := by
  obtain ⟨w, number, same⟩ := exists_value (e := -j) short (by omega) (by omega)
  have size : value (-w) = -(m / 2 ^ j) := by
    rw [value_neg, same, zpow_neg, zpow_natCast, div_eq_mul_inv]
  rw [← size]
  exact rounds.ge (-w) ((isNaN_neg w).trans number) (size.trans_le below)

/-- The quotient of a lower bound by a step is not rounded to an integer whose multiple lies below
    the bound by more than one. -/
theorem rounds_below (positive : 0 < S) (finite : (S : ℚ) < limit) (bound : -(2 ^ 53 - 1) ≤ L)
    (far : k * S < -2 ^ 53) (rounds : Rounds (L / S) q) : (k : ℚ) < value q := by
  have positive' : (0 : ℚ) < S := by exact_mod_cast positive
  have far' : (k : ℚ) * S ≤ -2 ^ 53 - 1 := by exact_mod_cast (by omega : k * S ≤ -2 ^ 53 - 1)
  -- The step lies between two powers of two.
  have one_le : (1 : ℚ) ≤ S := by exact_mod_cast positive
  obtain ⟨j, low, high⟩ := exists_nat_pow_near one_le one_lt_two
  have power : (0 : ℚ) < 2 ^ j := by positivity
  have exponent : j < 1024 := by
    have := low.trans_lt finite
    rw [limit, ← zpow_natCast, zpow_lt_zpow_iff_right₀ (by norm_num)] at this
    omega
  by_contra not_above
  rw [not_lt] at not_above
  -- The quotient is rounded into the range of the integers of 53 bits over the smaller power.
  have room : -k * 2 ^ j ≤ 2 ^ 53 := by
    have quotient : -(((2 ^ 53 : ℕ) : ℚ) / 2 ^ j) ≤ L / S := by
      rw [le_div_iff₀ positive', neg_mul, div_mul_eq_mul_div, neg_le, le_div_iff₀ power]
      push_cast
      nlinarith
    have ends := (fraction_le_rounded le_rfl exponent rounds quotient).trans not_above
    rw [neg_le, le_div_iff₀ power] at ends
    exact_mod_cast ends
  -- The next number of that range above the integer is not above the quotient.
  have negative : k < 0 := by
    by_contra h
    have : 0 ≤ k * S := mul_nonneg (not_lt.mp h) positive.le
    omega
  have long : 1 ≤ -k * 2 ^ j := by
    have : (1 : ℤ) ≤ 2 ^ j := one_le_pow₀ (by norm_num)
    nlinarith
  have mantissa : (((-k * 2 ^ j - 1).toNat : ℕ) : ℚ) = -k * 2 ^ j - 1 := by
    have : (((-k * 2 ^ j - 1).toNat : ℕ) : ℤ) = -k * 2 ^ j - 1 := by omega
    exact_mod_cast congrArg (Int.cast : ℤ → ℚ) this
  have size : -(((-k * 2 ^ j - 1).toNat : ℕ) / 2 ^ j : ℚ) = k + (2 ^ j)⁻¹ := by
    rw [mantissa]
    field_simp
    ring
  have quotient : k + (2 ^ j : ℚ)⁻¹ ≤ L / S := by
    rw [le_div_iff₀ positive', add_mul]
    have part : (2 ^ j : ℚ)⁻¹ * S ≤ 2 := by
      rw [inv_mul_le_iff₀ power]
      rw [pow_succ] at high
      linarith
    linarith
  have ends := fraction_le_rounded (by omega) exponent rounds (size.trans_le quotient)
  rw [size] at ends
  have : (0 : ℚ) < (2 ^ j)⁻¹ := by positivity
  linarith

/-- An integer that is not below the rounded quotient of a lower bound and a step: its multiple
    goes below the bound by less than one, and the multiple of the next integer does not. -/
theorem lower_end (positive : 0 < S) (finite : (S : ℚ) < limit) (rounds : Rounds (L / S) q)
    (bound : -(2 ^ 53 - 1) ≤ L) (above : value q ≤ k) :
    -(2 ^ 53 - 1) ≤ k ∧ -2 ^ 53 ≤ k * S ∧ (k + 1 ≤ 2 ^ 53 → L ≤ (k + 1) * S) := by
  have positive' : (0 : ℚ) < S := by exact_mod_cast positive
  have one_le : (1 : ℚ) ≤ S := by exact_mod_cast positive
  have least : -(2 ^ 53 - 1) ≤ k := by
    have quotient : (-(2 ^ 53 - 1) : ℚ) ≤ L / S := by
      rw [le_div_iff₀ positive']
      nlinarith
    have cast : ((-(2 ^ 53 - 1) : ℤ) : ℚ) = -(2 ^ 53 - 1) := by norm_num
    have small := value_ofInt (n := -(2 ^ 53 - 1)) (by decide)
    have ends := rounds.ge (ofInt (-(2 ^ 53 - 1))) (rounds_ofInt _).number (by rwa [small, cast])
    rw [small] at ends
    exact_mod_cast ends.trans above
  refine ⟨least, ?_, fun room => ?_⟩
  · by_contra beyond
    rw [not_le] at beyond
    exact absurd (rounds_below positive finite bound beyond rounds) (not_lt.mpr above)
  · by_contra beyond
    rw [not_le] at beyond
    have quotient : ((k + 1 : ℤ) : ℚ) ≤ L / S := by
      rw [le_div_iff₀ positive']
      push_cast
      exact beyond.le
    have small : value (ofInt (k + 1)) = ((k + 1 : ℤ) : ℚ) := value_ofInt (by omega)
    have ends := rounds.ge (ofInt (k + 1)) (rounds_ofInt _).number (by rwa [small])
    rw [small] at ends
    push_cast at ends
    linarith

/-- The same at the other end. -/
theorem upper_end (positive : 0 < S) (finite : (S : ℚ) < limit) (rounds : Rounds (L / S) q)
    (bound : L ≤ 2 ^ 53 - 1) (below : k ≤ value q) :
    k ≤ 2 ^ 53 - 1 ∧ k * S ≤ 2 ^ 53 ∧ (-2 ^ 53 ≤ k - 1 → (k - 1) * S ≤ L) := by
  have opposite := rounds.neg ((isNaN_neg q).trans rounds.number) (value_neg q)
  rw [← neg_div] at opposite
  obtain ⟨least, inside, next⟩ := lower_end positive finite opposite (by linarith) (k := -k) (by
    rw [value_neg]
    push_cast
    linarith)
  refine ⟨by omega, by linarith, fun room => ?_⟩
  have := next (by omega)
  push_cast at this
  linarith

/-! ### Factors -/

/-- The least factor for a lower bound, as it is corrected. -/
def firstFactor (checks : List NumberCheck) (step lo : Float) : Float :=
  if meetsBounds checks (ceil (lo / step) * step) then ceil (lo / step) else ceil (lo / step) + 1

/-- The greatest factor for an upper bound, as it is corrected. -/
def lastFactor (checks : List NumberCheck) (step hi : Float) : Float :=
  if meetsBounds checks (floor (hi / step) * step) then floor (hi / step)
  else floor (hi / step) - 1

/-- What is known of a step that multiples are taken of. -/
structure IntegralStep (step : Float) (S : ℤ) : Prop where
  finite : step.isFinite = true
  value_eq : value step = S
  positive : 0 < S
  below : (S : ℚ) < limit

/-- A number of at most 53 bits is no infinity. -/
theorem not_infinite (small : |value x| ≤ 2 ^ 53) : ¬ Infinite x := by
  intro infinite
  rw [infinite.abs_value] at small
  have large : (2 : ℚ) ^ (53 : ℤ) < limit := zpow_lt_zpow_right₀ (by norm_num) (by norm_num)
  norm_num at small large
  linarith

theorem isFinite_one : (1 : Float).isFinite = true := rfl

/-- The quotient of a bound by an integral step is the rounded one and finite, if it is no
    infinity. -/
theorem rounds_quotient {step bound : Float} (integral : IntegralStep step S)
    (number : bound.isNaN = false) (finite_quotient : ¬ Infinite (bound / step)) :
    Rounds (value bound / S) (bound / step) ∧ (bound / step).isFinite = true := by
  have finite_bound : bound.isFinite = true := by
    by_contra h
    exact finite_quotient ((infinite_of_not_isFinite number h).div integral.finite)
  have positive : (0 : ℚ) < S := by exact_mod_cast integral.positive
  have rounds :=
    rounds_div finite_bound integral.finite (by rw [integral.value_eq]; exact positive.ne')
  rw [integral.value_eq] at rounds
  refine ⟨rounds, ?_⟩
  by_contra h
  exact finite_quotient (infinite_of_not_isFinite rounds.number h)

/-- An infinity comes through to the least factor. -/
theorem infinite_firstFactor {step lo : Float} (infinite : Infinite (ceil (lo / step))) :
    Infinite (firstFactor checks step lo) := by
  rw [firstFactor]
  split
  · exact infinite
  · exact infinite.add isFinite_one

/-- An infinity comes through to the greatest factor. -/
theorem infinite_lastFactor {step hi : Float} (infinite : Infinite (floor (hi / step))) :
    Infinite (lastFactor checks step hi) := by
  rw [lastFactor]
  split
  · exact infinite
  · exact infinite.sub isFinite_one

/-- The least factor is an integer that the rounded quotient leads to, or what the next integer is
    rounded to. -/
theorem firstFactor_cases {step lo : Float} (integral : IntegralStep step S)
    (number : lo.isNaN = false) (bound : -(2 ^ 53 - 1) ≤ value lo)
    (small : |value (firstFactor checks step lo)| ≤ 2 ^ 53) :
    ∃ k : ℤ, -(2 ^ 53 - 1) ≤ k ∧ -2 ^ 53 ≤ k * S ∧ (k + 1 ≤ 2 ^ 53 → value lo ≤ (k + 1) * S) ∧
      (k : ℚ) ≤ value (firstFactor checks step lo) ∧
        ((value (firstFactor checks step lo) = k ∧
          meetsBounds checks (firstFactor checks step lo * step) = true) ∨
            Rounds (k + 1) (firstFactor checks step lo)) := by
  have finite_rounded : ¬ Infinite (ceil (lo / step)) := fun infinite =>
    not_infinite small (infinite_firstFactor infinite)
  obtain ⟨rounds, finite_quotient⟩ := rounds_quotient integral number fun infinite => by
    have kept : ceil (lo / step) = lo / step := infinite.roundWith_eq _
    exact finite_rounded (by rwa [kept])
  obtain ⟨number_ceil, value_ceil⟩ := value_ceil finite_quotient
  obtain ⟨least, inside, next⟩ :=
    lower_end integral.positive integral.below rounds bound (Int.le_ceil (value (lo / step)))
  have finite_ceil : (ceil (lo / step)).isFinite = true := by
    by_contra h
    exact finite_rounded (infinite_of_not_isFinite number_ceil h)
  refine ⟨_, least, inside, next, ?_⟩
  rw [firstFactor]
  split
  · rename_i meets
    exact ⟨value_ceil.ge, Or.inl ⟨value_ceil, meets⟩⟩
  · have sum := rounds_add finite_ceil isFinite_one
    rw [value_ceil, value_literal_one] at sum
    have not_below := sum.ge _ number_ceil (by rw [value_ceil]; linarith)
    rw [value_ceil] at not_below
    exact ⟨not_below, Or.inr sum⟩

/-- The least factor: it is an integer whose multiple is represented, and the multiple meets the
    checks or is not below the bound. -/
theorem firstFactor_spec {step lo : Float} (integral : IntegralStep step S)
    (number : lo.isNaN = false) (bound : -(2 ^ 53 - 1) ≤ value lo)
    (small : |value (firstFactor checks step lo)| ≤ 2 ^ 53)
    (room : value (firstFactor checks step lo) ≤ 2 ^ 53 - 1) :
    ∃ k : ℤ, value (firstFactor checks step lo) = k ∧ -2 ^ 53 ≤ k * S ∧
      (meetsBounds checks (firstFactor checks step lo * step) = true ∨ value lo ≤ k * S) := by
  obtain ⟨k, least, inside, next, not_below, ⟨same, meets⟩ | sum⟩ :=
    firstFactor_cases integral number bound small
  · exact ⟨k, same, inside, Or.inl meets⟩
  · have below : k ≤ 2 ^ 53 - 1 := by exact_mod_cast not_below.trans room
    have cast : ((k + 1 : ℤ) : ℚ) = k + 1 := by push_cast; rfl
    rw [← cast] at sum
    have same := sum.value_eq (rounds_ofInt (k + 1)).number (value_ofInt (by omega))
    have positive := integral.positive
    refine ⟨k + 1, same, by nlinarith, Or.inr ?_⟩
    rw [cast]
    exact next (by omega)

/-- The greatest factor, in the same way. -/
theorem lastFactor_cases {step hi : Float} (integral : IntegralStep step S)
    (number : hi.isNaN = false) (bound : value hi ≤ 2 ^ 53 - 1)
    (small : |value (lastFactor checks step hi)| ≤ 2 ^ 53) :
    ∃ k : ℤ, k ≤ 2 ^ 53 - 1 ∧ k * S ≤ 2 ^ 53 ∧ (-2 ^ 53 ≤ k - 1 → (k - 1) * S ≤ value hi) ∧
      value (lastFactor checks step hi) ≤ k ∧
        ((value (lastFactor checks step hi) = k ∧
          meetsBounds checks (lastFactor checks step hi * step) = true) ∨
            Rounds (k - 1) (lastFactor checks step hi)) := by
  have finite_rounded : ¬ Infinite (floor (hi / step)) := fun infinite =>
    not_infinite small (infinite_lastFactor infinite)
  obtain ⟨rounds, finite_quotient⟩ := rounds_quotient integral number fun infinite => by
    have kept : floor (hi / step) = hi / step := infinite.roundWith_eq _
    exact finite_rounded (by rwa [kept])
  obtain ⟨number_floor, value_floor⟩ := value_floor finite_quotient
  obtain ⟨most, inside, next⟩ :=
    upper_end integral.positive integral.below rounds bound (Int.floor_le (value (hi / step)))
  have finite_floor : (floor (hi / step)).isFinite = true := by
    by_contra h
    exact finite_rounded (infinite_of_not_isFinite number_floor h)
  refine ⟨_, most, inside, next, ?_⟩
  rw [lastFactor]
  split
  · rename_i meets
    exact ⟨value_floor.le, Or.inl ⟨value_floor, meets⟩⟩
  · have difference := rounds_sub finite_floor isFinite_one
    rw [value_floor, value_literal_one] at difference
    have not_above := difference.le _ number_floor (by rw [value_floor]; linarith)
    rw [value_floor] at not_above
    exact ⟨not_above, Or.inr difference⟩

/-- The greatest factor: it is an integer whose multiple is represented, and the multiple meets the
    checks or is not above the bound. -/
theorem lastFactor_spec {step hi : Float} (integral : IntegralStep step S)
    (number : hi.isNaN = false) (bound : value hi ≤ 2 ^ 53 - 1)
    (small : |value (lastFactor checks step hi)| ≤ 2 ^ 53)
    (room : -(2 ^ 53 - 1) ≤ value (lastFactor checks step hi)) :
    ∃ k : ℤ, value (lastFactor checks step hi) = k ∧ k * S ≤ 2 ^ 53 ∧
      (meetsBounds checks (lastFactor checks step hi * step) = true ∨ k * S ≤ value hi) := by
  obtain ⟨k, most, inside, next, not_above, ⟨same, meets⟩ | difference⟩ :=
    lastFactor_cases integral number bound small
  · exact ⟨k, same, inside, Or.inl meets⟩
  · have above : -(2 ^ 53 - 1) ≤ k := by exact_mod_cast room.trans not_above
    have cast : ((k - 1 : ℤ) : ℚ) = k - 1 := by push_cast; rfl
    rw [← cast] at difference
    have same := difference.value_eq (rounds_ofInt (k - 1)).number (value_ofInt (by omega))
    have positive := integral.positive
    refine ⟨k - 1, same, by nlinarith, Or.inr ?_⟩
    rw [cast]
    exact next (by omega)

/-- A factor that is an integer of at most 53 bits stands for that integer. -/
theorem factor_of_value {k : ℤ} (small : k.natAbs ≤ 2 ^ 53) (number : x.isNaN = false)
    (same : value x = k) : factor x = k := by
  have bound : exactBound = 2 ^ 53 := by decide
  have ends (n : ℤ) (h : n.natAbs ≤ 2 ^ 53) : (ofInt n).isNaN = false ∧ value (ofInt n) = n :=
    ⟨(rounds_ofInt n).number, value_ofInt h⟩
  obtain ⟨numberLo, valueLo⟩ := ends (-exactBound) (by rw [bound]; decide)
  obtain ⟨numberHi, valueHi⟩ := ends exactBound (by rw [bound]; decide)
  rw [factor, if_neg, if_neg]
  · exact toInt_of_value (isFinite_of_small number same small) same
  · rw [lt_iff numberHi number, valueHi, same, not_lt]
    exact_mod_cast (by omega : k ≤ exactBound)
  · rw [lt_iff number numberLo, valueLo, same, not_lt]
    exact_mod_cast (by omega : -exactBound ≤ k)

/-! ### Multiples -/

/-- The product of an integral step with a factor, where it is represented. -/
theorem value_product {step : Float} (integral : IntegralStep step S) {w : Float} {k : ℤ}
    (finite : w.isFinite = true) (same : value w = k) (small : (k * S).natAbs ≤ 2 ^ 53) :
    (w * step).isFinite = true ∧ value (w * step) = ((k * S : ℤ) : ℚ) := by
  have rounds := rounds_mul finite integral.finite
  rw [same, integral.value_eq, ← Int.cast_mul] at rounds
  have product := rounds.value_eq (rounds_ofInt _).number (value_ofInt small)
  exact ⟨isFinite_of_small rounds.number product small, product⟩

/-- What is known of the multiples of a plan. -/
structure MultiplesOf (plan : NumberPlan) (checks : List NumberCheck) (m : Multiples) : Prop where
  step_eq : m.step = (plan.steps.headD 1).abs
  step_ne : (m.step == 0) = false
  finite : m.step.isFinite = true
  lo_eq : ∀ lo, plan.lo = some lo → m.lo = lo
  hi_eq : ∀ hi, plan.hi = some hi → m.hi = hi
  first_eq : m.first = firstFactor checks m.step m.lo
  last_eq : m.last = lastFactor checks m.step m.hi
  number_first : m.first.isNaN = false
  number_last : m.last.isNaN = false
  order : ¬ m.last < m.first

/-- The start of the span, also where a plan has no lower bound. -/
def spanLo (plan : NumberPlan) : Float :=
  plan.lo.getD (smaller (-safeBound) (plan.hi.elim 0 (· - safeBound)))

/-- The end of the span, also where a plan has no upper bound. -/
def spanHi (plan : NumberPlan) : Float :=
  plan.hi.getD (larger safeBound (plan.lo.elim 0 (· + safeBound)))

theorem multiples_eq (plan : NumberPlan) (checks : List NumberCheck) : plan.multiples checks =
    let step := (plan.steps.headD 1).abs
    if step == 0 || !step.isFinite then .error (.badStep step)
    else
      let first := firstFactor checks step plan.spanLo
      let last := lastFactor checks step plan.spanHi
      if first.isNaN || last.isNaN || last < first then
        .error (.noMultiple step plan.spanLo plan.spanHi)
      else .ok ⟨step, plan.spanLo, plan.spanHi, first, last⟩ := rfl

theorem multiplesOf_of_ok {m : Multiples} (h : plan.multiples checks = .ok m) :
    MultiplesOf plan checks m := by
  rw [multiples_eq] at h
  simp only at h
  split at h
  · cases h
  · rename_i step_fits
    rw [Bool.or_eq_true, not_or, Bool.not_eq_true, Bool.not_eq_true, Bool.not_eq_false'] at step_fits
    split at h
    · cases h
    · rename_i factors_fit
      rw [Bool.or_eq_true, Bool.or_eq_true, not_or, not_or, Bool.not_eq_true, Bool.not_eq_true,
        decide_eq_true_eq] at factors_fit
      cases h
      exact ⟨rfl, step_fits.1, step_fits.2, fun lo hlo => by rw [spanLo, hlo, Option.getD_some],
        fun hi hhi => by rw [spanHi, hhi, Option.getD_some], rfl, rfl, factors_fit.1.1,
        factors_fit.1.2, factors_fit.2⟩

/-- What exact multiples have. -/
theorem isExact_iff {m : Multiples} : m.isExact plan = true ↔ plan.steps.length ≤ 1 ∧
    isIntegral m.step = true ∧ -safeBound ≤ m.lo ∧ m.hi ≤ safeBound ∧
      m.first.abs ≤ ofInt exactBound ∧ m.last.abs ≤ ofInt exactBound := by
  simp only [Multiples.isExact, Bool.and_eq_true, decide_eq_true_eq, and_assoc]

theorem value_safeBound : value safeBound = 2 ^ 53 - 1 := by
  rw [safeBound, value_ofInt (by decide)]
  norm_num [maxSafeInteger]

theorem abs_le_of_exactBound (number : x.isNaN = false) (h : x.abs ≤ ofInt exactBound) :
    |value x| ≤ 2 ^ 53 := by
  rw [le_iff ((isNaN_abs x).trans number) (rounds_ofInt _).number, value_abs,
    value_ofInt (by decide)] at h
  refine h.trans ?_
  norm_num [exactBound, maxSafeInteger]

theorem natAbs_le_of_exactBound (number : x.isNaN = false) (h : x.abs ≤ ofInt exactBound) {n : ℤ}
    (same : value x = n) : n.natAbs ≤ 2 ^ 53 := by
  have bound := abs_le_of_exactBound number h
  rw [same] at bound
  have bound' : |n| ≤ 2 ^ 53 := by exact_mod_cast bound
  have := abs_le.mp bound'
  omega

/-- The step of exact multiples. -/
theorem MultiplesOf.integralStep {m : Multiples} (h : MultiplesOf plan checks m)
    (integral : isIntegral m.step = true) : ∃ S, IntegralStep m.step S := by
  obtain ⟨S, hS⟩ := (isIntegral_iff h.finite).mp integral
  have number := number_of_isFinite h.finite
  have nonneg : 0 ≤ value m.step := by
    rw [h.step_eq, value_abs]
    exact abs_nonneg _
  have nonzero : value m.step ≠ 0 := by
    intro zero
    have : (m.step == 0) = true := by
      rw [beq_iff number number_literal_zero, zero, value_literal_zero]
    rw [h.step_ne] at this
    cases this
  have positive : (0 : ℚ) < S := by
    rw [← hS]
    exact lt_of_le_of_ne nonneg nonzero.symm
  refine ⟨S, h.finite, hS, by exact_mod_cast positive, ?_⟩
  rw [← hS]
  exact (finite_bounds h.finite).2

/-- The factors of exact multiples are integers whose multiples are represented.  The multiple at
    either end meets the checks, or it is not beyond the bound. -/
theorem MultiplesOf.ends {m : Multiples} (h : MultiplesOf plan checks m)
    (exact_there : m.isExact plan = true) {S : ℤ} (hS : IntegralStep m.step S) :
    ∃ a b : ℤ, value m.first = a ∧ value m.last = b ∧ a ≤ b ∧ -2 ^ 53 ≤ a * S ∧ b * S ≤ 2 ^ 53 ∧
      (meetsBounds checks (m.first * m.step) = true ∨ value m.lo ≤ a * S) ∧
        (meetsBounds checks (m.last * m.step) = true ∨ b * S ≤ value m.hi) := by
  obtain ⟨-, -, safe_lo, safe_hi, small_first, small_last⟩ := isExact_iff.mp exact_there
  obtain ⟨number_safe', number_lo⟩ := number_of_le safe_lo
  obtain ⟨number_hi, number_safe⟩ := number_of_le safe_hi
  rw [le_iff number_safe' number_lo, value_neg, value_safeBound] at safe_lo
  rw [le_iff number_hi number_safe, value_safeBound] at safe_hi
  have first_bounds := abs_le_of_exactBound h.number_first small_first
  have last_bounds := abs_le_of_exactBound h.number_last small_last
  have order := (float_not_lt_iff h.number_last h.number_first).mp h.order
  rw [le_iff h.number_first h.number_last] at order
  rw [h.first_eq] at first_bounds order ⊢
  rw [h.last_eq] at last_bounds order ⊢
  obtain ⟨k, least, -, -, above_k, -⟩ := firstFactor_cases hS number_lo (by linarith) first_bounds
  obtain ⟨l, most, -, -, below_l, -⟩ := lastFactor_cases hS number_hi safe_hi last_bounds
  have least' : (-(2 ^ 53 - 1) : ℚ) ≤ k := by exact_mod_cast least
  have most' : (l : ℚ) ≤ 2 ^ 53 - 1 := by exact_mod_cast most
  obtain ⟨a, ha, insideA, metA⟩ := firstFactor_spec hS number_lo (by linarith) first_bounds
    (order.trans (below_l.trans most'))
  obtain ⟨b, hb, insideB, metB⟩ := lastFactor_spec hS number_hi safe_hi last_bounds
    (least'.trans (above_k.trans order))
  refine ⟨a, b, ha, hb, ?_, insideA, insideB, metA, metB⟩
  rw [ha, hb] at order
  exact_mod_cast order

/-- What is known of the least and the greatest factor of exact multiples: they are integers of at most
    53 bits, and so are their products by the step.  The multiple at either end meets the checks, or
    it is not beyond the bound. -/
structure FactorsOf (checks : List NumberCheck) (m : Multiples) (S : ℤ) : Prop where
  first_eq : value m.first = factor m.first
  last_eq : value m.last = factor m.last
  order : factor m.first ≤ factor m.last
  small_first : (factor m.first).natAbs ≤ 2 ^ 53
  small_last : (factor m.last).natAbs ≤ 2 ^ 53
  least : -2 ^ 53 ≤ factor m.first * S
  most : factor m.last * S ≤ 2 ^ 53
  met_first : meetsBounds checks (m.first * m.step) = true ∨ value m.lo ≤ factor m.first * S
  met_last : meetsBounds checks (m.last * m.step) = true ∨ factor m.last * S ≤ value m.hi

theorem MultiplesOf.factors {m : Multiples} (h : MultiplesOf plan checks m)
    (exact_there : m.isExact plan = true) (hS : IntegralStep m.step S) : FactorsOf checks m S := by
  obtain ⟨-, -, -, -, small_first, small_last⟩ := isExact_iff.mp exact_there
  obtain ⟨a, b, ha, hb, order, insideA, insideB, metA, metB⟩ := h.ends exact_there hS
  have smallA := natAbs_le_of_exactBound h.number_first small_first ha
  have smallB := natAbs_le_of_exactBound h.number_last small_last hb
  obtain rfl := factor_of_value smallA h.number_first ha
  obtain rfl := factor_of_value smallB h.number_last hb
  exact ⟨ha, hb, order, smallA, smallB, insideA, insideB, metA, metB⟩

/-- A factor between the ends is short, and so is its product by the step. -/
theorem FactorsOf.small {m : Multiples} (h : FactorsOf checks m S) (positive : 0 < S)
    (above : factor m.first ≤ k) (below : k ≤ factor m.last) :
    k.natAbs ≤ 2 ^ 53 ∧ (k * S).natAbs ≤ 2 ^ 53 := by
  obtain ⟨-, -, -, smallA, smallB, least, most, -, -⟩ := h
  have low : factor m.first * S ≤ k * S := mul_le_mul_of_nonneg_right above positive.le
  have high : k * S ≤ factor m.last * S := mul_le_mul_of_nonneg_right below positive.le
  omega

/-- The product of the step by a factor between the ends is not rounded. -/
theorem FactorsOf.product {m : Multiples} (h : FactorsOf checks m S) (hS : IntegralStep m.step S)
    (above : factor m.first ≤ k) (below : k ≤ factor m.last) (number : x.isNaN = false)
    (same : value x = k) :
    (x * m.step).isFinite = true ∧ value (x * m.step) = ((k * S : ℤ) : ℚ) := by
  obtain ⟨short, small⟩ := h.small hS.positive above below
  exact value_product hS (isFinite_of_small number same short) same small

/-- The only step that was asked for is the step of the multiples or its opposite. -/
theorem MultiplesOf.only_step {m : Multiples} (h : MultiplesOf plan checks m)
    (single : plan.steps.length ≤ 1) (hS : IntegralStep m.step S) {step : Float}
    (member : step ∈ plan.steps) :
    step.isFinite = true ∧ (value step = S ∨ value step = ((-S : ℤ) : ℚ)) := by
  have step_eq : m.step = step.abs := by
    rw [h.step_eq, Candidate.eq_singleton_of_mem member single]
    rfl
  have size : |value step| = S := by
    rw [← value_abs, ← step_eq, hS.value_eq]
  have number : step.isNaN = false := by
    rw [← isNaN_abs, ← step_eq]
    exact number_of_isFinite h.finite
  constructor
  · rw [isFinite_iff number, size]
    exact hS.below
  · rw [Int.cast_neg, ← size]
    exact (abs_choice (value step)).imp Eq.symm fun opposite => by rw [opposite, neg_neg]

/-- A multiple by a factor between the ends meets a check that the plan covers. -/
theorem MultiplesOf.holds {m : Multiples} (h : MultiplesOf plan checks m)
    (exact_there : m.isExact plan = true) (above : factor m.first ≤ k)
    (below : k ≤ factor m.last) : (m.at k).isNaN = false ∧
      ∀ check ∈ checks, plan.Covers check → check.holds (m.at k) = true := by
  obtain ⟨single, integral, safe_lo, safe_hi, -, -⟩ := isExact_iff.mp exact_there
  obtain ⟨S, hS⟩ := h.integralStep integral
  have factors := h.factors exact_there hS
  have short := (factors.small hS.positive above below).1
  obtain ⟨finite, same⟩ : (m.at k).isFinite = true ∧ value (m.at k) = ((k * S : ℤ) : ℚ) :=
    factors.product hS above below (rounds_ofInt k).number (value_ofInt short)
  have number := number_of_isFinite finite
  refine ⟨number, fun check member covered => ?_⟩
  cases check with
  | min bound inclusive =>
    have far : (factor m.first : ℚ) * S ≤ value (m.at k) := by
      rw [same]
      exact_mod_cast mul_le_mul_of_nonneg_right above hS.positive.le
    rcases factors.met_first with meets | reaches
    · -- The first multiple was tested.
      obtain ⟨finite_end, same_end⟩ :=
        factors.product hS le_rfl factors.order h.number_first factors.first_eq
      have tested := List.all_eq_true.mp meets _ (List.mem_filter.mpr ⟨member, rfl⟩)
      refine NumberCheck.min_holds_of_le ?_ tested
      rw [le_iff (number_of_isFinite finite_end) number, same_end, Int.cast_mul]
      exact far
    · obtain ⟨lo, hlo, admits⟩ := covered
      obtain ⟨-, number_lo⟩ := number_of_le safe_lo
      rw [h.lo_eq lo hlo] at reaches number_lo
      refine admits _ finite ?_
      rw [le_iff number_lo number]
      exact reaches.trans far
  | max bound inclusive =>
    have near : value (m.at k) ≤ (factor m.last : ℚ) * S := by
      rw [same]
      exact_mod_cast mul_le_mul_of_nonneg_right below hS.positive.le
    rcases factors.met_last with meets | reaches
    · obtain ⟨finite_end, same_end⟩ :=
        factors.product hS factors.order le_rfl h.number_last factors.last_eq
      have tested := List.all_eq_true.mp meets _ (List.mem_filter.mpr ⟨member, rfl⟩)
      refine NumberCheck.max_holds_of_le ?_ tested
      rw [le_iff number (number_of_isFinite finite_end), same_end, Int.cast_mul]
      exact near
    · obtain ⟨hi, hhi, admits⟩ := covered
      obtain ⟨number_hi, -⟩ := number_of_le safe_hi
      rw [h.hi_eq hi hhi] at reaches number_hi
      refine admits _ finite ?_
      rw [le_iff number number_hi]
      exact near.trans reaches
  | integral => exact (isIntegral_iff finite).mpr ⟨_, same⟩
  | finite => exact finite
  | multipleOf step =>
    obtain ⟨finite_step, value_eq | value_eq⟩ := h.only_step single hS covered
    · exact NumberCheck.isMultiple_of_value finite_step value_eq hS.positive.ne' finite short same
    · refine NumberCheck.isMultiple_of_value finite_step value_eq (neg_ne_zero.mpr hS.positive.ne')
        finite (k := -k) (by rwa [Int.natAbs_neg]) ?_
      rw [same, neg_mul_neg]

/-- The candidates among the multiples of a step are numbers, which meet all checks if they are
    exact. -/
theorem multiples_yields {m : Multiples} (h : MultiplesOf plan checks m)
    (covered : ∀ check ∈ checks, plan.Covers check) :
    (m.candidate plan).sampler.Yields fun v => ∃ x, v = .number x ∧
      ((m.candidate plan).exact → x.isNaN = false ∧ ∀ check ∈ checks, check.holds x = true) := by
  by_cases exact_there : m.isExact plan = true
  · obtain ⟨S, hS⟩ := h.integralStep (isExact_iff.mp exact_there).2.1
    refine (Candidate.yields_integerRange (h.factors exact_there hS).order).bind fun k hk =>
      Sampler.yields_pure ⟨_, rfl, fun _ => ?_⟩
    obtain ⟨number, meets⟩ := h.holds exact_there hk.1 hk.2
    exact ⟨number, fun check member => meets check member (covered check member)⟩
  · have any : (Candidate.integerRange (factor m.first) (factor m.last)).Yields fun _ => True :=
      fun _ _ => trivial
    exact any.bind fun k _ => Sampler.yields_pure ⟨_, rfl, fun claimed => absurd claimed exact_there⟩

end NumberPlan

/-- Candidates of a number schema come from a plan whose bounds leave room: they are multiples, or the
    plan is free and they lie in its span. -/
theorem numberCandidate_eq_ok {checks : List NumberCheck} {c : Candidate}
    {found : Option NumberPlan.Multiples} (h : numberCandidate checks = .ok (c, found)) :
    ∃ plan, NumberPlan.ofChecks checks = .ok plan ∧ plan.crossed? = none ∧
      ((∃ m, ¬ plan.Free ∧ plan.multiples checks = .ok m ∧ found = some m ∧ c = m.candidate plan) ∨
        (plan.Free ∧ found = none ∧ plan.spanCandidate checks = .ok c)) := by
  unfold numberCandidate at h
  cases planned : NumberPlan.ofChecks checks with
  | error e =>
    rw [planned] at h
    cases h
  | ok plan =>
    rw [planned] at h
    simp only [bind, Except.bind] at h
    split at h
    · cases h
    · rename_i room
      refine ⟨plan, rfl, room, ?_⟩
      split at h
      · rename_i asked
        have unfree : ¬ plan.Free := by
          rintro ⟨broken, unstepped⟩
          simp [broken, unstepped] at asked
        cases multiples : plan.multiples checks with
        | error e =>
          rw [multiples] at h
          cases h
        | ok m =>
          rw [multiples] at h
          cases h
          exact .inl ⟨m, unfree, rfl, rfl, rfl⟩
      · rename_i free
        rw [Bool.or_eq_true, not_or, Bool.not_eq_true, Bool.not_eq_true, Bool.not_eq_false',
          List.isEmpty_iff] at free
        cases candidates : plan.spanCandidate checks with
        | error e =>
          rw [candidates] at h
          cases h
        | ok candidate =>
          rw [candidates] at h
          cases h
          exact .inr ⟨free, rfl, rfl⟩

/-- The candidates of a number schema are numbers, which meet all checks if the candidates are
    exact. -/
theorem numberCandidate_yields {checks : List NumberCheck} {c : Candidate}
    {m : Option NumberPlan.Multiples} (h : numberCandidate checks = .ok (c, m)) :
    c.sampler.Yields fun v => ∃ x, v = .number x ∧
      (c.exact → x.isNaN = false ∧ ∀ check ∈ checks, check.holds x) := by
  obtain ⟨plan, planned, -, ⟨m, -, multiples, rfl, rfl⟩ | ⟨free, rfl, candidates⟩⟩ :=
    numberCandidate_eq_ok h
  · exact NumberPlan.multiples_yields (NumberPlan.multiplesOf_of_ok multiples)
      (NumberPlan.covers_ofChecks planned).2
  · obtain ⟨bounded, covered⟩ := NumberPlan.covers_ofChecks planned
    refine (NumberPlan.spanCandidate_yields bounded free covered candidates).imp fun v => ?_
    rintro ⟨x, rfl, number, meets⟩
    exact ⟨x, rfl, fun _ => ⟨number, meets⟩⟩

end SchemaSampler
