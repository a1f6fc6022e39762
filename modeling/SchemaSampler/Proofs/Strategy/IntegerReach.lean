import SchemaSampler.Proofs.Parse.Decisions
import SchemaSampler.Proofs.Strategy.NumberAdmission
import SchemaSampler.Proofs.Strategy.NumberCandidates

namespace SchemaSampler

open Binary64

/-!
# Integers within reach — which integer schemas come to an accepted candidate

The checks of a schema for integers are met exactly by the integers between the bounds of its plan
(`IntegerPlan.meets_iff`).  If there is one, the one nearest to zero also lies in the span of the
plan, which only reaches so far where a bound is missing (`IntegerPlan.exists_nearest`).  Its
factor is itself, and it lies between the least and the greatest factor; but factors are brought
into the range where all integers are represented, and so the candidates miss the integers beyond.

* `compileInput_integers` — the schema has candidates, and one of them is accepted exactly if some
  integer of at most 53 bits is.
* `exists_integers_missed` — with a bound beyond that range all candidates are refused.
-/

namespace NumberPlan

variable {plan : NumberPlan} {lo hi y : Float}

/-! ### Default ends -/

theorem isFinite_safeBound : safeBound.isFinite = true := rfl

/-- Where a plan has no lower bound, its span starts a safe integer below zero and below the upper
    bound. -/
theorem spanLo_le (bounded : plan.Bounded) (unbounded : plan.lo = none) :
    plan.spanLo ≤ -safeBound ∧ ∀ hi, plan.hi = some hi → plan.spanLo ≤ hi - safeBound := by
  have number_safe : (-safeBound).isNaN = false := rfl
  rw [spanLo, unbounded, Option.getD_none]
  cases upper : plan.hi with
  | none => exact ⟨(smaller_le number_safe number_literal_zero).1, by simp⟩
  | some hi =>
    have ends := smaller_le number_safe (isNaN_sub (bounded.hi hi upper) isFinite_safeBound)
    exact ⟨ends.1, fun _ same => Option.some.inj same ▸ ends.2⟩

/-- Where a plan has no upper bound, its span ends a safe integer above zero and above the lower
    bound. -/
theorem le_spanHi (bounded : plan.Bounded) (unbounded : plan.hi = none) :
    safeBound ≤ plan.spanHi ∧ ∀ lo, plan.lo = some lo → lo + safeBound ≤ plan.spanHi := by
  have number_safe : safeBound.isNaN = false := rfl
  rw [spanHi, unbounded, Option.getD_none]
  cases lower : plan.lo with
  | none => exact ⟨(le_larger number_safe number_literal_zero).1, by simp⟩
  | some lo =>
    have ends := le_larger number_safe (isNaN_add (bounded.lo lo lower) isFinite_safeBound)
    exact ⟨ends.1, fun _ same => Option.some.inj same ▸ ends.2⟩

/-- A finite number, rounded up, is not more than a safe integer above itself. -/
theorem ceil_le_add (finite : lo.isFinite = true) : ceil lo ≤ lo + safeBound := by
  obtain ⟨number, same⟩ := value_ceil finite
  have sum := rounds_add finite isFinite_safeBound
  rw [value_safeBound] at sum
  rw [le_iff number sum.number]
  refine sum.ge _ number ?_
  rw [same]
  linarith [Int.ceil_lt_add_one (value lo)]

/-- A finite number, rounded down, is not more than a safe integer below itself. -/
theorem sub_le_floor (finite : hi.isFinite = true) : hi - safeBound ≤ floor hi := by
  obtain ⟨number, same⟩ := value_floor finite
  have difference := rounds_sub finite isFinite_safeBound
  rw [value_safeBound] at difference
  rw [le_iff difference.number number]
  refine difference.le _ number ?_
  rw [same]
  linarith [Int.lt_floor_add_one (value hi)]

theorem spanLo_eq (lower : plan.lo = some lo) : plan.spanLo = lo := by
  rw [spanLo, lower, Option.getD_some]

theorem spanHi_eq (upper : plan.hi = some hi) : plan.spanHi = hi := by
  rw [spanHi, upper, Option.getD_some]

/-- The span starts nowhere above a number between the bounds, if not by default. -/
theorem spanLo_le_of_admits (admits : plan.Admits y) (default : plan.lo = none → plan.spanLo ≤ y) :
    plan.spanLo ≤ y := by
  cases lower : plan.lo with
  | none => exact default lower
  | some lo =>
    rw [spanLo_eq lower]
    exact admits.lo lo lower

/-- The span ends nowhere below a number between the bounds, if not by default. -/
theorem le_spanHi_of_admits (admits : plan.Admits y) (default : plan.hi = none → y ≤ plan.spanHi) :
    y ≤ plan.spanHi := by
  cases upper : plan.hi with
  | none => exact default upper
  | some hi =>
    rw [spanHi_eq upper]
    exact admits.hi hi upper

end NumberPlan

/-! ### Plans for integers -/

/-- The plan of checks that ask for integers, and for multiples of nothing else. -/
structure IntegerPlan (checks : List NumberCheck) (plan : NumberPlan) : Prop where
  planned : NumberPlan.ofChecks checks = .ok plan
  integral : .integral ∈ checks
  single : ∀ step, .multipleOf step ∉ checks

namespace IntegerPlan

open NumberPlan

variable {plan : NumberPlan} {checks : List NumberCheck} {x y : Float} {k : ℤ}

theorem steps_eq (h : IntegerPlan checks plan) : plan.steps = [] :=
  List.eq_nil_iff_forall_not_mem.mpr fun step member =>
    h.single step ((asked_ofChecks h.planned).2 step member)

theorem integral_eq (h : IntegerPlan checks plan) : plan.integral = true :=
  (covers_ofChecks h.planned).2 _ h.integral

/-- The checks are met by the integers between the bounds. -/
theorem meets_iff (h : IntegerPlan checks plan) :
    Meets checks x ↔ x.isFinite = true ∧ Whole (value x) ∧ plan.Admits x := by
  constructor
  · rintro ⟨-, holds⟩
    have integral : isIntegral x = true := holds _ h.integral
    have finite := isFinite_of_isIntegral integral
    obtain ⟨plan', planned, admits⟩ := exists_plan holds
    cases planned.symm.trans h.planned
    exact ⟨finite, (isIntegral_iff finite).mp integral, admits⟩
  · rintro ⟨finite, whole, admits⟩
    refine ⟨number_of_isFinite finite, fun check member => ?_⟩
    have bounds := List.all_eq_true.mp (admits.meetsBounds h.planned finite) check
    cases check with
    | min bound inclusive => exact bounds (List.mem_filter.mpr ⟨member, rfl⟩)
    | max bound inclusive => exact bounds (List.mem_filter.mpr ⟨member, rfl⟩)
    | integral => exact (isIntegral_iff finite).mpr whole
    | multipleOf step => exact absurd member (h.single step)
    | finite => exact finite

/-- If an integer meets the checks, so does one in the span of the plan that is no further from
    zero. -/
theorem exists_nearest (h : IntegerPlan checks plan) (meets : Meets checks x) :
    ∃ y, Meets checks y ∧ |value y| ≤ |value x| ∧ plan.spanLo ≤ y ∧ y ≤ plan.spanHi := by
  obtain ⟨finite, whole, admits⟩ := h.meets_iff.mp meets
  have bounded := (covers_ofChecks h.planned).1
  by_cases positive : ∃ lo, plan.lo = some lo ∧ 0 < lo
  · -- All integers lie above zero, and the least one is nearest to it.
    obtain ⟨lo, lower, positive⟩ := positive
    obtain ⟨finite_lo, finite_y, same, above, below, nearer⟩ :=
      ceil_between finite whole positive (admits.lo lo lower)
    have between : plan.Admits (ceil lo) :=
      ⟨fun lo' lower' => Option.some.inj (lower.symm.trans lower') ▸ above,
        fun hi upper => float_le_trans below (admits.hi hi upper)⟩
    refine ⟨ceil lo, h.meets_iff.mpr ⟨finite_y, ⟨_, same⟩, between⟩, nearer,
      spanLo_le_of_admits between fun unbounded => ?_,
      le_spanHi_of_admits between fun unbounded => ?_⟩
    · cases lower.symm.trans unbounded
    · exact float_le_trans (ceil_le_add finite_lo) ((le_spanHi bounded unbounded).2 lo lower)
  · by_cases negative : ∃ hi, plan.hi = some hi ∧ hi < 0
    · -- All integers lie below zero, and the greatest one is nearest to it.
      obtain ⟨hi, upper, negative⟩ := negative
      obtain ⟨finite_hi, finite_y, same, below, above, nearer⟩ :=
        floor_between finite whole negative (admits.hi hi upper)
      have between : plan.Admits (floor hi) :=
        ⟨fun lo lower => float_le_trans (admits.lo lo lower) above,
          fun hi' upper' => Option.some.inj (upper.symm.trans upper') ▸ below⟩
      refine ⟨floor hi, h.meets_iff.mpr ⟨finite_y, ⟨_, same⟩, between⟩, nearer,
        spanLo_le_of_admits between fun unbounded => ?_,
        le_spanHi_of_admits between fun unbounded => ?_⟩
      · exact float_le_trans ((spanLo_le bounded unbounded).2 hi upper) (sub_le_floor finite_hi)
      · cases upper.symm.trans unbounded
    · -- Zero itself lies between the bounds.
      have between : plan.Admits 0 :=
        ⟨fun lo lower => (float_not_lt_iff number_literal_zero (bounded.lo lo lower)).mp
            fun above => positive ⟨lo, lower, above⟩,
          fun hi upper => (float_not_lt_iff (bounded.hi hi upper) number_literal_zero).mp
            fun below => negative ⟨hi, upper, below⟩⟩
      have whole_zero : Whole (value 0) := ⟨0, by rw [value_literal_zero, Int.cast_zero]⟩
      refine ⟨0, h.meets_iff.mpr ⟨isFinite_literal_zero, whole_zero, between⟩, ?_,
        spanLo_le_of_admits between fun unbounded => ?_,
        le_spanHi_of_admits between fun unbounded => ?_⟩
      · rw [value_literal_zero, abs_zero]
        exact abs_nonneg _
      · exact float_le_trans (spanLo_le bounded unbounded).1 (by decide)
      · exact float_le_trans (by decide) (le_spanHi bounded unbounded).1

/-! ### Factors -/

/-- The step between integers. -/
def unitStep : Float := (1 : Float).abs

theorem isFinite_unitStep : unitStep.isFinite = true := rfl

theorem value_unitStep : value unitStep = 1 := by
  rw [unitStep, value_abs, value_literal_one, abs_one]

/-- What the value of a finite number is rounded to has that value. -/
theorem same_of_rounds (finite : x.isFinite = true) (rounds : Rounds (value x) y) :
    y.isFinite = true ∧ value y = value x := by
  have number := number_of_isFinite finite
  have same := rounds.value_eq number rfl
  refine ⟨?_, same⟩
  rw [isFinite_iff rounds.number, same]
  exact (isFinite_iff number).mp finite

/-- Dividing by the step between integers changes nothing. -/
theorem div_unitStep (finite : x.isFinite = true) :
    (x / unitStep).isFinite = true ∧ value (x / unitStep) = value x := by
  have quotient := rounds_div finite isFinite_unitStep (by rw [value_unitStep]; exact one_ne_zero)
  rw [value_unitStep, div_one] at quotient
  exact same_of_rounds finite quotient

/-- Multiplying by the step between integers changes nothing. -/
theorem mul_unitStep (finite : x.isFinite = true) :
    (x * unitStep).isFinite = true ∧ value (x * unitStep) = value x := by
  have product := rounds_mul finite isFinite_unitStep
  rw [value_unitStep, mul_one] at product
  exact same_of_rounds finite product

/-- An infinity that is not above a finite number is the negative one. -/
theorem eq_negInfinity (infinite : Infinite x) (finite : y.isFinite = true) (below : x ≤ y) :
    x = negInfinity := by
  obtain ⟨s, hs⟩ := infinite
  obtain ⟨number_x, number_y⟩ := number_of_le below
  cases s with
  | negative => rw [← ofForm_form number_x, hs]; rfl
  | positive =>
    rw [le_iff number_x number_y, value, hs, formValue_infinity_positive] at below
    exact absurd (finite_bounds finite).2 (not_lt.mpr below)

/-- An infinity that is not below a finite number is the positive one. -/
theorem eq_infinity (infinite : Infinite x) (finite : y.isFinite = true) (above : y ≤ x) :
    x = infinity := by
  obtain ⟨s, hs⟩ := infinite
  obtain ⟨number_y, number_x⟩ := number_of_le above
  cases s with
  | positive => rw [← ofForm_form number_x, hs]; rfl
  | negative =>
    rw [le_iff number_y number_x, value, value, hs, formValue_infinity_negative] at above
    exact absurd (finite_bounds finite).1 (not_lt.mpr above)

/-- The least factor is whole, and not above an integer in the span that meets the checks. -/
theorem firstFactor_le (h : IntegerPlan checks plan) (meets : Meets checks y)
    (above : plan.spanLo ≤ y) :
    (firstFactor checks unitStep plan.spanLo).isNaN = false ∧
      Whole (value (firstFactor checks unitStep plan.spanLo)) ∧
        value (firstFactor checks unitStep plan.spanLo) ≤ value y := by
  obtain ⟨finite, ⟨k, hk⟩, admits⟩ := h.meets_iff.mp meets
  obtain ⟨number_lo, number_y⟩ := number_of_le above
  by_cases finite_lo : plan.spanLo.isFinite = true
  · obtain ⟨finite_q, same_q⟩ := div_unitStep finite_lo
    obtain ⟨number, same⟩ := value_ceil finite_q
    rw [same_q] at same
    have value_above := (le_iff number_lo number_y).mp above
    have up : value plan.spanLo ≤ value (ceil (plan.spanLo / unitStep)) := by
      rw [same]
      exact Int.le_ceil _
    have back : value (ceil (plan.spanLo / unitStep)) ≤ value y := by
      rw [same, hk]
      rw [hk] at value_above
      exact_mod_cast Int.ceil_le.mpr value_above
    have finite_ceil := isFinite_of_value_between number finite_lo finite up back
    obtain ⟨finite_product, same_product⟩ := mul_unitStep finite_ceil
    have number_product := number_of_isFinite finite_product
    -- The least factor itself meets the bounds, so it is not corrected.
    have admitted : plan.Admits (ceil (plan.spanLo / unitStep) * unitStep) := by
      refine ⟨fun lo lower => ?_, fun hi upper => float_le_trans ?_ (admits.hi hi upper)⟩
      · rw [← spanLo_eq lower, le_iff number_lo number_product, same_product]
        exact up
      · rw [le_iff number_product number_y, same_product]
        exact back
    rw [firstFactor, if_pos (admitted.meetsBounds h.planned finite_product)]
    exact ⟨number, ⟨_, same⟩, back⟩
  · -- From minus infinity on the factor is minus infinity, corrected or not.
    have infinite := eq_negInfinity (infinite_of_not_isFinite number_lo finite_lo) finite above
    have kept : firstFactor checks unitStep negInfinity = negInfinity := by
      rw [firstFactor]
      split <;> rfl
    rw [infinite, kept, negInfinity, value_neg, value_infinity]
    exact ⟨rfl, whole_limit.neg, (finite_bounds finite).1.le⟩

/-- The greatest factor is whole, and not below an integer in the span that meets the checks. -/
theorem le_lastFactor (h : IntegerPlan checks plan) (meets : Meets checks y)
    (below : y ≤ plan.spanHi) :
    (lastFactor checks unitStep plan.spanHi).isNaN = false ∧
      Whole (value (lastFactor checks unitStep plan.spanHi)) ∧
        value y ≤ value (lastFactor checks unitStep plan.spanHi) := by
  obtain ⟨finite, ⟨k, hk⟩, admits⟩ := h.meets_iff.mp meets
  obtain ⟨number_y, number_hi⟩ := number_of_le below
  by_cases finite_hi : plan.spanHi.isFinite = true
  · obtain ⟨finite_q, same_q⟩ := div_unitStep finite_hi
    obtain ⟨number, same⟩ := value_floor finite_q
    rw [same_q] at same
    have value_below := (le_iff number_y number_hi).mp below
    have down : value (floor (plan.spanHi / unitStep)) ≤ value plan.spanHi := by
      rw [same]
      exact Int.floor_le _
    have back : value y ≤ value (floor (plan.spanHi / unitStep)) := by
      rw [same, hk]
      rw [hk] at value_below
      exact_mod_cast Int.le_floor.mpr value_below
    have finite_floor := isFinite_of_value_between number finite finite_hi back down
    obtain ⟨finite_product, same_product⟩ := mul_unitStep finite_floor
    have number_product := number_of_isFinite finite_product
    have admitted : plan.Admits (floor (plan.spanHi / unitStep) * unitStep) := by
      refine ⟨fun lo lower => float_le_trans (admits.lo lo lower) ?_, fun hi upper => ?_⟩
      · rw [le_iff number_y number_product, same_product]
        exact back
      · rw [← spanHi_eq upper, le_iff number_product number_hi, same_product]
        exact down
    rw [lastFactor, if_pos (admitted.meetsBounds h.planned finite_product)]
    exact ⟨number, ⟨_, same⟩, back⟩
  · have infinite := eq_infinity (infinite_of_not_isFinite number_hi finite_hi) finite below
    have kept : lastFactor checks unitStep infinity = infinity := by
      rw [lastFactor]
      split <;> rfl
    rw [infinite, kept, value_infinity]
    exact ⟨rfl, whole_limit, (finite_bounds finite).2.le⟩

/-- A whole factor is brought into the range where integers are represented. -/
theorem factor_eq (number : x.isNaN = false) (same : value x = k) :
    factor x = max (-2 ^ 53) (min (2 ^ 53) k) := by
  have bound : exactBound = 2 ^ 53 := by decide
  have ends (n : ℤ) (small : n.natAbs ≤ 2 ^ 53) :
      (ofInt n).isNaN = false ∧ value (ofInt n) = n :=
    ⟨(rounds_ofInt n).number, value_ofInt small⟩
  by_cases small : k.natAbs ≤ 2 ^ 53
  · rw [factor_of_value small number same]
    omega
  · obtain ⟨number_lo, value_lo⟩ := ends (-exactBound) (by rw [bound]; decide)
    obtain ⟨number_hi, value_hi⟩ := ends exactBound (by rw [bound]; decide)
    have low : x < ofInt (-exactBound) ↔ k < -2 ^ 53 := by
      rw [lt_iff number number_lo, value_lo, same, Int.cast_lt, bound]
    have high : ofInt exactBound < x ↔ 2 ^ 53 < k := by
      rw [lt_iff number_hi number, value_hi, same, Int.cast_lt, bound]
    by_cases below : k < -2 ^ 53
    · rw [factor, if_pos (low.mpr below), bound]
      omega
    · rw [factor, if_neg fun h => below (low.mp h), if_pos (high.mpr (by omega)), bound]
      omega

/-! ### Candidates -/

/-- Checks for integers that some number meets have candidates: the integers from the least to the
    greatest factor. -/
theorem exists_candidate (h : IntegerPlan checks plan) (meets : Meets checks x) :
    ∃ m : Multiples, numberCandidate checks = .ok (m.candidate plan, some m) ∧
      m.step = unitStep ∧ m.first = firstFactor checks unitStep plan.spanLo ∧
        m.last = lastFactor checks unitStep plan.spanHi := by
  obtain ⟨y, meets_y, -, above, below⟩ := h.exists_nearest meets
  obtain ⟨number_first, -, first_le⟩ := h.firstFactor_le meets_y above
  obtain ⟨number_last, -, le_last⟩ := h.le_lastFactor meets_y below
  have order : ¬ lastFactor checks unitStep plan.spanHi < firstFactor checks unitStep plan.spanLo := by
    rw [float_not_lt_iff number_last number_first, le_iff number_first number_last]
    exact first_le.trans le_last
  have step_eq : (plan.steps.headD 1).abs = unitStep := by
    rw [h.steps_eq]
    rfl
  have step_fits : (unitStep == 0 || !unitStep.isFinite) = false := by decide
  have multiples : plan.multiples checks = .ok ⟨unitStep, plan.spanLo, plan.spanHi,
      firstFactor checks unitStep plan.spanLo, lastFactor checks unitStep plan.spanHi⟩ := by
    rw [multiples_eq]
    simp only [step_eq, step_fits, number_first, number_last, order, decide_false, Bool.or_self,
      Bool.false_eq_true, if_false]
  obtain ⟨-, -, admits⟩ := h.meets_iff.mp meets
  refine ⟨⟨unitStep, plan.spanLo, plan.spanHi, firstFactor checks unitStep plan.spanLo,
    lastFactor checks unitStep plan.spanHi⟩, ?_, rfl, rfl, rfl⟩
  rw [numberCandidate, h.planned]
  simp only [bind, Except.bind, admits.crossed?_eq_none, h.integral_eq, Bool.true_or, if_true, multiples]
  rfl

/-- What the factor of an integer of at most 53 bits is multiplied to. -/
theorem at_eq {m : Multiples} (step : m.step = unitStep) (small : k.natAbs ≤ 2 ^ 53) :
    (m.at k).isNaN = false ∧ value (m.at k) = k := by
  have same := value_ofInt small
  have finite := isFinite_of_small (rounds_ofInt k).number same small
  obtain ⟨finite_product, same_product⟩ := mul_unitStep finite
  rw [Multiples.at, step]
  exact ⟨number_of_isFinite finite_product, same_product.trans same⟩

/-- A candidate that meets the checks comes up exactly if an integer of at most 53 bits meets
    them. -/
theorem reaches_iff (h : IntegerPlan checks plan) {m : Multiples} (meets : Meets checks x)
    (step : m.step = unitStep) (first : m.first = firstFactor checks unitStep plan.spanLo)
    (last : m.last = lastFactor checks unitStep plan.spanHi) :
    (∃ y, (m.candidate plan).sampler.Reaches (.number y) ∧ Meets checks y) ↔
      ∃ k : ℤ, k.natAbs ≤ 2 ^ 53 ∧ Meets checks (ofInt k) := by
  constructor
  · rintro ⟨y, reached, meets_y⟩
    obtain ⟨z, meets_z, -, above, below⟩ := h.exists_nearest meets
    obtain ⟨number_first, ⟨a, ha⟩, first_le⟩ := h.firstFactor_le meets_z above
    obtain ⟨number_last, ⟨b, hb⟩, le_last⟩ := h.le_lastFactor meets_z below
    have order : a ≤ b := by exact_mod_cast ha ▸ hb ▸ first_le.trans le_last
    have low := factor_eq number_first ha
    have high := factor_eq number_last hb
    have small : (m.candidate plan).sampler.Yields fun v =>
        ∃ k : ℤ, k.natAbs ≤ 2 ^ 53 ∧ v = .number (m.at k) := by
      refine (Candidate.yields_integerRange ?_).bind fun k hk =>
        Sampler.yields_pure ⟨k, ?_, rfl⟩
      · rw [first, last, low, high]
        omega
      · rw [first, last, low, high] at hk
        omega
    obtain ⟨k, bits, same⟩ := small.of_reaches reached
    cases same
    obtain ⟨number, value_eq⟩ := at_eq step bits
    refine ⟨k, bits, (meets_congr number (rounds_ofInt k).number ?_).mp meets_y⟩
    rw [value_eq, value_ofInt bits]
  · rintro ⟨k, bits, meets_k⟩
    obtain ⟨y, meets_y, nearer, above, below⟩ := h.exists_nearest meets_k
    obtain ⟨number_first, ⟨a, ha⟩, first_le⟩ := h.firstFactor_le meets_y above
    obtain ⟨number_last, ⟨b, hb⟩, le_last⟩ := h.le_lastFactor meets_y below
    obtain ⟨-, ⟨n, hn⟩, -⟩ := h.meets_iff.mp meets_y
    rw [value_ofInt bits, hn] at nearer
    have closer : n.natAbs ≤ k.natAbs := by
      zify
      exact_mod_cast nearer
    have bits_n : n.natAbs ≤ 2 ^ 53 := closer.trans bits
    rw [ha, hn, Int.cast_le] at first_le
    rw [hb, hn, Int.cast_le] at le_last
    have low := factor_eq number_first ha
    have high := factor_eq number_last hb
    obtain ⟨number, value_eq⟩ := at_eq step bits_n
    refine ⟨m.at n, Sampler.Reaches.map (Candidate.reaches_integerRange ?_ ?_)
      fun k => Value.number (m.at k), ?_⟩
    · rw [first, low]
      omega
    · rw [last, high]
      omega
    · exact (meets_congr number meets_y.1 (value_eq.trans hn.symm)).mpr meets_y

end IntegerPlan

/-! ### Compiling -/

section Compiling

variable {config : Config} {resolver : Resolver} {cell : Cell} {path : Path} {id : SchemaId}
  {checks : List NumberCheck} {x : Float}

/-- **Integers come up as far as they are represented.**  A schema for integers without further
    multiples that accepts a number compiles, to the candidates between a least and a greatest
    factor.  One of them is accepted exactly if the schema accepts an integer of at most 53 bits;
    otherwise all accepted numbers lie beyond the candidates. -/
theorem compileInput_integers (free : resolver id = none) (integral : .integral ∈ checks)
    (single : ∀ step, .multipleOf step ∉ checks) (definitions : Definitions) (site : Site)
    (accepted : (Schema.node id (.number checks)).AcceptsAt definitions site (.number x)) :
    let s : Schema := .node id (.number checks)
    ∃ c m, numberCandidate checks = .ok (c, some m) ∧
      (compileInput config resolver s cell path).outcome = .ok (config.settle cell path s c) ∧
      ((∃ y, c.sampler.Reaches (.number y) ∧ s.AcceptsAt definitions site (.number y)) ↔
        ∃ k : ℤ, k.natAbs ≤ 2 ^ 53 ∧ s.AcceptsAt definitions site (.number (ofInt k))) := by
  intro s
  have meets : Meets checks x := Schema.acceptsAt_number_iff.mp accepted
  obtain ⟨plan, planned, -⟩ := NumberPlan.exists_plan meets.2
  have h : IntegerPlan checks plan := ⟨planned, integral, single⟩
  obtain ⟨m, candidates, step, first, last⟩ := h.exists_candidate meets
  have compiled : (compileInput config resolver s cell path).outcome = _ := compileInput_number free
  rw [candidates] at compiled
  refine ⟨_, m, candidates, compiled, ?_⟩
  have accepts (y : Float) : s.AcceptsAt definitions site (.number y) ↔ Meets checks y :=
    Schema.acceptsAt_number_iff
  simp only [accepts]
  exact h.reaches_iff meets step first last

/-- Integers above a half: one comes up. -/
theorem compileInput_integers_half :
    let s : Schema := .node 0 (.number [.integral, .min 0.5 true])
    ∃ c m, numberCandidate [.integral, .min 0.5 true] = .ok (c, some m) ∧
      (compileInput .standard Resolver.empty s [] .root).outcome =
        .ok (Config.standard.settle [] .root s c) ∧
      ∃ y, c.sampler.Reaches (.number y) ∧ s.AcceptsAt (fun _ => none) [] (.number y) := by
  intro s
  have accepted : s.AcceptsAt (fun _ => none) [] (.number (ofInt 1)) := ⟨1, _, rfl⟩
  obtain ⟨c, m, candidates, compiled, reaches⟩ :=
    @compileInput_integers .standard Resolver.empty [] .root 0 _ _ rfl (by simp) (by simp) _ _ accepted
  exact ⟨c, m, candidates, compiled, reaches.mpr ⟨1, by decide, accepted⟩⟩

/-- Integers from `10 ^ 17` on: the bound itself is accepted, and no candidate is. -/
theorem exists_integers_missed :
    let checks : List NumberCheck := [.integral, .min 1e17 true]
    let s : Schema := .node 0 (.number checks)
    s.AcceptsAt (fun _ => none) [] (.number 1e17) ∧
      ∀ c m, numberCandidate checks = .ok (c, m) → ∀ y, c.sampler.Reaches (.number y) →
        ¬ s.AcceptsAt (fun _ => none) [] (.number y) := by
  intro checks s
  have bound_accepted : s.AcceptsAt (fun _ => none) [] (.number 1e17) := ⟨1, _, rfl⟩
  refine ⟨bound_accepted, fun c m candidates y reached accepted => ?_⟩
  have meets := Schema.acceptsAt_number_iff.mp bound_accepted
  obtain ⟨plan, planned, -⟩ := NumberPlan.exists_plan meets.2
  have h : IntegerPlan checks plan := ⟨planned, by simp [checks], by simp [checks]⟩
  obtain ⟨m', known, step, first, last⟩ := h.exists_candidate meets
  cases known.symm.trans candidates
  obtain ⟨k, bits, -, holds⟩ := (h.reaches_iff meets step first last).mp
    ⟨y, reached, Schema.acceptsAt_number_iff.mp accepted⟩
  -- An integer of at most 53 bits is below the bound.
  have above : (1e17 : Float) ≤ ofInt k := of_decide_eq_true (holds (.min 1e17 true) (by simp [checks]))
  have beyond : ofInt (2 ^ 53) < 1e17 := by decide
  have between := float_lt_of_lt_of_le beyond above
  obtain ⟨number_lo, number_k⟩ := number_of_lt between
  rw [lt_iff number_lo number_k, value_ofInt (by decide), value_ofInt bits, Int.cast_lt] at between
  omega

end Compiling

end SchemaSampler
