import SchemaSampler.Proofs.Binary64.Operations

namespace SchemaSampler.Binary64

open Float.Model (UnpackedFloat)
open Float.Model.UnpackedFloat (Sign)

/-!
# Integral numbers — rounding to an integer is exact

The integral neighbours of a finite number are those of its value (`value_floor`, `value_ceil`),
and a number with an integral value is its own nearest integral number (`value_nearest`).  A bound
that an integer meets can be rounded towards the integer (`ceil_between`, `floor_between`).
-/

variable {x y : Float}

/-! ### Parts of a number -/

/-- The numerator of a number whose exponent is below zero, with its sign. -/
def numerator (sign : Sign) (mantissa : ℕ) : ℤ := if sign == .negative then -mantissa else mantissa

/-- With a negative exponent the value is a fraction over a power of two. -/
theorem value_eq_div {s : Sign} {m : ℕ} {e : ℤ} {h : 0 < m} (hx : form x = .finite s m e h)
    (below : e < 0) : value x = (numerator s m : ℚ) / ((2 ^ (-e).toNat : ℕ) : ℚ) := by
  have power : (2 : ℚ) ^ e = ((2 ^ (-e).toNat : ℕ) : ℚ)⁻¹ := by
    obtain ⟨k, rfl⟩ : ∃ k : ℕ, e = -k := ⟨(-e).toNat, by omega⟩
    rw [neg_neg, Int.toNat_natCast, zpow_neg, zpow_natCast]
    push_cast
    rfl
  rw [value, hx, formValue, power, div_eq_mul_inv, ← mul_assoc]
  congr 1
  cases s
  · show -1 * (m : ℚ) = ((-m : ℤ) : ℚ)
    push_cast
    ring
  · show 1 * (m : ℚ) = ((m : ℤ) : ℚ)
    push_cast
    ring

/-- Otherwise it is an integer. -/
theorem value_eq_intCast {s : Sign} {m : ℕ} {e : ℤ} {h : 0 < m} (hx : form x = .finite s m e h)
    (above : 0 ≤ e) : value x = ((numerator s (m * 2 ^ e.toNat) : ℤ) : ℚ) := by
  have power : (2 : ℚ) ^ e = ((2 ^ e.toNat : ℕ) : ℚ) := by
    obtain ⟨k, rfl⟩ := Int.eq_ofNat_of_zero_le above
    rw [Int.toNat_natCast, zpow_natCast]
    push_cast
    rfl
  rw [value, hx, formValue, power]
  cases s
  · show -1 * ((m : ℚ) * _) = ((-((m * 2 ^ e.toNat : ℕ) : ℤ) : ℤ) : ℚ)
    push_cast
    ring
  · show 1 * ((m : ℚ) * _) = (((m * 2 ^ e.toNat : ℕ) : ℤ) : ℚ)
    push_cast
    ring

/-- A rational that is an integer. -/
def Whole (q : ℚ) : Prop := ∃ k : ℤ, q = k

/-- The opposite of an integer is one. -/
theorem Whole.neg {q : ℚ} (h : Whole q) : Whole (-q) := by
  obtain ⟨k, rfl⟩ := h
  exact ⟨-k, (Int.cast_neg k).symm⟩

/-- Powers of two are integers. -/
theorem whole_two_pow (n : ℕ) : Whole (2 ^ (n : ℤ)) :=
  ⟨2 ^ n, by rw [zpow_natCast, Int.cast_pow, Int.cast_ofNat]⟩

/-- So is the value that stands for infinity. -/
theorem whole_limit : Whole limit := whole_two_pow 1024

/-- A zero of either sign has the value zero. -/
theorem value_zero {s : Sign} (hx : form x = .zero s) : value x = 0 := by
  rw [value, hx, formValue]

/-! ### Rounding to an integer -/

/-- How a finite number is rounded to an integral one: it is integral already, or its fraction is
    replaced by an integer. -/
theorem roundWith_cases (whole : ℤ → ℕ → ℤ) (finite : x.isFinite = true) :
    (Whole (value x) ∧ roundWith whole x = x) ∨
      ∃ (n : ℤ) (d : ℕ) (negative : Bool), 0 < d ∧ n.natAbs < 2 ^ 53 ∧ value x = (n : ℚ) / d ∧
        roundWith whole x = if whole n d = 0 ∧ negative then -ofInt 0 else ofInt (whole n d) := by
  rw [roundWith, parts?_eq]
  rcases form_finite finite with ⟨s, hx⟩ | ⟨s, m, e, h, hx⟩
  · rw [hx]
    exact Or.inl ⟨⟨0, by rw [value_zero hx, Int.cast_zero]⟩, rfl⟩
  · have canonical := canonical_form x
    rw [hx] at canonical ⊢
    simp only
    by_cases above : 0 ≤ e
    · rw [if_pos above]
      exact Or.inl ⟨⟨_, value_eq_intCast hx above⟩, rfl⟩
    · rw [if_neg above]
      have below : e < 0 := by omega
      refine Or.inr ⟨numerator s m, 2 ^ (-e).toNat, s == .negative, Nat.two_pow_pos _, ?_,
        value_eq_div hx below, rfl⟩
      have short := canonical.1
      rw [numerator]
      split <;> omega

/-- The number that replaces a fraction has the value of the integer. -/
theorem value_replacement {k : ℤ} (small : k.natAbs ≤ 2 ^ 53) (negative : Bool) :
    (if k = 0 ∧ negative then -ofInt 0 else ofInt k : Float).isNaN = false ∧
      value (if k = 0 ∧ negative then -ofInt 0 else ofInt k) = k := by
  split
  · rename_i zero
    rw [isNaN_neg, value_neg, value_ofInt (by decide), zero.1, Int.cast_zero, neg_zero]
    exact ⟨(rounds_ofInt 0).number, rfl⟩
  · exact ⟨(rounds_ofInt k).number, value_ofInt small⟩

/-- The value of the rounded number, where the integers that replace fractions are known. -/
theorem value_roundWith {whole : ℤ → ℕ → ℤ} {result : ℚ → ℤ} (finite : x.isFinite = true)
    (keeps : ∀ k : ℤ, result k = k)
    (replaces : ∀ (n : ℤ) (d : ℕ), 0 < d → whole n d = result ((n : ℚ) / d) ∧
      (whole n d).natAbs ≤ n.natAbs + 1) :
    (roundWith whole x).isNaN = false ∧ value (roundWith whole x) = result (value x) := by
  rcases roundWith_cases whole finite with ⟨⟨k, hk⟩, same⟩ | ⟨n, d, negative, hd, short, hx, same⟩
  · rw [same, hk, keeps]
    exact ⟨number_of_isFinite finite, rfl⟩
  · obtain ⟨eq, bound⟩ := replaces n d hd
    rw [same, hx, ← eq]
    exact value_replacement (by omega) negative

/-- The largest integral number that is not above a number. -/
theorem value_floor (finite : x.isFinite = true) :
    (floor x).isNaN = false ∧ value (floor x) = (⌊value x⌋ : ℤ) := by
  refine value_roundWith finite (fun k => Int.floor_intCast k) fun n d hd => ?_
  have bound := Int.natAbs_ediv_le_natAbs n d
  rw [Int.fdiv_eq_ediv_of_nonneg _ (by omega), Rat.floor_intCast_div_natCast]
  exact ⟨rfl, by omega⟩

/-- The smallest integral number that is not below a number. -/
theorem value_ceil (finite : x.isFinite = true) :
    (ceil x).isNaN = false ∧ value (ceil x) = (⌈value x⌉ : ℤ) := by
  refine value_roundWith finite (fun k => Int.ceil_intCast k) fun n d hd => ?_
  have bound := Int.natAbs_ediv_le_natAbs (-n) d
  rw [Int.fdiv_eq_ediv_of_nonneg _ (by omega)]
  have same : -(-n / (d : ℤ)) = ⌈(n : ℚ) / d⌉ := by
    rw [← Rat.floor_intCast_div_natCast (-n) d, Int.cast_neg, neg_div, Int.floor_neg, neg_neg]
  exact ⟨same, by omega⟩

/-- The integer nearest to a rational, halves away from zero. -/
def nearestInt (q : ℚ) : ℤ := if 0 ≤ q then ⌊q + 1 / 2⌋ else -⌊-q + 1 / 2⌋

/-- An integer is the nearest one to itself. -/
theorem nearestInt_intCast (k : ℤ) : nearestInt k = k := by
  have half : ⌊(1 / 2 : ℚ)⌋ = 0 := by norm_num
  rw [nearestInt]
  split
  · rw [Int.floor_intCast_add, half, add_zero]
  · rw [← Int.cast_neg, Int.floor_intCast_add, half, add_zero, neg_neg]

/-- Rounding a fraction half up is a division of integers. -/
theorem floor_half (n : ℤ) {d : ℕ} (hd : 0 < d) :
    ⌊(n : ℚ) / d + 1 / 2⌋ = (2 * n + d) / (2 * d : ℤ) := by
  have := Rat.floor_intCast_div_natCast (2 * n + d) (2 * d)
  push_cast at this
  rw [← this]
  congr 1
  have nonzero : (d : ℚ) ≠ 0 := by exact_mod_cast hd.ne'
  field_simp

/-- The integral number nearest to a number. -/
theorem value_nearest (finite : x.isFinite = true) :
    (nearest x).isNaN = false ∧ value (nearest x) = (nearestInt (value x) : ℤ) := by
  refine value_roundWith finite nearestInt_intCast fun n d hd => ?_
  have positive : (0 : ℚ) < d := by exact_mod_cast hd
  have sign : (0 : ℚ) ≤ (n : ℚ) / d ↔ 0 ≤ n := by
    rw [le_div_iff₀ positive, zero_mul]
    exact_mod_cast Iff.rfl
  simp only [nearestInt, sign]
  split
  · rw [Int.fdiv_eq_ediv_of_nonneg _ (by omega), floor_half n hd]
    refine ⟨rfl, ?_⟩
    have upper : (2 * n + d) / (2 * d : ℤ) ≤ n + 1 := by
      refine Int.ediv_le_of_le_mul (by omega) ?_
      nlinarith
    have lower : 0 ≤ (2 * n + d) / (2 * d : ℤ) := Int.ediv_nonneg (by omega) (by omega)
    omega
  · rw [Int.fdiv_eq_ediv_of_nonneg _ (by omega), ← neg_div, ← Int.cast_neg, floor_half (-n) hd,
      show 2 * -n = -2 * n by ring]
    refine ⟨rfl, ?_⟩
    have upper : (-2 * n + d) / (2 * d : ℤ) ≤ -n + 1 := by
      refine Int.ediv_le_of_le_mul (by omega) ?_
      nlinarith
    have lower : 0 ≤ (-2 * n + d) / (2 * d : ℤ) := Int.ediv_nonneg (by omega) (by omega)
    omega

/-! ### Integers -/

theorem form_literal_zero : form 0 = .zero .positive := rfl

theorem value_literal_zero : value 0 = 0 := value_zero form_literal_zero

theorem isFinite_literal_zero : (0 : Float).isFinite = true := rfl

/-- The literal one has the value one. -/
theorem value_literal_one : value 1 = 1 := by
  have same : (1 : Float) = ofInt 1 := rfl
  rw [same, value_ofInt (by decide), Int.cast_one]

/-- What has an integer of at most 53 bits as its value is finite. -/
theorem isFinite_of_small {k : ℤ} (number : x.isNaN = false) (same : value x = k)
    (small : k.natAbs ≤ 2 ^ 53) : x.isFinite = true := by
  have bound : |k| ≤ 2 ^ 53 := abs_le.mpr ⟨by omega, by omega⟩
  have large : (2 : ℚ) ^ (53 : ℤ) < limit := zpow_lt_zpow_right₀ (by norm_num) (by norm_num)
  rw [isFinite_iff number, same]
  exact lt_of_le_of_lt (by exact_mod_cast bound) large

/-- A fraction is an integer if its denominator divides. -/
theorem whole_div_iff (s : Sign) (m : ℕ) {d : ℕ} (hd : 0 < d) :
    Whole ((numerator s m : ℚ) / d) ↔ d ∣ m := by
  have nonzero : (d : ℚ) ≠ 0 := by exact_mod_cast hd.ne'
  have size : (numerator s m).natAbs = m := by
    rw [numerator]
    split <;> omega
  constructor
  · rintro ⟨k, hk⟩
    rw [div_eq_iff nonzero] at hk
    have product : numerator s m = k * d := by exact_mod_cast hk
    rw [← size, product, Int.natAbs_mul, Int.natAbs_natCast]
    exact Nat.dvd_mul_left d _
  · rintro ⟨k, rfl⟩
    refine ⟨numerator s k, ?_⟩
    rw [div_eq_iff nonzero]
    have product : numerator s (d * k) = numerator s k * d := by
      rw [numerator, numerator]
      split <;> push_cast <;> ring
    exact_mod_cast congrArg (Int.cast : ℤ → ℚ) product

/-- Integral are the finite numbers with an integral value. -/
theorem isIntegral_iff (finite : x.isFinite = true) : isIntegral x = true ↔ Whole (value x) := by
  rw [isIntegral, parts?_eq]
  rcases form_finite finite with ⟨s, hx⟩ | ⟨s, m, e, h, hx⟩
  · rw [hx]
    simp only
    rw [beq_iff (number_of_isFinite finite) (by rfl), value_literal_zero]
    exact ⟨fun zero => ⟨0, by rw [zero, Int.cast_zero]⟩, fun _ => value_zero hx⟩
  · rw [hx]
    simp only [Bool.or_eq_true, decide_eq_true_eq, beq_iff_eq]
    by_cases above : 0 ≤ e
    · exact iff_of_true (Or.inl above) ⟨_, value_eq_intCast hx above⟩
    · rw [or_iff_right above, ← Nat.dvd_iff_mod_eq_zero, value_eq_div hx (by omega)]
      exact (whole_div_iff s m (Nat.two_pow_pos _)).symm

/-- What is integral is finite. -/
theorem isFinite_of_isIntegral (h : isIntegral x = true) : x.isFinite = true := by
  rw [isIntegral, parts?_eq] at h
  show (form x).isFinite = true
  cases hx : form x with
  | zero s => rfl
  | finite s m e positive => rfl
  | infinity s =>
    rw [hx] at h
    simp only at h
    have number : x.isNaN = false := isNaN_eq_false_iff.mpr (by rw [hx]; simp)
    rw [beq_iff number (by rfl), value_literal_zero, value, hx] at h
    have positive := limit_pos
    cases s
    · rw [formValue_infinity_negative] at h
      linarith
    · rw [formValue_infinity_positive] at h
      linarith
  | notANumber =>
    rw [hx] at h
    simp only at h
    have incomparable : ((form x).compare (form 0) == some .eq) = true := h
    rw [hx] at incomparable
    cases incomparable

/-- The integer that an integral number is. -/
theorem toInt_of_value {k : ℤ} (finite : x.isFinite = true) (hk : value x = k) : toInt x = k := by
  rw [toInt, parts?_eq]
  rcases form_finite finite with ⟨s, hx⟩ | ⟨s, m, e, h, hx⟩
  · rw [value_zero hx] at hk
    rw [hx]
    exact_mod_cast hk
  · rw [hx]
    simp only
    by_cases above : 0 ≤ e
    · rw [value_eq_intCast hx above] at hk
      rw [if_pos above]
      have same : numerator s (m * 2 ^ e.toNat) = k := by exact_mod_cast hk
      rw [← same, numerator]
      rfl
    · have positive := Nat.two_pow_pos (-e).toNat
      rw [value_eq_div hx (by omega)] at hk
      obtain ⟨c, rfl⟩ := (whole_div_iff s m positive).mp ⟨k, hk⟩
      have nonzero : ((2 ^ (-e).toNat : ℕ) : ℚ) ≠ 0 := by exact_mod_cast positive.ne'
      rw [div_eq_iff nonzero] at hk
      have product : numerator s (2 ^ (-e).toNat * c) = k * (2 ^ (-e).toNat : ℕ) := by
        exact_mod_cast hk
      have cancel : numerator s c = k := by
        refine Int.eq_of_mul_eq_mul_right (a := ((2 ^ (-e).toNat : ℕ) : ℤ)) (by omega) ?_
        rw [← product, numerator, numerator]
        split <;> push_cast <;> ring
      rw [if_neg above, ← cancel, numerator,
        show Nat.pow 2 (-e).toNat = 2 ^ (-e).toNat from rfl, Nat.mul_div_cancel_left c positive]

/-! ### Magnitude -/

/-- The absolute value has the form without the sign. -/
theorem form_abs (x : Float) : form x.abs = (form x).abs := by
  refine form_ofForm (u := (form x).abs) ?_
  have canonical := canonical_form x
  cases hx : form x <;> rw [hx] at canonical <;> exact canonical

/-- The absolute value of a number is a number. -/
theorem isNaN_abs (x : Float) : x.abs.isNaN = x.isNaN := by
  show (form x.abs).isNaN = (form x).isNaN
  rw [form_abs]
  cases form x <;> rfl

/-- The absolute value has the absolute value of the value. -/
theorem value_abs (x : Float) : value x.abs = |value x| := by
  rw [value, value, form_abs]
  cases hx : form x with
  | notANumber => rw [UnpackedFloat.abs, formValue, abs_zero]
  | zero s => rw [UnpackedFloat.abs, formValue, formValue, abs_zero]
  | infinity s =>
    rw [UnpackedFloat.abs, formValue_infinity_positive]
    cases s
    · rw [formValue_infinity_negative, abs_neg, abs_of_pos limit_pos]
    · rw [formValue_infinity_positive, abs_of_pos limit_pos]
  | finite s m e h =>
    have positive := magnitude_pos e h
    rw [UnpackedFloat.abs, formValue_finite_positive]
    cases s
    · rw [formValue_finite_negative, abs_neg, abs_of_pos positive]
    · rw [formValue_finite_positive, abs_of_pos positive]

/-! ### Bounds of integers -/

variable {lo hi : Float}

/-- A positive lower bound of an integer, rounded up, lies between the two. -/
theorem ceil_between (finite : x.isFinite = true) (whole : Whole (value x)) (positive : 0 < lo)
    (below : lo ≤ x) : lo.isFinite = true ∧ (ceil lo).isFinite = true ∧
      value (ceil lo) = (⌈value lo⌉ : ℤ) ∧ lo ≤ ceil lo ∧ ceil lo ≤ x ∧
        |value (ceil lo)| ≤ |value x| := by
  obtain ⟨number_lo, number_x⟩ := number_of_le below
  rw [lt_iff number_literal_zero number_lo, value_literal_zero] at positive
  rw [le_iff number_lo number_x] at below
  have finite_lo := isFinite_of_value_between number_lo isFinite_literal_zero finite
    (by rw [value_literal_zero]; exact positive.le) below
  obtain ⟨number, same⟩ := value_ceil finite_lo
  obtain ⟨k, hk⟩ := whole
  have up := Int.le_ceil (value lo)
  have back : (⌈value lo⌉ : ℚ) ≤ value x := by
    rw [hk] at below ⊢
    exact_mod_cast Int.ceil_le.mpr below
  refine ⟨finite_lo, isFinite_of_value_between number finite_lo finite (by rw [same]; exact up)
    (by rw [same]; exact back), same, ?_, ?_, ?_⟩
  · rw [le_iff number_lo number, same]
    exact up
  · rw [le_iff number number_x, same]
    exact back
  · rw [same]
    exact abs_le_abs_of_nonneg (by linarith) back

/-- A negative upper bound of an integer, rounded down, lies between the two. -/
theorem floor_between (finite : x.isFinite = true) (whole : Whole (value x)) (negative : hi < 0)
    (above : x ≤ hi) : hi.isFinite = true ∧ (floor hi).isFinite = true ∧
      value (floor hi) = (⌊value hi⌋ : ℤ) ∧ floor hi ≤ hi ∧ x ≤ floor hi ∧
        |value (floor hi)| ≤ |value x| := by
  obtain ⟨number_x, number_hi⟩ := number_of_le above
  rw [lt_iff number_hi number_literal_zero, value_literal_zero] at negative
  rw [le_iff number_x number_hi] at above
  have finite_hi := isFinite_of_value_between number_hi finite isFinite_literal_zero above
    (by rw [value_literal_zero]; exact negative.le)
  obtain ⟨number, same⟩ := value_floor finite_hi
  obtain ⟨k, hk⟩ := whole
  have down := Int.floor_le (value hi)
  have back : value x ≤ (⌊value hi⌋ : ℚ) := by
    rw [hk] at above ⊢
    exact_mod_cast Int.le_floor.mpr above
  refine ⟨finite_hi, isFinite_of_value_between number finite finite_hi (by rw [same]; exact back)
    (by rw [same]; exact down), same, ?_, ?_, ?_⟩
  · rw [le_iff number number_hi, same]
    exact down
  · rw [le_iff number_x number, same]
    exact back
  · rw [same]
    exact abs_le_abs_of_nonpos (by linarith) back

end SchemaSampler.Binary64
