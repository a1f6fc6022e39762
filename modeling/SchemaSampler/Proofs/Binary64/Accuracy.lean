import SchemaSampler.Proofs.Binary64.Integral

namespace SchemaSampler.Binary64

/-!
# Accuracy — how far a rounded result lies from the exact one

* `Rounds.near` — a result of moderate size differs from the exact one by at most its
  `roundoff`-th part, the distance of adjacent numbers.
* `nearestInt_le` — no integer is closer to a rational than its nearest one.
* `value_larger` — the larger of two numbers has the larger value.
-/

variable {q : ℚ} {x y z : Float}

/-- The distance of adjacent numbers in proportion to their size, at most. -/
def roundoff : ℚ := 2 ^ (-52 : ℤ)

theorem roundoff_pos : 0 < roundoff := zpow_two_pos _

/-- A positive rational lies between two adjacent numbers with a full mantissa. -/
theorem exists_adjacent (positive : 0 < q) : ∃ (m : ℕ) (e : ℤ), 2 ^ 52 ≤ m ∧ m < 2 ^ 53 ∧
    (m : ℚ) * 2 ^ e ≤ q ∧ q < ((m + 1 : ℕ) : ℚ) * 2 ^ e := by
  obtain ⟨n, low, high⟩ := exists_mem_Ico_zpow positive (one_lt_two : (1 : ℚ) < 2)
  have unit_pos : (0 : ℚ) < 2 ^ (n - 52) := zpow_two_pos _
  -- The mantissa is what is left of the digits when the exponent is taken out.
  have scaled_low : (2 : ℚ) ^ (52 : ℤ) ≤ q / 2 ^ (n - 52) := by
    rw [le_div_iff₀ unit_pos, ← zpow_split]
    rwa [show (52 : ℤ) + (n - 52) = n by ring]
  have scaled_high : q / 2 ^ (n - 52) < (2 : ℚ) ^ (53 : ℤ) := by
    rw [div_lt_iff₀ unit_pos, ← zpow_split]
    rwa [show (53 : ℤ) + (n - 52) = n + 1 by ring]
  have nonneg : 0 ≤ q / 2 ^ (n - 52) := (div_pos positive unit_pos).le
  refine ⟨⌊q / 2 ^ (n - 52)⌋₊, n - 52, ?_, ?_, ?_, ?_⟩
  · rw [Nat.le_floor_iff nonneg]
    exact_mod_cast scaled_low
  · rw [Nat.floor_lt nonneg]
    exact_mod_cast scaled_high
  · rw [← le_div_iff₀ unit_pos]
    exact Nat.floor_le nonneg
  · rw [← div_lt_iff₀ unit_pos]
    push_cast
    exact Nat.lt_floor_add_one _

/-- The exponent of a number with a full mantissa is that of its size. -/
theorem exponent_bounds {m : ℕ} {e : ℤ} (full : 2 ^ 52 ≤ m) (short : m < 2 ^ 53)
    (low : (2 : ℚ) ^ (-200 : ℤ) < ((m + 1 : ℕ) : ℚ) * 2 ^ e) (high : (m : ℚ) * 2 ^ e ≤ 2 ^ (200 : ℤ)) :
    -1074 ≤ e ∧ e ≤ 970 := by
  have unit_pos : (0 : ℚ) < 2 ^ e := zpow_two_pos e
  -- The mantissa accounts for 52 or 53 binary digits, the exponent for the rest.
  constructor
  · have : (2 : ℚ) ^ (-200 : ℤ) < 2 ^ (53 + e) := by
      refine low.trans_le ?_
      rw [zpow_split]
      exact mul_le_mul_of_nonneg_right (by exact_mod_cast short) unit_pos.le
    have := (zpow_lt_zpow_iff_right₀ (one_lt_two : (1 : ℚ) < 2)).mp this
    omega
  · have : (2 : ℚ) ^ (52 + e) ≤ 2 ^ (200 : ℤ) := by
      refine le_trans ?_ high
      rw [zpow_split]
      exact mul_le_mul_of_nonneg_right (by exact_mod_cast full) unit_pos.le
    have := (zpow_le_zpow_iff_right₀ (one_lt_two : (1 : ℚ) < 2)).mp this
    omega

theorem Rounds.near_of_pos (h : Rounds q z) (least : 2 ^ (-200 : ℤ) ≤ q)
    (most : q ≤ 2 ^ (200 : ℤ)) : |value z - q| ≤ q * roundoff := by
  have positive : 0 < q := (zpow_two_pos _).trans_le least
  obtain ⟨m, e, full, short, below, above⟩ := exists_adjacent positive
  obtain ⟨leastE, mostE⟩ := exponent_bounds full short (least.trans_lt above) (below.trans most)
  obtain ⟨lower, number_lower, value_lower⟩ := exists_value short.le leastE mostE
  obtain ⟨upper, number_upper, value_upper⟩ := exists_value (m := m + 1) (by omega) leastE mostE
  have from_below := h.ge lower number_lower (value_lower.trans_le below)
  have from_above := h.le upper number_upper (above.le.trans_eq value_upper.symm)
  rw [value_lower] at from_below
  rw [value_upper] at from_above
  -- Both lie between the same two numbers, which are one unit apart.
  have unit_le : (2 : ℚ) ^ e ≤ q * roundoff := by
    have full' : (2 : ℚ) ^ (52 : ℤ) ≤ m := by exact_mod_cast full
    calc (2 : ℚ) ^ e = 2 ^ (52 : ℤ) * 2 ^ e * roundoff := by
          rw [roundoff, mul_comm ((2 : ℚ) ^ (52 : ℤ)), mul_assoc, ← zpow_split]
          norm_num
      _ ≤ m * 2 ^ e * roundoff := by
          have := (zpow_two_pos e).le
          have := roundoff_pos.le
          gcongr
      _ ≤ q * roundoff := mul_le_mul_of_nonneg_right below roundoff_pos.le
  push_cast at above from_above
  rw [abs_le]
  constructor <;> linarith

/-- A result of moderate size differs from the exact one by a small part of it. -/
theorem Rounds.near (h : Rounds q z) (least : 2 ^ (-200 : ℤ) ≤ |q|) (most : |q| ≤ 2 ^ (200 : ℤ)) :
    |value z - q| ≤ |q| * roundoff := by
  -- The results of opposite rationals are opposite.
  rcases le_total 0 q with nonneg | nonpos
  · rw [abs_of_nonneg nonneg] at least most ⊢
    exact h.near_of_pos least most
  · rw [abs_of_nonpos nonpos] at least most ⊢
    have opposite : Rounds (-q) (-z) := h.neg (by rw [isNaN_neg, h.number]) (value_neg z)
    have near := opposite.near_of_pos least most
    rwa [value_neg, neg_sub_neg, abs_sub_comm] at near

/-- A result is bounded by a number that bounds the exact one. -/
theorem Rounds.abs_value_le (h : Rounds q z) (number : x.isNaN = false) (bound : |q| ≤ value x) :
    |value z| ≤ value x := by
  obtain ⟨below, above⟩ := abs_le.mp bound
  have lower := h.ge (-x) (by rwa [isNaN_neg]) (by rwa [value_neg])
  rw [value_neg] at lower
  exact abs_le.mpr ⟨lower, h.le x number above⟩

/-- Integers of moderate size are rounded to finite numbers. -/
theorem isFinite_ofInt {n : ℤ} (moderate : n.natAbs ≤ 2 ^ 64) : (ofInt n).isFinite = true := by
  have rounded := rounds_ofInt n
  obtain ⟨w, number, same⟩ :=
    exists_value (m := 1) (e := 64) (by norm_num) (by norm_num) (by norm_num)
  rw [Nat.cast_one, one_mul] at same
  have bound : |(n : ℚ)| ≤ value w := by
    have : |n| ≤ 2 ^ 64 := by
      rw [Int.abs_eq_natAbs]
      exact_mod_cast moderate
    rw [same]
    exact_mod_cast this
  have far : value w < limit := by
    rw [same]
    exact zpow_lt_zpow_right₀ (by norm_num) (by norm_num)
  exact (isFinite_iff rounded.number).mpr (lt_of_le_of_lt (rounded.abs_value_le number bound) far)

/-! ### The nearest integer -/

/-- No rational is further than one half from its nearest integer. -/
theorem abs_sub_nearestInt_le (q : ℚ) : |q - nearestInt q| ≤ 1 / 2 := by
  have half {r : ℚ} : |r - (⌊r + 1 / 2⌋ : ℤ)| ≤ 1 / 2 := by
    have := Int.floor_le (r + 1 / 2)
    have := Int.lt_floor_add_one (r + 1 / 2)
    rw [abs_le]
    constructor <;> linarith
  rw [nearestInt]
  split
  · exact half
  · have opposite := half (r := -q)
    rw [← abs_neg] at opposite
    push_cast
    rwa [neg_sub, sub_neg_eq_add, add_comm, ← sub_neg_eq_add] at opposite

/-- No integer is closer to a rational than its nearest one. -/
theorem nearestInt_le (q : ℚ) (k : ℤ) : |q - nearestInt q| ≤ |q - k| := by
  have half := abs_sub_nearestInt_le q
  by_cases same : nearestInt q = k
  · rw [same]
  · have apart : (1 : ℚ) ≤ |(nearestInt q : ℚ) - k| := by
      have : 1 ≤ |nearestInt q - k| := Int.one_le_abs (sub_ne_zero.mpr same)
      exact_mod_cast this
    have triangle := abs_sub_le (nearestInt q : ℚ) q k
    rw [abs_sub_comm (nearestInt q : ℚ) q] at triangle
    linarith

/-! ### Comparison -/

theorem value_larger (hx : x.isNaN = false) (hy : y.isNaN = false) :
    value (larger x y) = max (value x) (value y) := by
  rw [larger]
  split
  · rename_i less
    rw [max_eq_left ((lt_iff hy hx).mp less).le]
  · rename_i not_less
    rw [max_eq_right (not_lt.mp fun less => not_less ((lt_iff hy hx).mpr less))]

end SchemaSampler.Binary64
