import SchemaSampler.Proofs.Binary64.Order

namespace SchemaSampler.Binary64

open Float.Model (UnpackedFloat totalExponent)
open Float.Model.UnpackedFloat (Sign Accuracy ExtendedMantissa roundWithAccuracy shiftToTargetExponent)

/-!
# Rounding — operations return a neighbour of the exact result

A number `Rounds` a rational if no other number lies between them.  That is less than the nearest
number, but it determines the results that are exact (`Rounds.value_eq`) and the order of a result
and any number (`Rounds.le`, `Rounds.ge`), and it needs no account of ties.
-/

/-! ### Neighbours -/

/-- A number that a rational is rounded to: none lies between them. -/
structure Rounds (q : ℚ) (z : Float) : Prop where
  number : z.isNaN = false
  le : ∀ w : Float, w.isNaN = false → q ≤ value w → value z ≤ value w
  ge : ∀ w : Float, w.isNaN = false → value w ≤ q → value w ≤ value z

variable {q : ℚ} {x y z w : Float}

/-- A rational that is the value of a number is rounded to that value. -/
theorem Rounds.value_eq (h : Rounds q z) (number : w.isNaN = false) (exact_value : value w = q) :
    value z = q := by
  have upper := h.le w number exact_value.ge
  have lower := h.ge w number exact_value.le
  rw [exact_value] at upper lower
  exact le_antisymm upper lower

/-- A number is the rounding of its own value. -/
theorem rounds_value (number : z.isNaN = false) : Rounds (value z) z :=
  ⟨number, fun _ _ h => h, fun _ _ h => h⟩

/-- Opposite rationals are rounded to opposite numbers. -/
theorem Rounds.neg (h : Rounds q z) (number : w.isNaN = false) (opposite : value w = -value z) :
    Rounds (-q) w where
  number := number
  le v hv below := by
    have := h.ge (-v) (by rwa [isNaN_neg]) (by rw [value_neg]; linarith)
    rw [value_neg] at this
    linarith
  ge v hv above := by
    have := h.le (-v) (by rwa [isNaN_neg]) (by rw [value_neg]; linarith)
    rw [value_neg] at this
    linarith

/-! ### Mantissas -/

/-- A mantissa with the bits behind it stands for a rational: it is the integral part, and the bits
    tell whether there is anything behind it. -/
structure Describes (em : ExtendedMantissa) (x : ℚ) : Prop where
  floor_le : (em.mantissa : ℚ) ≤ x
  lt_floor : x < em.mantissa + 1
  exact_iff : (em.roundBit = false ∧ em.stickyBit = false) ↔ x = em.mantissa

/-- A shift by one bit describes the half. -/
theorem Describes.shiftRightOne {em : ExtendedMantissa} {x : ℚ} (h : Describes em x) :
    Describes em.shiftRightOne (x / 2) := by
  obtain ⟨low, high, exact_iff⟩ := h
  have parts : (em.mantissa : ℚ) = 2 * (em.mantissa / 2 : ℕ) + (em.mantissa % 2 : ℕ) := by
    exact_mod_cast (Nat.div_add_mod em.mantissa 2).symm
  have bit : em.mantissa % 2 = 0 ∨ em.mantissa % 2 = 1 := by omega
  refine ⟨?_, ?_, ?_⟩
  · show ((em.mantissa / 2 : ℕ) : ℚ) ≤ x / 2
    have : (0 : ℚ) ≤ (em.mantissa % 2 : ℕ) := Nat.cast_nonneg _
    linarith
  · show x / 2 < ((em.mantissa / 2 : ℕ) : ℚ) + 1
    have : ((em.mantissa % 2 : ℕ) : ℚ) ≤ 1 := by
      rcases bit with h | h <;> rw [h] <;> norm_num
    linarith
  · show ((em.mantissa % 2 != 0) = false ∧ (em.roundBit || em.stickyBit) = false) ↔
      x / 2 = ((em.mantissa / 2 : ℕ) : ℚ)
    rw [Bool.or_eq_false_iff, exact_iff, bne_eq_false_iff_eq]
    constructor
    · rintro ⟨even, whole⟩
      rw [even] at parts
      push_cast at parts
      linarith
    · intro half
      rcases bit with even | odd
      · refine ⟨even, ?_⟩
        rw [even] at parts
        push_cast at parts
        linarith
      · rw [odd] at parts
        push_cast at parts
        linarith

/-- A shift by several bits describes the number over a power of two. -/
theorem Describes.shiftRight {em : ExtendedMantissa} {x : ℚ} (h : Describes em x) (n : ℕ) :
    Describes (em >>> n) (x / 2 ^ n) := by
  show Describes (n.repeat ExtendedMantissa.shiftRightOne em) _
  induction n with
  | zero => simpa [Nat.repeat] using h
  | succ n ih =>
    have step := ih.shiftRightOne
    rw [div_div, ← pow_succ] at step
    exact step

/-- A shift drops the last bits of the mantissa. -/
theorem shiftRight_mantissa (em : ExtendedMantissa) (n : ℕ) :
    (em >>> n).mantissa = em.mantissa / 2 ^ n := by
  show (n.repeat ExtendedMantissa.shiftRightOne em).mantissa = _
  induction n with
  | zero => simp [Nat.repeat]
  | succ n ih =>
    show (n.repeat ExtendedMantissa.shiftRightOne em).mantissa / 2 = _
    rw [ih, Nat.div_div_eq_div_mul, ← pow_succ]

/-- The rounded mantissa is the integral part or the next integer. -/
theorem roundedMantissa_le (em : ExtendedMantissa) :
    em.mantissa ≤ em.roundedMantissa ∧ em.roundedMantissa ≤ em.mantissa + 1 := by
  obtain ⟨m, roundBit, stickyBit⟩ := em
  have bit : m % 2 < 2 := Nat.mod_lt m (by decide)
  cases roundBit <;> cases stickyBit <;>
    simp only [ExtendedMantissa.roundedMantissa, ExtendedMantissa.accuracy,
      Accuracy.roundToNearestEven] <;> omega

/-- Rounding does not go beyond an integer above. -/
theorem Describes.roundedMantissa_le {em : ExtendedMantissa} {x : ℚ} (h : Describes em x) {n : ℕ}
    (below : x ≤ n) : em.roundedMantissa ≤ n := by
  have floor_le : em.mantissa ≤ n := by exact_mod_cast h.floor_le.trans below
  rcases floor_le.lt_or_eq with lt | rfl
  · exact (Binary64.roundedMantissa_le em).2.trans lt
  · obtain ⟨roundBit, stickyBit⟩ := h.exact_iff.mpr (le_antisymm below h.floor_le)
    rw [ExtendedMantissa.roundedMantissa]
    obtain ⟨m, r, s⟩ := em
    cases roundBit
    cases stickyBit
    exact Nat.le_refl _

/-- Rounding does not fall short of an integer below. -/
theorem Describes.le_roundedMantissa {em : ExtendedMantissa} {x : ℚ} (h : Describes em x) {n : ℕ}
    (above : (n : ℚ) ≤ x) : n ≤ em.roundedMantissa := by
  have lt : (n : ℚ) < em.mantissa + 1 := above.trans_lt h.lt_floor
  have le : n ≤ em.mantissa := by
    have : n < em.mantissa + 1 := by exact_mod_cast lt
    omega
  exact le.trans (Binary64.roundedMantissa_le em).1

/-! ### The grid of numbers -/

/-- Numbers have 53 bits, and subnormal ones fewer. -/
theorem targetExponent_eq (total : ℤ) : format.targetExponent total = max (total - 53) (-1074) := rfl

/-- A power of a sum of exponents is a product. -/
theorem zpow_split (a b : ℤ) : (2 : ℚ) ^ (a + b) = 2 ^ a * 2 ^ b := zpow_add₀ (by norm_num) a b

/-- Powers of two are positive. -/
theorem zpow_two_pos (e : ℤ) : (0 : ℚ) < 2 ^ e := zpow_pos (by norm_num) e

/-- A rational at a distance: the integral part that is left of it at an exponent has at most 53
    bits, and all of them if the exponent is not the least. -/
structure Scaled (q : ℚ) (em : ExtendedMantissa) (t : ℤ) : Prop where
  describes : Describes em (q / 2 ^ t)
  short : em.mantissa < 2 ^ 53
  least : -1074 ≤ t
  full : 2 ^ 52 ≤ em.mantissa ∨ t = -1074

/-- On the grid of numbers, the rounded mantissa is a neighbour of the rational. -/
theorem Scaled.le_grid {em : ExtendedMantissa} {t : ℤ} (h : Scaled q em t) {n : ℕ} {f : ℤ}
    (short : n < 2 ^ 53) (least : -1074 ≤ f) (below : q ≤ n * 2 ^ f) :
    (em.roundedMantissa : ℚ) * 2 ^ t ≤ n * 2 ^ f := by
  have positive := zpow_two_pos t
  have scaled : q / 2 ^ t ≤ n * 2 ^ (f - t) := by
    rw [div_le_iff₀ positive, mul_assoc, ← zpow_split, sub_add_cancel]
    exact below
  have exponents : t ≤ f := by
    by_contra lt
    -- The rational has a full mantissa here, so that it lies beyond the numbers below.
    have full : 2 ^ 52 ≤ em.mantissa := h.full.resolve_right (by omega)
    have beyond : (2 : ℚ) ^ (52 : ℤ) ≤ q / 2 ^ t :=
      le_trans (by exact_mod_cast full) h.describes.floor_le
    have before : (n : ℚ) * 2 ^ (f - t) < 2 ^ (52 : ℤ) := by
      have short' : (n : ℚ) < 2 ^ (53 : ℤ) := by exact_mod_cast short
      calc (n : ℚ) * 2 ^ (f - t) < 2 ^ (53 : ℤ) * 2 ^ (f - t) :=
            mul_lt_mul_of_pos_right short' (zpow_two_pos _)
        _ = 2 ^ (53 + (f - t)) := (zpow_split _ _).symm
        _ ≤ 2 ^ (52 : ℤ) := zpow_le_zpow_right₀ (by norm_num) (by omega)
    linarith
  have whole : (n : ℚ) * 2 ^ (f - t) = ((n * 2 ^ (f - t).toNat : ℕ) : ℚ) := by
    push_cast
    rw [← zpow_natCast, Int.toNat_of_nonneg (by omega)]
  rw [whole] at scaled
  have rounded := h.describes.roundedMantissa_le scaled
  calc (em.roundedMantissa : ℚ) * 2 ^ t ≤ ((n * 2 ^ (f - t).toNat : ℕ) : ℚ) * 2 ^ t :=
        mul_le_mul_of_nonneg_right (by exact_mod_cast rounded) positive.le
    _ = n * 2 ^ f := by rw [← whole, mul_assoc, ← zpow_split, sub_add_cancel]

/-- What lies on a grid below a number lies below its rounding. -/
theorem Scaled.grid_le {em : ExtendedMantissa} {t : ℤ} (h : Scaled q em t) {n : ℕ} {f : ℤ}
    (short : n < 2 ^ 53) (least : -1074 ≤ f) (above : n * 2 ^ f ≤ q) :
    n * 2 ^ f ≤ (em.roundedMantissa : ℚ) * 2 ^ t := by
  have positive := zpow_two_pos t
  by_cases exponents : t ≤ f
  · have scaled : (n : ℚ) * 2 ^ (f - t) ≤ q / 2 ^ t := by
      rw [le_div_iff₀ positive, mul_assoc, ← zpow_split, sub_add_cancel]
      exact above
    have whole : (n : ℚ) * 2 ^ (f - t) = ((n * 2 ^ (f - t).toNat : ℕ) : ℚ) := by
      push_cast
      rw [← zpow_natCast, Int.toNat_of_nonneg (by omega)]
    rw [whole] at scaled
    have rounded := h.describes.le_roundedMantissa scaled
    calc (n : ℚ) * 2 ^ f = ((n * 2 ^ (f - t).toNat : ℕ) : ℚ) * 2 ^ t := by
          rw [← whole, mul_assoc, ← zpow_split, sub_add_cancel]
      _ ≤ em.roundedMantissa * 2 ^ t :=
          mul_le_mul_of_nonneg_right (by exact_mod_cast rounded) positive.le
  · have full : 2 ^ 52 ≤ em.roundedMantissa :=
      (h.full.resolve_right (by omega)).trans (roundedMantissa_le em).1
    have short' : (n : ℚ) ≤ 2 ^ (53 : ℤ) := by exact_mod_cast short.le
    have full' : (2 : ℚ) ^ (52 : ℤ) ≤ em.roundedMantissa := by exact_mod_cast full
    calc (n : ℚ) * 2 ^ f ≤ 2 ^ (53 : ℤ) * 2 ^ f :=
          mul_le_mul_of_nonneg_right short' (zpow_two_pos f).le
      _ = 2 ^ (53 + f) := (zpow_split _ _).symm
      _ ≤ 2 ^ (52 + t) := zpow_le_zpow_right₀ (by norm_num) (by omega)
      _ = 2 ^ (52 : ℤ) * 2 ^ t := zpow_split _ _
      _ ≤ em.roundedMantissa * 2 ^ t := mul_le_mul_of_nonneg_right full' positive.le

/-- A number above zero lies on the grid, infinity one step behind the last finite one. -/
theorem exists_grid (number : w.isNaN = false) (positive : 0 < value w) :
    ∃ (n : ℕ) (f : ℤ), n < 2 ^ 53 ∧ -1074 ≤ f ∧ value w = n * 2 ^ f ∧ value w ≤ limit := by
  have canonical := canonical_form w
  rw [isNaN_eq_false_iff] at number
  have sign {s : Sign} {a : ℚ} (above : 0 ≤ a) (h : 0 < unit s * a) : s = .positive := by
    cases s
    · rw [unit] at h
      linarith
    · rfl
  rw [value] at positive ⊢
  cases hw : form w with
  | notANumber => exact absurd hw number
  | zero s =>
    rw [hw, formValue] at positive
    exact absurd positive (lt_irrefl 0)
  | infinity s =>
    rw [hw, formValue] at positive
    obtain rfl := sign limit_pos.le positive
    refine ⟨2 ^ 52, 972, by norm_num, by norm_num, ?_, ?_⟩
    · rw [formValue_infinity_positive, limit, show (1024 : ℤ) = 52 + 972 from rfl, zpow_split]
      congr 1
    · rw [formValue_infinity_positive]
  | finite s m e h =>
    rw [hw] at positive canonical
    rw [formValue] at positive
    obtain rfl := sign (magnitude_pos e h).le positive
    refine ⟨m, e, canonical.1, canonical.2.1, formValue_finite_positive m e h, ?_⟩
    rw [formValue_finite_positive]
    exact (magnitude_lt_limit canonical.1 canonical.2.2.1).le

/-- A number that lies right on the grid, seen from a positive rational, is what it is rounded to. -/
theorem rounds_of_grid {a : ℚ} (number : z.isNaN = false) (hz : value z = min a limit) (hq : 0 < q)
    (nonneg : 0 ≤ a)
    (le : ∀ (n : ℕ) (f : ℤ), n < 2 ^ 53 → -1074 ≤ f → q ≤ n * 2 ^ f → a ≤ n * 2 ^ f)
    (ge : ∀ (n : ℕ) (f : ℤ), n < 2 ^ 53 → -1074 ≤ f → n * 2 ^ f ≤ q → n * 2 ^ f ≤ a) :
    Rounds q z where
  number := number
  le w hw below := by
    obtain ⟨n, f, short, least, same, -⟩ := exists_grid hw (hq.trans_le below)
    rw [hz]
    refine (min_le_left _ _).trans ?_
    rw [same] at below ⊢
    exact le n f short least below
  ge w hw above := by
    rw [hz]
    by_cases positive : 0 < value w
    · obtain ⟨n, f, short, least, same, limited⟩ := exists_grid hw positive
      refine le_min ?_ limited
      rw [same] at above ⊢
      exact ge n f short least above
    · exact (not_lt.mp positive).trans (le_min nonneg limit_pos.le)

/-! ### Rounding a mantissa -/

/-- What is behind a mantissa, as rounding is told about it. -/
theorem describes_ofMantissaAndAccuracy {m : ℕ} {x : ℚ} (low : (m : ℚ) ≤ x) (high : x < m + 1)
    {accuracy : Accuracy} (exact_iff : accuracy = .exact ↔ x = m) :
    Describes (ExtendedMantissa.ofMantissaAndAccuracy m accuracy) x := by
  cases accuracy with
  | «exact» => exact ⟨low, high, ⟨fun _ => exact_iff.mp rfl, fun _ => ⟨rfl, rfl⟩⟩⟩
  | inexact order =>
    have apart : ¬ x = m := fun h => nomatch exact_iff.mpr h
    cases order with
    | lt => exact ⟨low, high, fun bits => Bool.noConfusion bits.2, fun h => absurd h apart⟩
    | eq => exact ⟨low, high, fun bits => Bool.noConfusion bits.1, fun h => absurd h apart⟩
    | gt => exact ⟨low, high, fun bits => Bool.noConfusion bits.1, fun h => absurd h apart⟩

/-- The first shift brings the mantissa to its place on the grid. -/
theorem scaled_shiftToTargetExponent {m : ℕ} {e : ℤ} {accuracy : Accuracy}
    (describes : Describes (ExtendedMantissa.ofMantissaAndAccuracy m accuracy) (q / 2 ^ e))
    (fits : e ≤ format.targetExponent (totalExponent m e)) :
    Scaled q (shiftToTargetExponent format m e accuracy).1
      (shiftToTargetExponent format m e accuracy).2 := by
  have target : format.targetExponent (totalExponent m e) =
      max ((m.log2 : ℤ) + 1 + e - 53) (-1074) := rfl
  simp only [shiftToTargetExponent, UnpackedFloat.shiftToExponent]
  generalize format.targetExponent (totalExponent m e) = t at *
  obtain ⟨k, hk⟩ : ∃ k : ℕ, t = e + k := ⟨(t - e).toNat, by omega⟩
  have amount : (t - e).toNat = k := by omega
  rw [amount, ← hk]
  have mantissa : (ExtendedMantissa.ofMantissaAndAccuracy m accuracy >>> k).mantissa = m / 2 ^ k := by
    rw [shiftRight_mantissa]
    cases accuracy with
    | «exact» => rfl
    | inexact order => cases order <;> rfl
  refine ⟨?_, ?_, ?_, ?_⟩
  · have shifted := describes.shiftRight k
    rw [div_div, ← zpow_natCast, ← zpow_split, ← hk] at shifted
    exact shifted
  · rw [mantissa]
    refine Nat.div_lt_of_lt_mul ?_
    calc m < 2 ^ (m.log2 + 1) := Nat.lt_log2_self
      _ ≤ 2 ^ (k + 53) := Nat.pow_le_pow_right (by decide) (by omega)
      _ = 2 ^ k * 2 ^ 53 := Nat.pow_add 2 k 53
  · omega
  · by_cases subnormal : t = -1074
    · exact Or.inr subnormal
    · refine Or.inl ?_
      have digits : m.log2 = k + 52 := by omega
      have nonzero : m ≠ 0 := by
        rintro rfl
        simp at digits
      rw [mantissa, Nat.le_div_iff_mul_le (Nat.two_pow_pos k), ← Nat.pow_add, Nat.add_comm 52 k, ← digits]
      exact Nat.log2_self_le nonzero

/-- A second shift only puts a mantissa that was rounded up to 54 bits back to 53. -/
theorem shiftToTargetExponent_rounded {r : ℕ} {t : ℤ} (short : r ≤ 2 ^ 53) (least : -1074 ≤ t)
    (full : 2 ^ 52 ≤ r ∨ t = -1074) :
    ∃ (m : ℕ) (e : ℤ), (shiftToTargetExponent format r t .exact).1.mantissa = m ∧
      (shiftToTargetExponent format r t .exact).2 = e ∧ (m : ℚ) * 2 ^ e = r * 2 ^ t ∧
      m < 2 ^ 53 ∧ -1074 ≤ e ∧ (2 ^ 52 ≤ m ∨ e = -1074) := by
  have target : format.targetExponent (totalExponent r t) =
      max ((r.log2 : ℤ) + 1 + t - 53) (-1074) := rfl
  simp only [shiftToTargetExponent, UnpackedFloat.shiftToExponent, shiftRight_mantissa]
  rw [target]
  rcases short.lt_or_eq with lt | rfl
  · have digits : r.log2 ≤ 52 := by
      by_cases zero : r = 0
      · rw [zero]
        decide
      · have := (Nat.log2_lt zero).mpr lt
        omega
    have none_left : (max ((r.log2 : ℤ) + 1 + t - 53) (-1074) - t).toNat = 0 := by omega
    rw [none_left]
    exact ⟨r, t, Nat.div_one r, by simp, rfl, lt, least, full⟩
  · have one_left : (max (((2 ^ 53 : ℕ).log2 : ℤ) + 1 + t - 53) (-1074) - t).toNat = 1 := by
      rw [Nat.log2_two_pow]
      omega
    rw [one_left]
    refine ⟨2 ^ 52, t + 1, by decide, by simp, ?_, by decide, by omega, Or.inl (Nat.le_refl _)⟩
    rw [zpow_split]
    push_cast
    ring

/-- The value of the number of a form with a mantissa that fits. -/
theorem value_ofForm_finite (s : Sign) {m : ℕ} {e : ℤ} (positive : 0 < m) (short : m < 2 ^ 53)
    (least : -1074 ≤ e) (full : 2 ^ 52 ≤ m ∨ e = -1074) :
    (ofForm (.finite s m e positive)).isNaN = false ∧
      value (ofForm (.finite s m e positive)) = unit s * min ((m : ℚ) * 2 ^ e) limit := by
  by_cases most : e ≤ 971
  · have form_eq : form (ofForm (.finite s m e positive)) = .finite s m e positive :=
      form_ofForm ⟨short, least, most, full⟩
    rw [isNaN_eq_false_iff, value, form_eq, min_eq_left (magnitude_lt_limit short most).le]
    exact ⟨by simp, rfl⟩
  · have same : ofForm (.finite s m e positive) = ofForm (.infinity s) := by
      have packed := pack_overflow s positive (by omega : 972 ≤ e)
      simp only [ofForm, Float.Model.pack, packed]
    have form_eq : form (ofForm (.finite s m e positive)) = .infinity s := by
      rw [same]
      exact form_ofForm trivial
    have exceeds : limit ≤ m * 2 ^ e := by
      have full' : (2 : ℚ) ^ (52 : ℤ) ≤ m := by exact_mod_cast full.resolve_right (by omega)
      calc limit = 2 ^ (52 + 972 : ℤ) := rfl
        _ ≤ 2 ^ (52 + e) := zpow_le_zpow_right₀ (by norm_num) (by omega)
        _ = 2 ^ (52 : ℤ) * 2 ^ e := zpow_split _ _
        _ ≤ m * 2 ^ e := mul_le_mul_of_nonneg_right full' (zpow_two_pos e).le
    rw [isNaN_eq_false_iff, value, form_eq, min_eq_right exceeds]
    exact ⟨by simp, rfl⟩

/-- The float of a zero is a number with the value zero. -/
theorem value_ofForm_zero (s : Sign) :
    (ofForm (.zero s)).isNaN = false ∧ value (ofForm (.zero s)) = 0 := by
  have form_eq : form (ofForm (.zero s)) = .zero s := form_ofForm trivial
  rw [isNaN_eq_false_iff, value, form_eq]
  exact ⟨by simp, rfl⟩

/-- What rounding a mantissa at its place gives. -/
theorem value_roundWithAccuracy (s : Sign) {m : ℕ} {e : ℤ} {accuracy : Accuracy}
    (scaled : Scaled q (shiftToTargetExponent format m e accuracy).1
      (shiftToTargetExponent format m e accuracy).2) :
    (ofForm (roundWithAccuracy format s m e accuracy)).isNaN = false ∧
      value (ofForm (roundWithAccuracy format s m e accuracy)) = unit s *
        min (((shiftToTargetExponent format m e accuracy).1.roundedMantissa : ℚ) *
          2 ^ (shiftToTargetExponent format m e accuracy).2) limit := by
  rw [roundWithAccuracy]
  generalize shiftToTargetExponent format m e accuracy = first at *
  obtain ⟨em, t⟩ := first
  simp only at scaled ⊢
  have bounds := roundedMantissa_le em
  have short := scaled.short
  obtain ⟨m', e', hm, he, same, short', least', full'⟩ :=
    shiftToTargetExponent_rounded (by omega : em.roundedMantissa ≤ 2 ^ 53) scaled.least
      (scaled.full.imp_left fun full => full.trans bounds.1)
  rw [← same]
  split
  · rename_i zero
    rw [hm] at zero
    rw [zero, Nat.cast_zero, zero_mul, min_eq_left limit_pos.le, mul_zero]
    exact value_ofForm_zero s
  · rename_i nonzero
    rw [hm] at nonzero
    have final := value_ofForm_finite s (Nat.pos_of_ne_zero nonzero) short' least' full'
    simp only [hm, he]
    exact final

/-- A mantissa with what is told of the bits behind it is rounded to a neighbour. -/
theorem rounds_roundWithAccuracy (s : Sign) {m : ℕ} {e : ℤ} {accuracy : Accuracy} (hq : 0 < q)
    (describes : Describes (ExtendedMantissa.ofMantissaAndAccuracy m accuracy) (q / 2 ^ e))
    (fits : e ≤ format.targetExponent (totalExponent m e)) :
    Rounds (unit s * q) (ofForm (roundWithAccuracy format s m e accuracy)) := by
  have scaled := scaled_shiftToTargetExponent describes fits
  have positive : Rounds q (ofForm (roundWithAccuracy format .positive m e accuracy)) := by
    obtain ⟨number, same⟩ := value_roundWithAccuracy .positive scaled
    rw [unit, one_mul] at same
    exact rounds_of_grid number same hq (mul_nonneg (Nat.cast_nonneg _) (zpow_two_pos _).le)
      (fun n f short least below => scaled.le_grid short least below)
      (fun n f short least above => scaled.grid_le short least above)
  cases s with
  | positive =>
    rw [unit, one_mul]
    exact positive
  | negative =>
    obtain ⟨number, same⟩ := value_roundWithAccuracy .negative scaled
    obtain ⟨-, same'⟩ := value_roundWithAccuracy .positive scaled
    rw [unit, neg_one_mul] at same ⊢
    rw [unit, one_mul] at same'
    exact positive.neg number (by rw [same, same'])

end SchemaSampler.Binary64
