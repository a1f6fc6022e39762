import SchemaSampler.Proofs.Binary64.Rounding

namespace SchemaSampler.Binary64

open Float.Model (UnpackedFloat totalExponent)
open Float.Model.UnpackedFloat (Sign Accuracy ExtendedMantissa roundWithAccuracy)

/-!
# Arithmetic of binary64 numbers — results are rounded

* `rounds_mul`, `rounds_div`, `rounds_add`, `rounds_sub` — an operation on finite numbers returns a
  neighbour of the exact result.
* `value_ofInt` — integers up to `2 ^ 53` are represented.
-/

variable {q : ℚ} {x y z w : Float}

/-! ### Products -/

/-- A float with the value zero is the rounding of zero. -/
theorem rounds_zero (number : z.isNaN = false) (h : value z = 0) : Rounds 0 z := by
  have := rounds_value number
  rwa [h] at this

/-- An exact mantissa describes itself. -/
theorem describes_exact (m : ℕ) :
    Describes (ExtendedMantissa.ofMantissaAndAccuracy m .exact) (m : ℚ) :=
  describes_ofMantissaAndAccuracy le_rfl (lt_add_one _) (iff_of_true rfl rfl)

/-- A full mantissa has 53 bits. -/
theorem le_log2 {m : ℕ} (full : 2 ^ 52 ≤ m) : 52 ≤ m.log2 :=
  (Nat.le_log2 (by omega)).mpr full

/-- Signs multiply as their units do. -/
theorem unit_mul (s t : Sign) : unit (s * t) = unit s * unit t := by
  cases s <;> cases t
  · exact (by norm_num : (1 : ℚ) = -1 * -1)
  · exact (by norm_num : (-1 : ℚ) = -1 * 1)
  · exact (by norm_num : (-1 : ℚ) = 1 * -1)
  · exact (by norm_num : (1 : ℚ) = 1 * 1)

/-- The product of finite numbers. -/
theorem rounds_mul (hx : x.isFinite = true) (hy : y.isFinite = true) :
    Rounds (value x * value y) (x * y) := by
  have product : x * y = ofForm (UnpackedFloat.mul format (form x) (form y)) := rfl
  have cx := canonical_form x
  have cy := canonical_form y
  rw [product, value, value]
  rcases form_finite hx with ⟨s, fx⟩ | ⟨s, m, e, hm, fx⟩ <;>
    rcases form_finite hy with ⟨t, fy⟩ | ⟨t, n, f, hn, fy⟩ <;> rw [fx, fy]
  · simp only [formValue, zero_mul]
    exact rounds_zero (value_ofForm_zero _).1 (value_ofForm_zero _).2
  · simp only [formValue, zero_mul]
    exact rounds_zero (value_ofForm_zero _).1 (value_ofForm_zero _).2
  · simp only [formValue, mul_zero]
    exact rounds_zero (value_ofForm_zero _).1 (value_ofForm_zero _).2
  · rw [fx] at cx
    rw [fy] at cy
    obtain ⟨shortM, leastE, -, fullM⟩ := cx
    obtain ⟨shortN, leastF, -, fullN⟩ := cy
    have exact_value : unit s * (m * 2 ^ e) * (unit t * (n * 2 ^ f)) =
        unit (s * t) * (((m * n : ℕ) : ℚ) * 2 ^ (e + f)) := by
      rw [unit_mul, zpow_split]
      push_cast
      ring
    rw [formValue, formValue, exact_value]
    refine rounds_roundWithAccuracy _ (magnitude_pos _ (Nat.mul_pos hm hn)) ?_ ?_
    · rw [mul_div_cancel_right₀ _ (zpow_two_pos _).ne']
      exact describes_exact _
    · rw [targetExponent_eq]
      show e + f ≤ max (((m * n).log2 : ℤ) + 1 + (e + f) - 53) (-1074)
      by_cases full : 2 ^ 52 ≤ m * n
      · have := le_log2 full
        omega
      · -- Only two subnormal numbers have so short a product, and their exponents are the least.
        have small : m < 2 ^ 52 := by
          by_contra large
          have := Nat.mul_le_mul (not_lt.mp large) hn
          omega
        have small' : n < 2 ^ 52 := by
          by_contra large
          have := Nat.mul_le_mul hm (not_lt.mp large)
          omega
        omega

/-! ### Quotients -/

/-- Signs divide as they multiply. -/
theorem unit_div (s t : Sign) : unit (s / t) = unit s * unit t := by
  cases s <;> cases t
  · exact (by norm_num : (1 : ℚ) = -1 * -1)
  · exact (by norm_num : (-1 : ℚ) = -1 * 1)
  · exact (by norm_num : (-1 : ℚ) = 1 * -1)
  · exact (by norm_num : (1 : ℚ) = 1 * 1)

/-- A unit is its own inverse. -/
theorem unit_mul_self (s : Sign) : unit s * unit s = 1 := by
  cases s <;> norm_num [unit]

/-- The integral quotient of two numbers, with what is told of the rest. -/
theorem describes_quotient (m : ℕ) {n : ℕ} (hn : 0 < n) :
    Describes (ExtendedMantissa.ofMantissaAndAccuracy (m / n)
      (UnpackedFloat.accuracyOfFraction (m % n) n)) ((m : ℚ) / n) := by
  have positive : (0 : ℚ) < n := by exact_mod_cast hn
  have parts : (m : ℚ) = n * (m / n : ℕ) + (m % n : ℕ) := by
    exact_mod_cast (Nat.div_add_mod m n).symm
  have rest : ((m % n : ℕ) : ℚ) < n := by exact_mod_cast Nat.mod_lt m hn
  have rest' : (0 : ℚ) ≤ (m % n : ℕ) := Nat.cast_nonneg _
  refine describes_ofMantissaAndAccuracy ?_ ?_ ?_
  · rw [le_div_iff₀ positive]
    linarith
  · rw [div_lt_iff₀ positive]
    linarith
  · rw [div_eq_iff positive.ne', UnpackedFloat.accuracyOfFraction]
    by_cases zero : m % n = 0
    · rw [if_pos zero]
      refine iff_of_true rfl ?_
      rw [zero] at parts
      push_cast at parts
      linarith
    · rw [if_neg zero]
      refine iff_of_false (by simp) fun whole => ?_
      have : ((m % n : ℕ) : ℚ) = 0 := by linarith
      exact zero (by exact_mod_cast this)

/-- The quotient of finite numbers by one that is not zero. -/
theorem rounds_div (hx : x.isFinite = true) (hy : y.isFinite = true) (nonzero : value y ≠ 0) :
    Rounds (value x / value y) (x / y) := by
  have quotient : x / y = ofForm (UnpackedFloat.div format (form x) (form y)) := rfl
  rw [value] at nonzero
  rw [quotient, value, value]
  rcases form_finite hy with ⟨t, fy⟩ | ⟨t, n, f, hn, fy⟩
  · rw [fy] at nonzero
    exact absurd rfl nonzero
  rcases form_finite hx with ⟨s, fx⟩ | ⟨s, m, e, hm, fx⟩ <;> rw [fx, fy]
  · simp only [formValue, zero_div]
    exact rounds_zero (value_ofForm_zero _).1 (value_ofForm_zero _).2
  · have hd : UnpackedFloat.div format (.finite s m e hm) (.finite t n f hn) =
        roundWithAccuracy format (s / t) (UnpackedFloat.divCore format m e n f).1
          (UnpackedFloat.divCore format m e n f).2.1 (UnpackedFloat.divCore format m e n f).2.2 := rfl
    have exact_value : unit s * (m * 2 ^ e) / (unit t * (n * 2 ^ f)) =
        unit (s / t) * (((m : ℚ) * 2 ^ e) / (n * 2 ^ f)) := by
      rw [unit_div, mul_div_mul_comm]
      congr 1
      rw [div_eq_iff (by cases t <;> norm_num [unit]), mul_assoc, unit_mul_self, mul_one]
    rw [hd, formValue, formValue, exact_value]
    simp only [UnpackedFloat.divCore, Nat.shiftLeft_eq]
    generalize htarget : min (e - f) (format.targetExponent (totalExponent m e - totalExponent n f)) =
      target
    have choice : target = min (e - f)
        (max ((m.log2 : ℤ) + 1 + e - (n.log2 + 1 + f) - 53) (-1074)) := htarget.symm
    obtain ⟨k, hk⟩ : ∃ k : ℕ, e - f = target + k := ⟨(e - f - target).toNat, by omega⟩
    have amount : (e - f - target).toNat = k := by omega
    rw [amount]
    have shifted : ((m : ℚ) * 2 ^ e) / (n * 2 ^ f) / 2 ^ target = ((m * 2 ^ k : ℕ) : ℚ) / n := by
      have hn' : (n : ℚ) ≠ 0 := by exact_mod_cast hn.ne'
      have he : (2 : ℚ) ^ e = 2 ^ target * 2 ^ (k : ℤ) * 2 ^ f := by
        rw [← zpow_split, ← zpow_split]
        congr 1
        omega
      rw [he, zpow_natCast]
      push_cast
      have h1 := (zpow_two_pos target).ne'
      have h2 := (zpow_two_pos f).ne'
      field_simp
    refine rounds_roundWithAccuracy _ (div_pos (magnitude_pos e hm) (magnitude_pos f hn)) ?_ ?_
    · rw [shifted]
      exact describes_quotient _ hn
    · rw [targetExponent_eq]
      show target ≤ max (((m * 2 ^ k / n).log2 : ℤ) + 1 + target - 53) (-1074)
      by_cases subnormal : target ≤ -1074
      · omega
      · -- The shift has made room for a full mantissa.
        have full : 2 ^ 52 ≤ m * 2 ^ k / n := by
          rw [Nat.le_div_iff_mul_le hn]
          calc 2 ^ 52 * n ≤ 2 ^ 52 * 2 ^ (n.log2 + 1) := Nat.mul_le_mul_left _ Nat.lt_log2_self.le
            _ = 2 ^ (52 + (n.log2 + 1)) := (Nat.pow_add 2 _ _).symm
            _ ≤ 2 ^ (m.log2 + k) := Nat.pow_le_pow_right (by decide) (by omega)
            _ = 2 ^ m.log2 * 2 ^ k := Nat.pow_add 2 _ _
            _ ≤ m * 2 ^ k := Nat.mul_le_mul_right _ (Nat.log2_self_le hm.ne')
        have := le_log2 full
        omega

/-! ### Sums -/

/-- A smaller exponent makes a longer mantissa of the same value. -/
theorem decreaseExponent_spec (m : ℕ) {e target : ℤ} (le : target ≤ e) :
    ∃ k : ℕ, UnpackedFloat.decreaseExponent m e target = (m * 2 ^ k, target) ∧ e = target + k := by
  refine ⟨(e - target).toNat, ?_, by omega⟩
  rw [UnpackedFloat.decreaseExponent, Nat.shiftLeft_eq]
  have : e - ((e - target).toNat : ℤ) = target := by omega
  simp only [this]

/-- Any mantissa and exponent are rounded to a neighbour. -/
theorem rounds_round (s : Sign) {m : ℕ} (hm : 0 < m) (e : ℤ) :
    Rounds (unit s * (m * 2 ^ e)) (ofForm (UnpackedFloat.round format s m e)) := by
  rw [UnpackedFloat.round]
  simp only
  have target : format.targetExponent (totalExponent m e) =
      max ((m.log2 : ℤ) + 1 + e - 53) (-1074) := rfl
  generalize format.targetExponent (totalExponent m e) = t at *
  by_cases le : t ≤ e
  · obtain ⟨k, hk, he⟩ := decreaseExponent_spec m le
    rw [hk]
    have digits : (m * 2 ^ k).log2 = m.log2 + k := by
      rw [Nat.log2_eq_iff (Nat.mul_pos hm (Nat.two_pow_pos k)).ne', Nat.pow_succ, Nat.pow_add]
      constructor
      · exact Nat.mul_le_mul_right _ (Nat.log2_self_le hm.ne')
      · calc m * 2 ^ k < 2 ^ (m.log2 + 1) * 2 ^ k :=
              Nat.mul_lt_mul_of_pos_right Nat.lt_log2_self (Nat.two_pow_pos k)
          _ = 2 ^ m.log2 * 2 ^ k * 2 := by ring
    have same : (m : ℚ) * 2 ^ e = ((m * 2 ^ k : ℕ) : ℚ) * 2 ^ t := by
      rw [he, zpow_split, zpow_natCast]
      push_cast
      ring
    rw [same]
    refine rounds_roundWithAccuracy s (magnitude_pos t (Nat.mul_pos hm (Nat.two_pow_pos k))) ?_ ?_
    · rw [mul_div_cancel_right₀ _ (zpow_two_pos _).ne']
      exact describes_exact _
    · show t ≤ max (((m * 2 ^ k).log2 : ℤ) + 1 + t - 53) (-1074)
      rw [digits]
      omega
  · have unchanged : UnpackedFloat.decreaseExponent m e t = (m, e) := by
      have : (e - t).toNat = 0 := by omega
      simp [UnpackedFloat.decreaseExponent, this]
    rw [unchanged]
    refine rounds_roundWithAccuracy s (magnitude_pos e hm) ?_ ?_
    · rw [mul_div_cancel_right₀ _ (zpow_two_pos _).ne']
      exact describes_exact _
    · show e ≤ max ((m.log2 : ℤ) + 1 + e - 53) (-1074)
      omega

/-- Normalizing rounds what the mantissa and the exponent stand for. -/
theorem rounds_normalize (n e : ℤ) (s : Sign) :
    Rounds (n * 2 ^ e) (ofForm (UnpackedFloat.normalize format n e s)) := by
  rw [UnpackedFloat.normalize]
  rcases lt_trichotomy n 0 with lt | rfl | gt
  · rw [compare_lt_iff_lt.mpr lt]
    have rounded := rounds_round .negative (by omega : 0 < (-n).toNat) e
    have magnitude : (((-n).toNat : ℕ) : ℚ) = -n := by
      have : (((-n).toNat : ℕ) : ℤ) = -n := by omega
      exact_mod_cast this
    rw [magnitude, unit] at rounded
    rwa [show (-1 : ℚ) * (-n * 2 ^ e) = n * 2 ^ e by ring] at rounded
  · rw [compare_eq_iff_eq.mpr rfl, Int.cast_zero, zero_mul]
    exact rounds_zero (value_ofForm_zero s).1 (value_ofForm_zero s).2
  · rw [compare_gt_iff_gt.mpr gt]
    have rounded := rounds_round .positive (by omega : 0 < n.toNat) e
    have magnitude : ((n.toNat : ℕ) : ℚ) = n := by
      have : ((n.toNat : ℕ) : ℤ) = n := by omega
      exact_mod_cast this
    rwa [magnitude, unit, one_mul] at rounded

/-- The integer nearest to a number of its own. -/
theorem rounds_ofInt (n : ℤ) : Rounds n (ofInt n) := by
  have rounded := rounds_normalize n 0 .positive
  rwa [zpow_zero, mul_one] at rounded

/-- A sign applied to a number multiplies by its unit. -/
theorem apply_cast (s : Sign) (m : ℕ) : ((s.apply m : ℤ) : ℚ) = unit s * m := by
  cases s
  · show (((-m : ℤ)) : ℚ) = -1 * m
    push_cast
    ring
  · show ((m : ℤ) : ℚ) = 1 * m
    push_cast
    ring

/-- The sum of two finite forms is normalized from the smaller of their exponents. -/
theorem exact_sum (s t : Sign) (m n : ℕ) (e f : ℤ) :
    ((s.apply (UnpackedFloat.decreaseExponent m e (min e f)).1 +
        t.apply (UnpackedFloat.decreaseExponent n f (min e f)).1 : ℤ) : ℚ) * 2 ^ min e f =
      unit s * (m * 2 ^ e) + unit t * (n * 2 ^ f) := by
  obtain ⟨k, hk, he⟩ := decreaseExponent_spec m (min_le_left e f)
  obtain ⟨l, hl, hf⟩ := decreaseExponent_spec n (min_le_right e f)
  rw [hk, hl, Int.cast_add, apply_cast, apply_cast]
  generalize min e f = g at *
  rw [he, hf, zpow_split, zpow_split, zpow_natCast, zpow_natCast]
  push_cast
  ring

/-- The number of a canonical form is exact. -/
theorem rounds_form {u : UnpackedFloat} (canonical : Canonical u) (number : u ≠ .notANumber) :
    Rounds (formValue u) (ofForm u) := by
  have same := form_ofForm canonical
  have rounded := rounds_value (isNaN_eq_false_iff.mpr (same.symm ▸ number : form (ofForm u) ≠ _))
  rwa [value, same] at rounded

/-- The sum of finite numbers. -/
theorem rounds_add (hx : x.isFinite = true) (hy : y.isFinite = true) :
    Rounds (value x + value y) (x + y) := by
  have sum : x + y = ofForm (UnpackedFloat.add format (form x) (form y)) := rfl
  have cx := canonical_form x
  have cy := canonical_form y
  rw [sum, value, value]
  rcases form_finite hx with ⟨s, fx⟩ | ⟨s, m, e, hm, fx⟩ <;>
    rcases form_finite hy with ⟨t, fy⟩ | ⟨t, n, f, hn, fy⟩ <;> rw [fx] at cx ⊢ <;> rw [fy] at cy ⊢
  · rw [formValue, formValue, add_zero, UnpackedFloat.add]
    split <;> exact rounds_zero (value_ofForm_zero _).1 (value_ofForm_zero _).2
  · rw [show formValue (.zero s) = 0 from rfl, zero_add]
    exact rounds_form cy (by simp)
  · rw [show formValue (.zero t) = 0 from rfl, add_zero]
    exact rounds_form cx (by simp)
  · rw [formValue, formValue, ← exact_sum]
    exact rounds_normalize _ _ _

/-- A difference is the sum with the opposite number. -/
theorem sub_eq_add_neg_form (u v : UnpackedFloat) :
    UnpackedFloat.sub format u v = UnpackedFloat.add format u v.neg := by
  have apply_neg (t : Sign) (n : ℤ) : (-t).apply n = -t.apply n := by
    cases t
    · exact (neg_neg n).symm
    · rfl
  cases u <;> cases v <;> try rfl
  simp only [UnpackedFloat.sub, UnpackedFloat.neg, UnpackedFloat.add, apply_neg, sub_eq_add_neg]

/-- The difference of finite numbers. -/
theorem rounds_sub (hx : x.isFinite = true) (hy : y.isFinite = true) :
    Rounds (value x - value y) (x - y) := by
  have difference : x - y = x + -y := by
    show ofForm (UnpackedFloat.sub format (form x) (form y)) =
      ofForm (UnpackedFloat.add format (form x) (form (-y)))
    rw [form_neg, sub_eq_add_neg_form]
  have finite : (-y).isFinite = true := by
    show (form (-y)).isFinite = true
    rw [form_neg]
    rcases form_finite hy with ⟨t, fy⟩ | ⟨t, n, f, hn, fy⟩ <;> rw [fy] <;> rfl
  rw [difference, sub_eq_add_neg, ← value_neg]
  exact rounds_add hx finite

/-! ### Infinities -/

/-- An infinity. -/
def Infinite (x : Float) : Prop := ∃ s, form x = .infinity s

/-- A number that is not finite is an infinity. -/
theorem infinite_of_not_isFinite (number : x.isNaN = false) (h : ¬ x.isFinite = true) :
    Infinite x := by
  have infinite : ¬ (form x).isFinite = true := h
  rw [isNaN_eq_false_iff] at number
  cases hx : form x with
  | notANumber => exact absurd hx number
  | infinity s => exact ⟨s, hx⟩
  | zero s =>
    rw [hx] at infinite
    exact absurd rfl infinite
  | finite s m e positive =>
    rw [hx] at infinite
    exact absurd rfl infinite

/-- Dividing an infinity by a finite number leaves an infinity. -/
theorem Infinite.div (h : Infinite x) (hy : y.isFinite = true) : Infinite (x / y) := by
  obtain ⟨s, hx⟩ := h
  have quotient : x / y = ofForm (UnpackedFloat.div format (form x) (form y)) := rfl
  rw [Infinite, quotient, hx]
  rcases form_finite hy with ⟨t, fy⟩ | ⟨t, n, f, hn, fy⟩ <;> rw [fy]
  · exact ⟨s / t, form_ofForm trivial⟩
  · exact ⟨s / t, form_ofForm trivial⟩

/-- Adding a finite number to an infinity leaves it. -/
theorem Infinite.add (h : Infinite x) (hy : y.isFinite = true) : Infinite (x + y) := by
  obtain ⟨s, hx⟩ := h
  have sum : x + y = ofForm (UnpackedFloat.add format (form x) (form y)) := rfl
  rw [Infinite, sum, hx]
  rcases form_finite hy with ⟨t, fy⟩ | ⟨t, n, f, hn, fy⟩ <;> rw [fy]
  · exact ⟨s, form_ofForm trivial⟩
  · exact ⟨s, form_ofForm trivial⟩

/-- An infinity less a finite number is an infinity. -/
theorem Infinite.sub (h : Infinite x) (hy : y.isFinite = true) : Infinite (x - y) := by
  obtain ⟨s, hx⟩ := h
  have difference : x - y = ofForm (UnpackedFloat.sub format (form x) (form y)) := rfl
  rw [Infinite, difference, hx]
  rcases form_finite hy with ⟨t, fy⟩ | ⟨t, n, f, hn, fy⟩ <;> rw [fy]
  · exact ⟨s, form_ofForm trivial⟩
  · exact ⟨s, form_ofForm trivial⟩

/-- A number plus a finite one is a number. -/
theorem isNaN_add (hx : x.isNaN = false) (hy : y.isFinite = true) : (x + y).isNaN = false := by
  by_cases finite : x.isFinite = true
  · exact (rounds_add finite hy).number
  · obtain ⟨s, hs⟩ := (infinite_of_not_isFinite hx finite).add hy
    rw [isNaN_eq_false_iff, hs]
    exact nofun

/-- A number less a finite one is a number. -/
theorem isNaN_sub (hx : x.isNaN = false) (hy : y.isFinite = true) : (x - y).isNaN = false := by
  by_cases finite : x.isFinite = true
  · exact (rounds_sub finite hy).number
  · obtain ⟨s, hs⟩ := (infinite_of_not_isFinite hx finite).sub hy
    rw [isNaN_eq_false_iff, hs]
    exact nofun

/-- The parts of a number. -/
theorem parts?_eq (x : Float) : parts? x =
    match form x with
    | .finite sign mantissa exponent _ => some (sign == .negative, mantissa, exponent)
    | _ => none := rfl

/-- An infinity is not rounded. -/
theorem Infinite.roundWith_eq (h : Infinite x) (whole : ℤ → ℕ → ℤ) : roundWith whole x = x := by
  obtain ⟨s, hx⟩ := h
  have none_there : parts? x = none := by
    rw [parts?_eq, hx]
  rw [roundWith, none_there]

/-- The value of an infinity stands for infinity, up to the sign. -/
theorem Infinite.abs_value (h : Infinite x) : |value x| = limit := by
  obtain ⟨s, hx⟩ := h
  rw [value, hx]
  cases s
  · rw [formValue_infinity_negative, abs_neg, abs_of_pos limit_pos]
  · rw [formValue_infinity_positive, abs_of_pos limit_pos]

/-! ### Representable values -/

/-- Every value with a mantissa up to `2 ^ 53` is represented. -/
theorem exists_value {m : ℕ} {e : ℤ} (short : m ≤ 2 ^ 53) (least : -1074 ≤ e) (most : e ≤ 970) :
    ∃ w : Float, w.isNaN = false ∧ value w = m * 2 ^ e := by
  have canonical : ∀ (k : ℕ) (m : ℕ), m < 2 ^ 53 → ∀ e : ℤ, e = -1074 + k → e ≤ 971 →
      ∃ w : Float, w.isNaN = false ∧ value w = m * 2 ^ e := by
    intro k
    induction k with
    | zero =>
      intro m short e he most
      by_cases zero : m = 0
      · subst zero
        exact ⟨ofForm (.zero .positive), (value_ofForm_zero _).1, by
          rw [(value_ofForm_zero _).2, Nat.cast_zero, zero_mul]⟩
      · obtain ⟨number, same⟩ := value_ofForm_finite .positive (e := e) (Nat.pos_of_ne_zero zero)
          short (by omega) (Or.inr (by omega))
        rw [unit, one_mul, min_eq_left (magnitude_lt_limit short most).le] at same
        exact ⟨_, number, same⟩
    | succ k ih =>
      intro m short e he most
      by_cases full : 2 ^ 52 ≤ m
      · obtain ⟨number, same⟩ := value_ofForm_finite .positive (e := e) (by omega : 0 < m)
          short (by omega) (Or.inl full)
        rw [unit, one_mul, min_eq_left (magnitude_lt_limit short most).le] at same
        exact ⟨_, number, same⟩
      · obtain ⟨w, number, same⟩ := ih (2 * m) (by omega) (e - 1) (by omega) (by omega)
        refine ⟨w, number, ?_⟩
        rw [same, show e = (e - 1) + 1 by ring, zpow_split]
        push_cast
        ring_nf
  rcases short.lt_or_eq with lt | rfl
  · exact canonical (e + 1074).toNat m lt e (by omega) (by omega)
  · obtain ⟨w, number, same⟩ := canonical (e + 1 + 1074).toNat (2 ^ 52) (by decide) (e + 1) (by omega)
      (by omega)
    refine ⟨w, number, ?_⟩
    rw [same, zpow_split]
    push_cast
    ring

/-- The integers of at most 53 bits are represented. -/
theorem value_ofInt {n : ℤ} (small : n.natAbs ≤ 2 ^ 53) : value (ofInt n) = n := by
  obtain ⟨w, number, same⟩ := exists_value (e := 0) small (by omega) (by omega)
  rw [zpow_zero, mul_one] at same
  rcases Int.natAbs_eq n with h | h
  · have cast : ((n.natAbs : ℕ) : ℚ) = n := by
      rw [← Int.cast_natCast, ← h]
    exact (rounds_ofInt n).value_eq number (same.trans cast)
  · have cast : ((n.natAbs : ℕ) : ℚ) = -n := by
      rw [← Int.cast_natCast, ← Int.cast_neg]
      congr 1
      omega
    exact (rounds_ofInt n).value_eq (w := -w) (by rwa [isNaN_neg]) (by rw [value_neg, same, cast, neg_neg])

end SchemaSampler.Binary64
