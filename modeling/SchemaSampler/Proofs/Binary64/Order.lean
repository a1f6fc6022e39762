import SchemaSampler.Proofs.Binary64.Form

namespace SchemaSampler.Binary64

open Float.Model (UnpackedFloat)
open Float.Model.UnpackedFloat (Sign)

/-!
# The values of binary64 numbers — comparison of numbers is comparison of values

The `value` of a number is rational.  An infinity has the value of the number that would follow the
largest finite one, so that numbers are ordered as their values are: `le_iff`, `lt_iff`, `beq_iff`.
-/

/-! ### Values -/

/-- The factor that a sign stands for. -/
def unit : Sign → ℚ
  | .positive => 1
  | .negative => -1

/-- The value of infinity: of the number that would follow the largest finite one. -/
def limit : ℚ := 2 ^ (1024 : ℤ)

/-- The value that stands for infinity is positive. -/
theorem limit_pos : 0 < limit := zpow_pos (by norm_num) _

/-- The value of a form; `0` if there is no number. -/
def formValue : UnpackedFloat → ℚ
  | .infinity sign => unit sign * limit
  | .notANumber => 0
  | .zero _ => 0
  | .finite sign mantissa exponent _ => unit sign * (mantissa * 2 ^ exponent)

/-- The value of a number. -/
def value (x : Float) : ℚ := formValue (form x)

/-- The value of a finite form with a smaller exponent is closer to zero. -/
theorem magnitude_lt_of_exponent_lt {m n : Nat} {e f : ℤ} (short : m < 2 ^ 53) (least : -1074 ≤ e)
    (normal : 2 ^ 52 ≤ n ∨ f = -1074) (lt : e < f) : (m : ℚ) * 2 ^ e < n * 2 ^ f := by
  have full : 2 ^ 52 ≤ n := normal.resolve_right (by omega)
  have short' : (m : ℚ) < 2 ^ (53 : ℤ) := by exact_mod_cast short
  have full' : (2 : ℚ) ^ (52 : ℤ) ≤ n := by exact_mod_cast full
  calc (m : ℚ) * 2 ^ e < 2 ^ (53 : ℤ) * 2 ^ e := by
        exact mul_lt_mul_of_pos_right short' (zpow_pos (by norm_num) e)
    _ = 2 ^ (53 + e) := (zpow_add₀ (by norm_num) _ _).symm
    _ ≤ 2 ^ (52 + f) := zpow_le_zpow_right₀ (by norm_num) (by omega)
    _ = 2 ^ (52 : ℤ) * 2 ^ f := zpow_add₀ (by norm_num) _ _
    _ ≤ n * 2 ^ f := mul_le_mul_of_nonneg_right full' (zpow_nonneg (by norm_num) f)

/-- A mantissa other than zero makes a positive magnitude. -/
theorem magnitude_pos {m : Nat} (e : ℤ) (positive : 0 < m) : (0 : ℚ) < m * 2 ^ e :=
  mul_pos (by exact_mod_cast positive) (zpow_pos (by norm_num) e)

/-- Finite magnitudes lie below the value that stands for infinity. -/
theorem magnitude_lt_limit {m : Nat} {e : ℤ} (short : m < 2 ^ 53) (most : e ≤ 971) :
    (m : ℚ) * 2 ^ e < limit := by
  have short' : (m : ℚ) < 2 ^ (53 : ℤ) := by exact_mod_cast short
  calc (m : ℚ) * 2 ^ e < 2 ^ (53 : ℤ) * 2 ^ e :=
        mul_lt_mul_of_pos_right short' (zpow_pos (by norm_num) e)
    _ = 2 ^ (53 + e) := (zpow_add₀ (by norm_num) _ _).symm
    _ ≤ 2 ^ (1024 : ℤ) := zpow_le_zpow_right₀ (by norm_num) (by omega)

/-- Canonical forms are compared by exponent first, then by mantissa. -/
theorem compare_magnitude {m n : Nat} {e f : ℤ} (shortM : m < 2 ^ 53) (shortN : n < 2 ^ 53)
    (leastE : -1074 ≤ e) (leastF : -1074 ≤ f) (normalM : 2 ^ 52 ≤ m ∨ e = -1074)
    (normalN : 2 ^ 52 ≤ n ∨ f = -1074) :
    (compare e f).then (compare m n) = compare ((m : ℚ) * 2 ^ e) (n * 2 ^ f) := by
  rcases lt_trichotomy e f with lt | rfl | gt
  · have less := magnitude_lt_of_exponent_lt shortM leastE normalN lt
    rw [compare_lt_iff_lt.mpr lt, compare_lt_iff_lt.mpr less]
    rfl
  · have positive : (0 : ℚ) < 2 ^ e := zpow_pos (by norm_num) e
    rw [compare_eq_iff_eq.mpr rfl]
    show compare m n = _
    rcases lt_trichotomy m n with lt | rfl | gt
    · rw [compare_lt_iff_lt.mpr lt, compare_lt_iff_lt.mpr]
      exact mul_lt_mul_of_pos_right (by exact_mod_cast lt) positive
    · rw [compare_eq_iff_eq.mpr rfl, compare_eq_iff_eq.mpr rfl]
    · rw [compare_gt_iff_gt.mpr gt, compare_gt_iff_gt.mpr]
      exact mul_lt_mul_of_pos_right (by exact_mod_cast gt) positive
  · have less := magnitude_lt_of_exponent_lt shortN leastF normalM gt
    rw [compare_gt_iff_gt.mpr gt, compare_gt_iff_gt.mpr less]
    rfl

/-- Changing both signs turns a comparison around. -/
theorem compare_neg (a b : ℚ) : compare (-a) (-b) = (compare a b).swap := by
  rcases lt_trichotomy a b with lt | rfl | gt
  · rw [compare_lt_iff_lt.mpr lt, compare_gt_iff_gt.mpr (neg_lt_neg lt)]
    rfl
  · rw [compare_eq_iff_eq.mpr rfl, compare_eq_iff_eq.mpr rfl]
    rfl
  · rw [compare_gt_iff_gt.mpr gt, compare_lt_iff_lt.mpr (neg_lt_neg gt)]
    rfl

@[simp] theorem formValue_infinity_positive :
    formValue (.infinity .positive) = limit := one_mul _

@[simp] theorem formValue_infinity_negative :
    formValue (.infinity .negative) = -limit := neg_one_mul _

@[simp] theorem formValue_finite_positive (m : Nat) (e : ℤ) (h : 0 < m) :
    formValue (.finite .positive m e h) = m * 2 ^ e := one_mul _

@[simp] theorem formValue_finite_negative (m : Nat) (e : ℤ) (h : 0 < m) :
    formValue (.finite .negative m e h) = -(m * 2 ^ e) := neg_one_mul _

/-- The forms of infinities have the greatest and the least value. -/
theorem formValue_finite {s : Sign} {m : Nat} {e : ℤ} {h : 0 < m}
    (canonical : Canonical (.finite s m e h)) :
    -limit < formValue (.finite s m e h) ∧
      formValue (.finite s m e h) < limit := by
  have above := magnitude_pos e h
  have below := magnitude_lt_limit canonical.1 canonical.2.2.1
  cases s with
  | positive =>
    rw [formValue_finite_positive]
    constructor <;> linarith
  | negative =>
    rw [formValue_finite_negative]
    constructor <;> linarith

/-- Two canonical forms are compared as their values are. -/
theorem compare_forms {u v : UnpackedFloat} (hu : Canonical u) (hv : Canonical v)
    (numberU : u ≠ .notANumber) (numberV : v ≠ .notANumber) :
    u.compare v = some (compare (formValue u) (formValue v)) := by
  have infinite := limit_pos
  have lt {a b : ℚ} (h : a < b) : some Ordering.lt = some (compare a b) := by
    rw [compare_lt_iff_lt.mpr h]
  have gt {a b : ℚ} (h : b < a) : some Ordering.gt = some (compare a b) := by
    rw [compare_gt_iff_gt.mpr h]
  have eq (a : ℚ) : some Ordering.eq = some (compare a a) := by
    rw [compare_eq_iff_eq.mpr rfl]
  cases u with
  | notANumber => exact absurd rfl numberU
  | infinity s =>
    cases v with
    | notANumber => exact absurd rfl numberV
    | infinity t =>
      cases s <;> cases t
      · exact eq _
      · exact lt (by simp only [formValue_infinity_negative, formValue_infinity_positive]; linarith)
      · exact gt (by simp only [formValue_infinity_negative, formValue_infinity_positive]; linarith)
      · exact eq _
    | zero t =>
      cases s
      · exact lt (by rw [formValue_infinity_negative, formValue]; linarith)
      · exact gt (by rw [formValue_infinity_positive, formValue]; linarith)
    | finite t n f h =>
      obtain ⟨above, below⟩ := formValue_finite hv
      cases s
      · exact lt (by rw [formValue_infinity_negative]; exact above)
      · exact gt (by rw [formValue_infinity_positive]; exact below)
  | zero s =>
    cases v with
    | notANumber => exact absurd rfl numberV
    | infinity t =>
      cases t
      · exact gt (by rw [formValue_infinity_negative, formValue]; linarith)
      · exact lt (by rw [formValue_infinity_positive, formValue]; linarith)
    | zero t => exact eq _
    | finite t n f h =>
      have positive := magnitude_pos f h
      cases t
      · exact gt (by rw [formValue_finite_negative]; simp only [formValue]; linarith)
      · exact lt (by rw [formValue_finite_positive]; exact positive)
  | finite s m e h =>
    have positiveU := magnitude_pos e h
    cases v with
    | notANumber => exact absurd rfl numberV
    | infinity t =>
      obtain ⟨above, below⟩ := formValue_finite hu
      cases t
      · exact gt (by rw [formValue_infinity_negative]; exact above)
      · exact lt (by rw [formValue_infinity_positive]; exact below)
    | zero t =>
      cases s
      · exact lt (by rw [formValue_finite_negative]; simp only [formValue]; linarith)
      · exact gt (by rw [formValue_finite_positive]; exact positiveU)
    | finite t n f h' =>
      have positiveV := magnitude_pos f h'
      have same := compare_magnitude hu.1 hv.1 hu.2.1 hv.2.1 hu.2.2.2 hv.2.2.2
      cases s <;> cases t
      · rw [formValue_finite_negative, formValue_finite_negative, compare_neg, ← same]
        rfl
      · exact lt (by rw [formValue_finite_negative, formValue_finite_positive]; linarith)
      · exact gt (by rw [formValue_finite_negative, formValue_finite_positive]; linarith)
      · rw [formValue_finite_positive, formValue_finite_positive, ← same]
        rfl

/-! ### Order -/

variable {x y z : Float}

/-- Numbers have a form other than that of NaN. -/
theorem isNaN_eq_false_iff : x.isNaN = false ↔ form x ≠ .notANumber := by
  show (form x).isNaN = false ↔ _
  cases form x <;> simp [UnpackedFloat.isNaN]

theorem number_literal_zero : (0 : Float).isNaN = false := rfl

/-- What is comparable is a number. -/
theorem compare_isSome (h : ((form x).compare (form y)).isSome) :
    x.isNaN = false ∧ y.isNaN = false := by
  constructor
  · rw [isNaN_eq_false_iff]
    intro nan
    rw [nan, UnpackedFloat.compare] at h
    cases h
  · rw [isNaN_eq_false_iff]
    intro nan
    rw [nan] at h
    cases hx : form x <;> rw [hx] at h <;> simp [UnpackedFloat.compare] at h

/-- Numbers compare as their values do. -/
theorem compare_values (hx : x.isNaN = false) (hy : y.isNaN = false) :
    (form x).compare (form y) = some (compare (value x) (value y)) :=
  compare_forms (canonical_form x) (canonical_form y) (isNaN_eq_false_iff.mp hx)
    (isNaN_eq_false_iff.mp hy)

/-- One float is at most another if their forms compare so. -/
theorem le_iff_compare : x ≤ y ↔ ((form x).compare (form y)).any (·.isLE) = true :=
  decide_eq_true_iff

/-- One float is less than another if their forms compare so. -/
theorem lt_iff_compare : x < y ↔ ((form x).compare (form y) == some .lt) = true :=
  decide_eq_true_iff

/-- Between numbers, `≤` is that of the values. -/
theorem le_iff (hx : x.isNaN = false) (hy : y.isNaN = false) : x ≤ y ↔ value x ≤ value y := by
  rw [le_iff_compare, compare_values hx hy, ← compare_le_iff_le, Option.any_some]
  cases compare (value x) (value y) <;> simp

/-- Between numbers, `<` is that of the values. -/
theorem lt_iff (hx : x.isNaN = false) (hy : y.isNaN = false) : x < y ↔ value x < value y := by
  rw [lt_iff_compare, compare_values hx hy, ← compare_lt_iff_lt]
  simp

/-- Numbers are equal if their values are, whatever the sign of a zero is. -/
theorem beq_iff (hx : x.isNaN = false) (hy : y.isNaN = false) :
    (x == y) = true ↔ value x = value y := by
  show ((form x).compare (form y) == some .eq) = true ↔ _
  rw [compare_values hx hy, ← compare_eq_iff_eq]
  simp

/-- Numbers that are in order are numbers. -/
theorem number_of_le (h : x ≤ y) : x.isNaN = false ∧ y.isNaN = false := by
  refine compare_isSome ?_
  rw [le_iff_compare] at h
  cases hc : (form x).compare (form y) with
  | none =>
    rw [hc] at h
    cases h
  | some order => rfl

/-- What compares is a number. -/
theorem number_of_lt (h : x < y) : x.isNaN = false ∧ y.isNaN = false := by
  refine compare_isSome ?_
  rw [lt_iff_compare] at h
  cases hc : (form x).compare (form y) with
  | none =>
    rw [hc] at h
    cases h
  | some order => rfl

/-- Numbers are at most themselves; NaN is not. -/
theorem float_le_refl (hx : x.isNaN = false) : x ≤ x := (le_iff hx hx).mpr le_rfl

/-- What compares are numbers, so `≤` is transitive over all floats. -/
theorem float_le_trans (h : x ≤ y) (h' : y ≤ z) : x ≤ z := by
  obtain ⟨hx, hy⟩ := number_of_le h
  obtain ⟨-, hz⟩ := number_of_le h'
  rw [le_iff hx hy] at h
  rw [le_iff hy hz] at h'
  rw [le_iff hx hz]
  exact h.trans h'

/-- So are `<` and `≤`, one after the other. -/
theorem float_lt_of_lt_of_le (h : x < y) (h' : y ≤ z) : x < z := by
  obtain ⟨hx, hy⟩ := number_of_lt h
  obtain ⟨-, hz⟩ := number_of_le h'
  rw [lt_iff hx hy] at h
  rw [le_iff hy hz] at h'
  rw [lt_iff hx hz]
  exact h.trans_le h'

/-- And the other way round. -/
theorem float_lt_of_le_of_lt (h : x ≤ y) (h' : y < z) : x < z := by
  obtain ⟨hx, hy⟩ := number_of_le h
  obtain ⟨-, hz⟩ := number_of_lt h'
  rw [le_iff hx hy] at h
  rw [lt_iff hy hz] at h'
  rw [lt_iff hx hz]
  exact h.trans_lt h'

/-- What is less is at most. -/
theorem float_le_of_lt (h : x < y) : x ≤ y := by
  obtain ⟨hx, hy⟩ := number_of_lt h
  rw [lt_iff hx hy] at h
  rw [le_iff hx hy]
  exact h.le

/-- Numbers are in one order or the other. -/
theorem float_not_lt_iff (hx : x.isNaN = false) (hy : y.isNaN = false) : ¬ x < y ↔ y ≤ x := by
  rw [lt_iff hx hy, le_iff hy hx, not_lt]

/-- The equality of values is reflexive. -/
theorem same_self (x : Float) : same x x = true := by
  by_cases nan : x.isNaN = true
  · rw [same, nan]
    simp
  · have number : x.isNaN = false := Bool.eq_false_iff.mpr nan
    rw [same, (beq_iff number number).mpr rfl, Bool.true_or]

/-! ### Finite numbers -/

/-- A finite number is a zero or has a mantissa. -/
theorem form_finite (h : x.isFinite = true) : (∃ s, form x = .zero s) ∨
    ∃ s m e positive, form x = .finite s m e positive := by
  have finite : (form x).isFinite = true := h
  cases hx : form x with
  | notANumber =>
    rw [hx] at finite
    cases finite
  | infinity s =>
    rw [hx] at finite
    cases finite
  | zero s => exact Or.inl ⟨s, rfl⟩
  | finite s m e positive => exact Or.inr ⟨s, m, e, positive, rfl⟩

/-- Finite floats are numbers. -/
theorem number_of_isFinite (h : x.isFinite = true) : x.isNaN = false := by
  rw [isNaN_eq_false_iff]
  rcases form_finite h with ⟨s, hx⟩ | ⟨s, m, e, positive, hx⟩ <;> rw [hx] <;> simp

/-- A number is finite if its value is below that of infinity. -/
theorem isFinite_iff (number : x.isNaN = false) : x.isFinite = true ↔ |value x| < limit := by
  have canonical := canonical_form x
  rw [isNaN_eq_false_iff] at number
  show (form x).isFinite = true ↔ _
  rw [value]
  cases hx : form x with
  | notANumber => exact absurd hx number
  | infinity s =>
    have size : |formValue (.infinity s)| = limit := by
      cases s
      · rw [formValue_infinity_negative, abs_neg, abs_of_pos limit_pos]
      · rw [formValue_infinity_positive, abs_of_pos limit_pos]
    rw [size]
    simp [UnpackedFloat.isFinite]
  | zero s =>
    rw [formValue, abs_zero]
    exact ⟨fun _ => limit_pos, fun _ => rfl⟩
  | finite s m e h =>
    rw [hx] at canonical
    have bounds := formValue_finite canonical
    exact ⟨fun _ => abs_lt.mpr bounds, fun _ => rfl⟩

/-- What lies between two finite numbers is finite. -/
theorem isFinite_of_value_between (number : y.isNaN = false) (hx : x.isFinite = true)
    (hz : z.isFinite = true) (above : value x ≤ value y) (below : value y ≤ value z) :
    y.isFinite = true := by
  have start := abs_lt.mp ((isFinite_iff (number_of_isFinite hx)).mp hx)
  have finish := abs_lt.mp ((isFinite_iff (number_of_isFinite hz)).mp hz)
  exact (isFinite_iff number).mpr (abs_lt.mpr ⟨by linarith, by linarith⟩)

/-! ### The larger and the smaller of two numbers -/

/-- The larger one is one of the two. -/
theorem larger_cases (x y : Float) : larger x y = x ∨ larger x y = y := by
  rw [larger]
  split
  · exact Or.inl rfl
  · exact Or.inr rfl

/-- The smaller one is one of the two. -/
theorem smaller_cases (x y : Float) : smaller x y = x ∨ smaller x y = y := by
  rw [smaller]
  split
  · exact Or.inl rfl
  · exact Or.inr rfl

/-- Of two numbers, the larger one is a number. -/
theorem isNaN_larger (hx : x.isNaN = false) (hy : y.isNaN = false) : (larger x y).isNaN = false := by
  rcases larger_cases x y with h | h <;> rwa [h]

/-- Of two numbers, the smaller one is a number. -/
theorem isNaN_smaller (hx : x.isNaN = false) (hy : y.isNaN = false) :
    (smaller x y).isNaN = false := by
  rcases smaller_cases x y with h | h <;> rwa [h]

/-- Neither of two numbers exceeds the larger one. -/
theorem le_larger (hx : x.isNaN = false) (hy : y.isNaN = false) :
    x ≤ larger x y ∧ y ≤ larger x y := by
  rw [larger]
  split
  · exact ⟨float_le_refl hx, float_le_of_lt ‹_›⟩
  · exact ⟨(float_not_lt_iff hy hx).mp ‹_›, float_le_refl hy⟩

/-- The smaller one exceeds neither. -/
theorem smaller_le (hx : x.isNaN = false) (hy : y.isNaN = false) :
    smaller x y ≤ x ∧ smaller x y ≤ y := by
  rw [smaller]
  split
  · exact ⟨float_le_refl hx, float_le_of_lt ‹_›⟩
  · exact ⟨(float_not_lt_iff hx hy).mp ‹_›, float_le_refl hy⟩

/-! ### Opposite numbers -/

/-- The opposite has the form with the other sign. -/
theorem form_neg (x : Float) : form (-x) = (form x).neg := by
  refine form_ofForm (u := (form x).neg) ?_
  have canonical := canonical_form x
  cases hx : form x <;> rw [hx] at canonical <;> exact canonical

/-- The opposite of a number is a number. -/
theorem isNaN_neg (x : Float) : (-x).isNaN = x.isNaN := by
  show (form (-x)).isNaN = (form x).isNaN
  rw [form_neg]
  cases form x <;> rfl

/-- The opposite has the opposite value. -/
theorem value_neg (x : Float) : value (-x) = -value x := by
  rw [value, value, form_neg]
  have flip (s : Sign) : unit (-s) = -unit s := by
    cases s
    · exact (neg_neg 1).symm
    · rfl
  cases form x with
  | infinity s => rw [UnpackedFloat.neg, formValue, formValue, flip, neg_mul]
  | notANumber => rw [UnpackedFloat.neg, formValue, neg_zero]
  | zero s => rw [UnpackedFloat.neg, formValue, formValue, neg_zero]
  | finite s m e h => rw [UnpackedFloat.neg, formValue, formValue, flip, neg_mul]

end SchemaSampler.Binary64
