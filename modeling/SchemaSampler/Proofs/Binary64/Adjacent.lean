import SchemaSampler.Proofs.Binary64.Order

namespace SchemaSampler.Binary64

open Float.Model (UnpackedFloat)
open Float.Model.UnpackedFloat (Sign)

/-!
# Adjacent numbers — numbers in a row

The numbers from the least to the greatest are numbered by their `signedRank`, which grows with the
value (`value_lt_iff`), so that the next one up has the next rank (`signedRank_nextUp`).  Nothing
lies between them (`nextUp_le_iff`), and likewise below, because the rank of the opposite number is
the opposite rank (`signedRank_neg`).

* `nothing_between_neighbours` — the next number up is the least one above, the next number down the
  greatest one below, and an exclusive bound on finite numbers is an inclusive one at the neighbour.
-/

/-! ### Ranks -/

/-- The value of the number of a rank. -/
def scale (n : ℕ) : ℚ :=
  if n < 2 ^ 52 then n * 2 ^ (-1074 : ℤ)
  else ((2 ^ 52 + n % 2 ^ 52 : ℕ) : ℚ) * 2 ^ ((n / 2 ^ 52 : ℕ) - 1075 : ℤ)

/-- The scale grows from each rank to the next. -/
theorem scale_lt_succ (n : ℕ) : scale n < scale (n + 1) := by
  have positive (e : ℤ) : (0 : ℚ) < 2 ^ e := zpow_pos (by norm_num) e
  have step (m : ℕ) (e : ℤ) : (m : ℚ) * 2 ^ e < ((m + 1 : ℕ) : ℚ) * 2 ^ e :=
    mul_lt_mul_of_pos_right (by exact_mod_cast Nat.lt_succ_self m) (positive e)
  by_cases below : n + 1 < 2 ^ 52
  · rw [scale, scale, if_pos (by omega), if_pos below]
    exact step n _
  by_cases last : n + 1 = 2 ^ 52
  · rw [scale, scale, if_pos (by omega), if_neg below, last, Nat.mod_self, Nat.div_self (by decide)]
    have := step n (-1074)
    rw [last] at this
    exact this
  · rw [scale, scale, if_neg (by omega), if_neg below]
    by_cases within : n % 2 ^ 52 + 1 < 2 ^ 52
    · have same : (n + 1) / 2 ^ 52 = n / 2 ^ 52 := by omega
      have next : 2 ^ 52 + (n + 1) % 2 ^ 52 = 2 ^ 52 + n % 2 ^ 52 + 1 := by omega
      rw [same, next]
      exact step _ _
    · -- The mantissa is full, and the exponent goes up.
      have carry : (n + 1) / 2 ^ 52 = n / 2 ^ 52 + 1 := by omega
      have wrapped : 2 ^ 52 + (n + 1) % 2 ^ 52 = 2 ^ 52 := by omega
      have full : 2 ^ 52 + n % 2 ^ 52 + 1 = 2 ^ 53 := by omega
      have next := step (2 ^ 52 + n % 2 ^ 52) ((n / 2 ^ 52 : ℕ) - 1075 : ℤ)
      rw [full] at next
      rw [carry, wrapped]
      refine next.trans_eq ?_
      have exponent : (((n / 2 ^ 52 + 1 : ℕ) : ℤ) - 1075) = 1 + ((n / 2 ^ 52 : ℕ) - 1075 : ℤ) := by
        push_cast
        ring
      rw [exponent, zpow_add₀ (by norm_num)]
      push_cast
      ring

/-- So a greater rank stands for a greater magnitude. -/
theorem scale_strictMono : StrictMono scale := strictMono_nat_of_lt_succ scale_lt_succ

/-- The least rank stands for zero. -/
theorem scale_zero : scale 0 = 0 := by
  rw [scale, if_pos (by decide), Nat.cast_zero, zero_mul]

/-- The greatest one stands for infinity. -/
theorem scale_infinityRank : scale infinityRank = limit := by
  have exponent : infinityRank / 2 ^ 52 = 2047 := by decide
  have mantissa : infinityRank % 2 ^ 52 = 0 := by decide
  rw [scale, if_neg (by decide), exponent, mantissa, limit, show (1024 : ℤ) = 52 + 972 from rfl,
    zpow_add₀ (by norm_num)]
  congr 1

/-- A finite number in canonical form stands at its rank. -/
theorem scale_rank {m : ℕ} {e : ℤ} {s : Sign} {h : 0 < m} (canonical : Canonical (.finite s m e h)) :
    scale (rank m e) = m * 2 ^ e := by
  obtain ⟨short, least, -, normal⟩ := canonical
  by_cases full : 2 ^ 52 ≤ m
  · obtain ⟨exponent, mantissa⟩ := rank_fields short least full
    have large : ¬ rank m e < 2 ^ 52 := by
      rw [rank]
      omega
    have whole : 2 ^ 52 + (m - 2 ^ 52) = m := by omega
    have biased : ((e + 1075).toNat : ℤ) - 1075 = e := by omega
    rw [scale, if_neg large, exponent, mantissa, whole, biased]
  · obtain rfl := normal.resolve_left full
    rw [rank_least, scale, if_pos (by omega)]

/-- An integer of a size, with a sign. -/
def signed : Sign → ℕ → ℤ
  | .positive, n => n
  | .negative, n => -n

/-- The rank of a form, counted down from zero below it. -/
def signedRank : UnpackedFloat → ℤ
  | .infinity sign => signed sign infinityRank
  | .notANumber => 0
  | .zero _ => 0
  | .finite sign mantissa exponent _ => signed sign (rank mantissa exponent)

/-- The value of the number of a rank above or below zero. -/
def signedScale (n : ℤ) : ℚ := if n < 0 then -scale n.natAbs else scale n.natAbs

/-- Over both signs the scale grows, too. -/
theorem signedScale_strictMono : StrictMono signedScale := by
  intro a b lt
  have nonneg (n : ℕ) : 0 ≤ scale n := by
    rw [← scale_zero]
    exact scale_strictMono.monotone (Nat.zero_le n)
  have positive {n : ℕ} (h : 0 < n) : 0 < scale n := by
    rw [← scale_zero]
    exact scale_strictMono h
  rw [signedScale, signedScale]
  by_cases ha : a < 0
  · rw [if_pos ha]
    by_cases hb : b < 0
    · rw [if_pos hb]
      exact neg_lt_neg (scale_strictMono (by omega))
    · rw [if_neg hb]
      have := positive (by omega : 0 < a.natAbs)
      have := nonneg b.natAbs
      linarith
  · rw [if_neg ha, if_neg (by omega)]
    exact scale_strictMono (by omega)

/-- The value of a canonical form is that of its rank. -/
theorem formValue_eq_signedScale {u : UnpackedFloat} (canonical : Canonical u) :
    formValue u = signedScale (signedRank u) := by
  have zero : signedScale 0 = 0 := by
    rw [signedScale, if_neg (by decide)]
    exact scale_zero
  have above (n : ℕ) : signedScale n = scale n := by
    rw [signedScale, if_neg (by omega), Int.natAbs_natCast]
  have below (n : ℕ) : signedScale (-n) = -scale n := by
    by_cases h : n = 0
    · subst h
      simpa [scale_zero] using zero
    · rw [signedScale, if_pos (by omega), Int.natAbs_neg, Int.natAbs_natCast]
  have apply_scale (s : Sign) (n : ℕ) : unit s * scale n = signedScale (signed s n) := by
    cases s
    · rw [unit, signed, below, neg_one_mul]
    · rw [unit, signed, above, one_mul]
  cases u with
  | notANumber => exact zero.symm
  | zero s => exact zero.symm
  | infinity s =>
    rw [formValue, ← scale_infinityRank, signedRank]
    exact apply_scale s _
  | finite s m e h =>
    rw [formValue, ← scale_rank canonical, signedRank]
    exact apply_scale s _

variable {x y z : Float}

/-- Values are ordered as ranks are. -/
theorem value_lt_iff (x y : Float) :
    value x < value y ↔ signedRank (form x) < signedRank (form y) := by
  rw [value, value, formValue_eq_signedScale (canonical_form x),
    formValue_eq_signedScale (canonical_form y), signedScale_strictMono.lt_iff_lt]

/-- Values are in the order of the ranks. -/
theorem value_le_iff (x y : Float) :
    value x ≤ value y ↔ signedRank (form x) ≤ signedRank (form y) := by
  rw [← not_lt, ← not_lt, value_lt_iff]

/-- Values are equal if the ranks are. -/
theorem value_eq_iff (x y : Float) :
    value x = value y ↔ signedRank (form x) = signedRank (form y) := by
  rw [le_antisymm_iff, le_antisymm_iff, value_le_iff, value_le_iff]

/-- The opposite has the opposite rank. -/
theorem signedRank_neg (x : Float) : signedRank (form (-x)) = -signedRank (form x) := by
  rw [form_neg]
  have flip (s : Sign) (n : ℕ) : signed (-s) n = -signed s n := by
    cases s
    · exact (neg_neg (n : ℤ)).symm
    · rfl
  cases form x with
  | infinity s => exact flip s _
  | notANumber => rfl
  | zero s => rfl
  | finite s m e h => exact flip s _

/-! ### Bit patterns -/

/-- The bit pattern of a form is its sign bit and its rank. -/
theorem exists_rank {u : UnpackedFloat} (canonical : Canonical u) (number : u ≠ .notANumber) :
    ∃ s n, n ≤ infinityRank ∧ code u = signBit s + n ∧ signedRank u = signed s n := by
  cases u with
  | notANumber => exact absurd rfl number
  | infinity s => exact ⟨s, infinityRank, Nat.le_refl _, rfl, rfl⟩
  | zero s =>
    refine ⟨s, 0, Nat.zero_le _, rfl, ?_⟩
    cases s <;> rfl
  | finite s m e h =>
    refine ⟨s, rank m e, ?_, rfl, rfl⟩
    obtain ⟨short, least, most, -⟩ := canonical
    have whole : infinityRank = 2045 * 2 ^ 52 + 2 ^ 53 := by decide
    have exponent : (e + 1074).toNat ≤ 2045 := by omega
    rw [whole, rank]
    omega

/-- All ranks fit into an integer of 64 bits. -/
theorem infinityRank_lt : infinityRank < 2 ^ 63 := by decide

/-- A bit pattern whose rank is at most that of infinity stands for a number. -/
theorem form_ofBits {b : UInt64} {s : Sign} {n : ℕ} (hn : n ≤ infinityRank)
    (hb : b.toNat = signBit s + n) : form (Float.ofBits b) ≠ .notANumber ∧
      signedRank (form (Float.ofBits b)) = signed s n := by
  have unpacked : form (Float.ofBits b) = UnpackedFloat.unpack format b.toBitVec :=
    form_ofForm (canonical_unpack _)
  have bits : b.toBitVec.toNat = signBit s + n := hb
  have limited := infinityRank_lt
  have low : (signBit s + n) % 2 ^ 63 = n := by
    cases s <;> rw [signBit] <;> omega
  have number : UnpackedFloat.unpack format b.toBitVec ≠ .notANumber := by
    obtain ⟨sign, -, fields⟩ := unpack_eq_fromFields b.toBitVec
    have full : b.toBitVec.toNat / 2 ^ 52 % 2 ^ 11 = 2047 → b.toBitVec.toNat % 2 ^ 52 = 0 := by
      have whole : infinityRank = 2047 * 2 ^ 52 := rfl
      rw [bits]
      omega
    rw [fields, fromFields]
    split
    · rename_i infinite
      rw [if_pos (full infinite)]
      simp
    · split
      · split <;> simp
      · simp
  have same := code_unpack number
  obtain ⟨s', n', hn', written, signed_eq⟩ := exists_rank (canonical_unpack _) number
  rw [unpacked, signed_eq]
  refine ⟨number, ?_⟩
  rw [written, bits] at same
  cases s <;> cases s' <;> simp only [signBit] at same
  · rw [show n' = n by omega]
  · omega
  · omega
  · rw [show n' = n by omega]

/-- A bit pattern whose rank is below that of infinity stands for a finite number. -/
theorem isFinite_ofBits {b : UInt64} {s : Sign} {n : ℕ} (hn : n < infinityRank)
    (hb : b.toNat = signBit s + n) : (Float.ofBits b).isFinite = true := by
  obtain ⟨number, ranked⟩ := form_ofBits hn.le hb
  show (form (Float.ofBits b)).isFinite = true
  cases hx : form (Float.ofBits b) with
  | notANumber => exact absurd hx number
  | zero s => rfl
  | finite s m e h => rfl
  | infinity t =>
    rw [hx, signedRank] at ranked
    cases s <;> cases t <;> simp only [signed] at ranked <;> omega

/-! ### Neighbours -/

theorem form_infinity : form infinity = .infinity .positive := rfl

/-- Infinity has the value that stands for it. -/
theorem value_infinity : value infinity = limit := by
  rw [value, form_infinity, formValue_infinity_positive]

/-- Infinity has the greatest rank. -/
theorem signedRank_infinity : signedRank (form infinity) = infinityRank := by
  rw [form_infinity, signedRank, signed]

/-- Zero has the rank zero. -/
theorem signedRank_zero : signedRank (form 0) = 0 := rfl

theorem number_infinity : infinity.isNaN = false := rfl

theorem number_negInfinity : negInfinity.isNaN = false := rfl

/-- The number after one below infinity has the next rank. -/
theorem signedRank_nextUp (number : x.isNaN = false)
    (below : signedRank (form x) < infinityRank) :
    (nextUp x).isNaN = false ∧ signedRank (form (nextUp x)) = signedRank (form x) + 1 := by
  obtain ⟨s, n, hn, written, ranked⟩ :=
    exists_rank (canonical_form x) (isNaN_eq_false_iff.mp number)
  have bits := code_form number
  rw [written] at bits
  have limited := infinityRank_lt
  have not_infinity : (x == infinity) = false := by
    rw [Bool.eq_false_iff]
    intro same
    rw [beq_iff number number_infinity, value_eq_iff, signedRank_infinity] at same
    omega
  rw [isNaN_eq_false_iff, nextUp, number, not_infinity]
  simp only [Bool.or_false, Bool.false_eq_true, if_false]
  by_cases zero : (x == 0) = true
  · rw [if_pos zero]
    rw [beq_iff number number_literal_zero, value_eq_iff, signedRank_zero] at zero
    obtain ⟨is_number, rank_one⟩ := form_ofBits (b := 1) (s := .positive) (n := 1) (by decide) rfl
    rw [zero]
    exact ⟨is_number, rank_one⟩
  · rw [if_neg zero]
    rw [beq_iff number number_literal_zero, value_eq_iff, signedRank_zero] at zero
    by_cases above : x > 0
    · rw [if_pos above]
      have positive : 0 < signedRank (form x) := by
        have := (lt_iff number_literal_zero number).mp above
        rwa [value_lt_iff, signedRank_zero] at this
      cases s
      · rw [ranked, signed] at positive
        omega
      · rw [ranked, signed] at below ⊢
        rw [signBit] at bits
        refine form_ofBits (s := .positive) (n := n + 1) (by omega) ?_
        rw [UInt64.toNat_add, signBit, ← bits]
        show (0 + n + 1) % 2 ^ 64 = 0 + (n + 1)
        omega
    · rw [if_neg above]
      have negative : signedRank (form x) < 0 := by
        have := (float_not_lt_iff number_literal_zero number).mp above
        rw [le_iff number number_literal_zero, value_le_iff, signedRank_zero] at this
        omega
      cases s
      · rw [ranked, signed] at negative ⊢
        rw [signBit] at bits
        have pattern : (x.toBits - 1).toNat = 2 ^ 63 + (n - 1) := by
          rw [UInt64.toNat_sub, ← bits]
          show (2 ^ 64 - 1 + (2 ^ 63 + n)) % 2 ^ 64 = 2 ^ 63 + (n - 1)
          omega
        obtain ⟨is_number, lower⟩ :=
          form_ofBits (s := .negative) (n := n - 1) (by omega) pattern
        refine ⟨is_number, ?_⟩
        rw [lower, signed]
        omega
      · rw [ranked, signed] at negative
        omega

/-- The number before one above minus infinity has the rank before. -/
theorem signedRank_nextDown (number : x.isNaN = false)
    (above : -infinityRank < signedRank (form x)) :
    (nextDown x).isNaN = false ∧ signedRank (form (nextDown x)) = signedRank (form x) - 1 := by
  -- A step down is a step up of the opposite number, whose rank is the opposite one.
  have opposite : signedRank (form (-x)) < infinityRank := by
    rw [signedRank_neg]
    omega
  obtain ⟨is_number, next⟩ := signedRank_nextUp ((isNaN_neg x).trans number) opposite
  rw [nextDown, isNaN_neg, signedRank_neg, next, signedRank_neg]
  exact ⟨is_number, by omega⟩

/-- A float is less than infinity if its rank is less than the greatest. -/
theorem value_lt_limit_iff : value x < limit ↔ signedRank (form x) < infinityRank := by
  rw [← value_infinity, value_lt_iff, signedRank_infinity]

/-- It is greater than negative infinity if its rank is greater than the least. -/
theorem neg_limit_lt_value_iff : -limit < value x ↔ -infinityRank < signedRank (form x) := by
  rw [neg_lt, ← value_neg, value_lt_limit_iff, signedRank_neg, neg_lt]

/-- No value exceeds the one that stands for infinity. -/
theorem value_le_limit (x : Float) : value x ≤ limit := by
  rw [← value_infinity, value_le_iff, signedRank_infinity]
  by_cases nan : form x = .notANumber
  · rw [nan, signedRank]
    omega
  · obtain ⟨s, n, hn, -, ranked⟩ := exists_rank (canonical_form x) nan
    rw [ranked]
    cases s <;> rw [signed] <;> omega

/-- Nor does one fall short of its opposite. -/
theorem neg_limit_le_value (x : Float) : -limit ≤ value x := by
  have opposite := value_le_limit (-x)
  rw [value_neg] at opposite
  linarith

/-- Infinity has no next number up. -/
theorem nextUp_of_limit (number : x.isNaN = false) (top : value x = limit) : nextUp x = x := by
  have same : (x == infinity) = true := by
    rw [beq_iff number number_infinity, value_infinity, top]
  rw [nextUp, same, Bool.or_true, if_pos rfl]

/-- Minus infinity has no next number down. -/
theorem value_nextDown_of_limit (number : x.isNaN = false) (bottom : value x = -limit) :
    value (nextDown x) = -limit := by
  have top : value (-x) = limit := by rw [value_neg, bottom, neg_neg]
  rw [nextDown, value_neg, nextUp_of_limit ((isNaN_neg x).trans number) top, top]

/-- The next number up is a number. -/
theorem isNaN_nextUp (h : x.isNaN = false) : (nextUp x).isNaN = false := by
  rcases (value_le_limit x).lt_or_eq with below | top
  · exact (signedRank_nextUp h (value_lt_limit_iff.mp below)).1
  · rwa [nextUp_of_limit h top]

/-- The next number down is a number. -/
theorem isNaN_nextDown (h : x.isNaN = false) : (nextDown x).isNaN = false := by
  rw [nextDown, isNaN_neg]
  exact isNaN_nextUp (by rwa [isNaN_neg])

/-! ### Order of neighbours -/

/-- No number is between one below infinity and the next one up: their ranks follow each other. -/
theorem nextUp_le_iff (hx : x.isNaN = false) (hy : y.isNaN = false) (below : value x < limit) :
    nextUp x ≤ y ↔ x < y := by
  obtain ⟨number, next⟩ := signedRank_nextUp hx (value_lt_limit_iff.mp below)
  rw [le_iff number hy, lt_iff hx hy, value_le_iff, value_lt_iff, next, Int.add_one_le_iff]

/-- What is less than a number is at most the next one down. -/
theorem le_nextDown_iff (hx : x.isNaN = false) (hy : y.isNaN = false) (above : -limit < value x) :
    y ≤ nextDown x ↔ y < x := by
  obtain ⟨number, next⟩ := signedRank_nextDown hx (neg_limit_lt_value_iff.mp above)
  rw [le_iff hy number, lt_iff hy hx, value_le_iff, value_lt_iff, next, Int.le_sub_one_iff]

/-- The next number up is not above the numbers that are above. -/
theorem nextUp_le_of_lt (h : x < y) : nextUp x ≤ y := by
  obtain ⟨hx, hy⟩ := number_of_lt h
  have below : value x < limit := ((lt_iff hx hy).mp h).trans_le (value_le_limit y)
  exact (nextUp_le_iff hx hy below).mpr h

/-- The next number down is not below the numbers that are below. -/
theorem le_nextDown_of_lt (h : x < y) : x ≤ nextDown y := by
  obtain ⟨hx, hy⟩ := number_of_lt h
  have above : -limit < value y := (neg_limit_le_value x).trans_lt ((lt_iff hx hy).mp h)
  exact (le_nextDown_iff hy hx above).mpr h

/-- What the next number up bounds from below is above the number, unless it is infinite. -/
theorem lt_of_nextUp_le (hx : x.isNaN = false) (finite : value y < limit) (h : nextUp x ≤ y) :
    x < y := by
  have hy := (number_of_le h).2
  rcases (value_le_limit x).lt_or_eq with below | top
  · exact (nextUp_le_iff hx hy below).mp h
  · -- Infinity is its own next number, and is not below a finite one.
    rw [nextUp_of_limit hx top, le_iff hx hy, top] at h
    exact absurd h (not_le.mpr finite)

/-- What the next number down bounds from above is below the number, unless it is infinite. -/
theorem lt_of_le_nextDown (hx : x.isNaN = false) (finite : -limit < value y) (h : y ≤ nextDown x) :
    y < x := by
  obtain ⟨hy, number⟩ := number_of_le h
  rcases (neg_limit_le_value x).eq_or_lt with bottom | above
  · rw [le_iff hy number, value_nextDown_of_limit hx bottom.symm] at h
    exact absurd h (not_le.mpr finite)
  · exact (le_nextDown_iff hx hy above).mp h

/-- Numbers other than infinity are less than it. -/
theorem lt_infinity_iff (number : x.isNaN = false) : x < infinity ↔ value x < limit := by
  rw [lt_iff number number_infinity, value_infinity]

/-- Numbers other than negative infinity are greater than it. -/
theorem negInfinity_lt_iff (number : x.isNaN = false) : negInfinity < x ↔ -limit < value x := by
  rw [lt_iff number_negInfinity number, negInfinity, value_neg, value_infinity]

/-- The next number up is the least of the greater ones. -/
theorem isLeast_nextUp (number : x.isNaN = false) (below : x < infinity) :
    IsLeast {y | x < y} (nextUp x) := by
  have next := isNaN_nextUp number
  rw [lt_infinity_iff number] at below
  -- What is above is what the next number bounds from below, and that bounds itself.
  have above : x < nextUp x := (nextUp_le_iff number next below).mp (float_le_refl next)
  exact ⟨above, fun y h => nextUp_le_of_lt h⟩

/-- The next number down is the greatest of the lesser ones. -/
theorem isGreatest_nextDown (number : x.isNaN = false) (above : negInfinity < x) :
    IsGreatest {y | y < x} (nextDown x) := by
  have next := isNaN_nextDown number
  rw [negInfinity_lt_iff number] at above
  have below : nextDown x < x := (le_nextDown_iff number next above).mp (float_le_refl next)
  exact ⟨below, fun y h => le_nextDown_of_lt h⟩

/-- **Nothing lies between a number and its neighbours.**  Of a number below infinity the next one up
    is the least number above, and of one above minus infinity the next one down is the greatest
    number below.  So finite numbers are beyond a bound, which may be infinite, exactly if they are
    not before its neighbour. -/
theorem nothing_between_neighbours (number : x.isNaN = false) :
    (x < infinity → IsLeast {y | x < y} (nextUp x)) ∧
    (negInfinity < x → IsGreatest {y | y < x} (nextDown x)) ∧
    ∀ y : Float, y.isFinite = true → (x < y ↔ nextUp x ≤ y) ∧ (y < x ↔ y ≤ nextDown x) := by
  refine ⟨isLeast_nextUp number, isGreatest_nextDown number, fun y finite => ?_⟩
  have bounds := abs_lt.mp ((isFinite_iff (number_of_isFinite finite)).mp finite)
  exact ⟨⟨nextUp_le_of_lt, lt_of_nextUp_le number bounds.2⟩,
    ⟨le_nextDown_of_lt, lt_of_le_nextDown number bounds.1⟩⟩

/-- The greatest number below zero has zero as a neighbour, with the sign that stepping its bit
    pattern leaves. -/
theorem nothing_between_neighbours_at_zero :
    ((-minPositive).isNaN = false ∧ -minPositive < infinity ∧ negInfinity < -minPositive ∧
      (0 : Float).isFinite = true) ∧
    IsLeast {y | -minPositive < y} (-0) ∧
    IsGreatest {y | y < -minPositive} (Float.ofBits 0x8000000000000002) ∧
    (-minPositive < 0 ↔ (-0 : Float) ≤ 0) ∧
    ((0 : Float) < -minPositive ↔ 0 ≤ Float.ofBits 0x8000000000000002) := by
  have number : (-minPositive).isNaN = false := rfl
  have below : -minPositive < infinity := by decide
  have above : negInfinity < -minPositive := by decide
  obtain ⟨least, greatest, closed⟩ := nothing_between_neighbours number
  exact ⟨⟨number, below, above, rfl⟩, least below, greatest above, closed 0 rfl⟩

end SchemaSampler.Binary64
