import SchemaSampler.Proofs.Binary64.Adjacent
import SchemaSampler.Proofs.Binary64.Integral

namespace SchemaSampler.Binary64

open Float.Model (UnpackedFloat)
open Float.Model.UnpackedFloat (Sign)

/-!
# Equal numbers — only the sign of a zero tells them apart

Two equal numbers have one value or are both not a number (`same_iff`), so that equality is an
equivalence.  Numbers of one value are one number or two zeros (`eq_or_zeros_of_value_eq`), and a
zero divided by a number is a zero again, whatever its sign (`div_of_zero`).
-/

variable {x y z : Float}

/-! ### Equality -/

/-- Numbers are equal when their values are; what is no number is equal to its like. -/
theorem same_iff : same x y = true ↔ x.isNaN = y.isNaN ∧ value x = value y := by
  have no_value {a : Float} (nan : a.isNaN = true) : value a = 0 := by
    rw [value]
    cases ha : form a with
    | notANumber => rfl
    | _ =>
      have number : a.isNaN = false := isNaN_eq_false_iff.mpr (by simp [ha])
      rw [nan] at number
      cases number
  have incomparable (h : x.isNaN = true ∨ y.isNaN = true) : (x == y) = false := by
    rw [Bool.eq_false_iff]
    intro equal
    have comparable : ((form x).compare (form y) == some .eq) = true := equal
    obtain ⟨hx, hy⟩ := compare_isSome (x := x) (y := y) (by rw [beq_iff_eq.mp comparable]; rfl)
    rcases h with h | h <;> simp_all
  rw [same]
  cases hx : x.isNaN <;> cases hy : y.isNaN
  · simpa using beq_iff hx hy
  · simp [incomparable (.inr hy)]
  · simp [incomparable (.inl hx)]
  · simp [no_value hx, no_value hy]

theorem same_symm (h : same x y = true) : same y x = true := by
  obtain ⟨number, value⟩ := same_iff.mp h
  exact same_iff.mpr ⟨number.symm, value.symm⟩

theorem same_trans (h : same x y = true) (h' : same y z = true) : same x z = true := by
  obtain ⟨number, value⟩ := same_iff.mp h
  obtain ⟨number', value'⟩ := same_iff.mp h'
  exact same_iff.mpr ⟨number.trans number', value.trans value'⟩

/-! ### Forms -/

/-- A number is put together from its form again. -/
theorem ofForm_form (number : x.isNaN = false) : ofForm (form x) = x := by
  have bits : (ofForm (form x)).toModel.toBits = x.toModel.toBits := by
    have packed := pack_toNat (canonical_form x)
    rw [code_form number] at packed
    exact UInt64.toNat_inj.mp packed
  obtain ⟨⟨b, valid⟩⟩ := x
  show Float.ofModel ⟨_, _⟩ = Float.ofModel ⟨b, valid⟩
  simp only [Float.ofModel.injEq, Float.Model.mk.injEq]
  exact bits

/-- Canonical forms of one rank are one form or two zeros. -/
theorem eq_or_zeros_of_signedRank {u v : UnpackedFloat} (hu : Canonical u) (hv : Canonical v)
    (numberU : u ≠ .notANumber) (numberV : v ≠ .notANumber) (h : signedRank u = signedRank v) :
    u = v ∨ ∃ s t, u = .zero s ∧ v = .zero t := by
  have infinite : infinityRank = 2047 * 2 ^ 52 := rfl
  cases u with
  | notANumber => exact absurd rfl numberU
  | infinity s =>
    cases v with
    | notANumber => exact absurd rfl numberV
    | infinity t => cases s <;> cases t <;> simp_all [signedRank, signed]
    | zero t => cases s <;> simp [signedRank, signed, infinite] at h
    | finite t n f hn =>
      obtain ⟨short, least, most, -⟩ := hv
      cases s <;> cases t <;> simp only [signedRank, signed, rank, infinite] at h <;> omega
  | zero s =>
    cases v with
    | notANumber => exact absurd rfl numberV
    | infinity t => cases t <;> simp [signedRank, signed, infinite] at h
    | zero t => exact .inr ⟨s, t, rfl, rfl⟩
    | finite t n f hn => cases t <;> simp only [signedRank, signed, rank] at h <;> omega
  | finite s m e hm =>
    obtain ⟨shortU, leastU, mostU, fullU⟩ := hu
    cases v with
    | notANumber => exact absurd rfl numberV
    | infinity t =>
      cases s <;> cases t <;> simp only [signedRank, signed, rank, infinite] at h <;> omega
    | zero t => cases s <;> simp only [signedRank, signed, rank] at h <;> omega
    | finite t n f hn =>
      obtain ⟨shortV, leastV, mostV, fullV⟩ := hv
      left
      have parts : s = t ∧ e = f ∧ m = n := by
        cases s <;> cases t <;> simp only [signedRank, signed, rank] at h <;>
          refine ⟨?_, ?_, ?_⟩ <;> first | rfl | omega
      obtain ⟨rfl, rfl, rfl⟩ := parts
      rfl

/-- Numbers of one value are one number or two zeros. -/
theorem eq_or_zeros_of_value_eq (hx : x.isNaN = false) (hy : y.isNaN = false)
    (h : value x = value y) : x = y ∨ ∃ s t, form x = .zero s ∧ form y = .zero t := by
  rcases eq_or_zeros_of_signedRank (canonical_form x) (canonical_form y)
    (isNaN_eq_false_iff.mp hx) (isNaN_eq_false_iff.mp hy) ((value_eq_iff x y).mp h) with one | zeros
  · left
    rw [← ofForm_form hx, one, ofForm_form hy]
  · exact .inr zeros

/-! ### Quotients -/

/-- A zero divided by a number other than zero is a zero. -/
theorem div_of_zero {s : Sign} (hx : form x = .zero s) (hy : y.isNaN = false)
    (nonzero : (y == 0) = false) : ∃ t, x / y = ofForm (.zero t) := by
  have quotient : x / y = ofForm (UnpackedFloat.div format (form x) (form y)) := rfl
  rw [quotient, hx]
  cases fy : form y with
  | notANumber => exact absurd fy (isNaN_eq_false_iff.mp hy)
  | zero t =>
    have equal := (beq_iff hy number_literal_zero).mpr
      ((value_zero fy).trans value_literal_zero.symm)
    rw [nonzero] at equal
    cases equal
  | infinity t | finite t n f h => exact ⟨s / t, rfl⟩

/-- A zero divided by what is no number is none either. -/
theorem div_of_nan {s : Sign} (hx : form x = .zero s) (nan : y.isNaN = true) :
    (x / y).isFinite = false := by
  have quotient : x / y = ofForm (UnpackedFloat.div format (form x) (form y)) := rfl
  have no_number : form y = .notANumber := by
    by_contra number
    rw [isNaN_eq_false_iff.mpr number] at nan
    cases nan
  rw [quotient, hx, no_number]
  show (form (ofForm .notANumber)).isFinite = false
  rw [form_ofForm (u := .notANumber) trivial]
  rfl

end SchemaSampler.Binary64
