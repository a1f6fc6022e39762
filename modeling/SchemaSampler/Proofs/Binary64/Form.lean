import Mathlib
import SchemaSampler.Binary64

namespace SchemaSampler.Binary64

open Float.Model (UnpackedFloat)
open Float.Model.UnpackedFloat (Sign)

/-!
# The form of binary64 numbers — bit patterns and unpacked numbers

A number that is unpacked from its bits has a `Canonical` form: the mantissa of a finite one has 53
bits, or fewer where the exponent is the least.  `code` gives the bit pattern of such a form, and
packing and unpacking are inverse to each other (`code_unpack`, `unpack_pack`).
-/

/-- The format of the numbers. -/
abbrev format : Float.Model.Format := Float.Model.Format.binary64

/-- The forms that numbers are unpacked to. -/
def Canonical : UnpackedFloat → Prop
  | .finite _ mantissa exponent _ =>
    mantissa < 2 ^ 53 ∧ -1074 ≤ exponent ∧ exponent ≤ 971 ∧ (2 ^ 52 ≤ mantissa ∨ exponent = -1074)
  | _ => True

/-- The sign bit, as a part of a bit pattern. -/
def signBit : Sign → Nat
  | .positive => 0
  | .negative => 2 ^ 63

/-- Bit patterns of numbers without a sign count them up from zero: this is the number of the finite
    one with a mantissa and an exponent. -/
def rank (mantissa : Nat) (exponent : Int) : Nat := (exponent + 1074).toNat * 2 ^ 52 + mantissa

theorem rank_least (mantissa : Nat) : rank mantissa (-1074) = mantissa := by
  simp [rank]

/-- The fields of the rank of a number with a full mantissa. -/
theorem rank_fields {mantissa : Nat} {exponent : Int} (short : mantissa < 2 ^ 53)
    (least : -1074 ≤ exponent) (full : 2 ^ 52 ≤ mantissa) :
    rank mantissa exponent / 2 ^ 52 = (exponent + 1075).toNat ∧
      rank mantissa exponent % 2 ^ 52 = mantissa - 2 ^ 52 := by
  rw [rank]
  omega

/-- The rank of infinity. -/
def infinityRank : Nat := 2047 * 2 ^ 52

/-- The bit pattern of a form. -/
def code : UnpackedFloat → Nat
  | .infinity sign => signBit sign + infinityRank
  | .notANumber => infinityRank + 2 ^ 51
  | .zero sign => signBit sign
  | .finite sign mantissa exponent _ => signBit sign + rank mantissa exponent

/-! ### Fields -/

theorem unpackExponent_toNat (b : BitVec 64) :
    (@UnpackedFloat.unpackExponent format b).toNat = b.toNat / 2 ^ 52 % 2 ^ 11 := by
  simp [UnpackedFloat.unpackExponent, Nat.shiftRight_eq_div_pow]

theorem unpackMantissa_toNat (b : BitVec 64) :
    (@UnpackedFloat.unpackMantissa format b).toNat = b.toNat % 2 ^ 52 := by
  simp [UnpackedFloat.unpackMantissa]

theorem unpackSign_toNat (b : BitVec 64) :
    (@UnpackedFloat.unpackSign format b).toNat = b.toNat / 2 ^ 63 := by
  have small : b.toNat < 2 ^ 64 := b.isLt
  simp [UnpackedFloat.unpackSign, Nat.shiftRight_eq_div_pow]
  omega

theorem packComponents_toNat (sign : Sign) (exponent : BitVec 11) (mantissa : BitVec 52) :
    (UnpackedFloat.packComponents format sign exponent mantissa).toNat =
      signBit sign + exponent.toNat * 2 ^ 52 + mantissa.toNat := by
  have hm : mantissa.toNat < 2 ^ 52 := mantissa.isLt
  have he : exponent.toNat < 2 ^ 11 := exponent.isLt
  have split : (UnpackedFloat.packComponents format sign exponent mantissa).toNat =
      (sign.toBitVec.toNat * 2 ^ 11 + exponent.toNat) * 2 ^ 52 + mantissa.toNat := by
    rw [UnpackedFloat.packComponents, BitVec.toNat_append, BitVec.toNat_append,
      ← Nat.shiftLeft_add_eq_or_of_lt hm, ← Nat.shiftLeft_add_eq_or_of_lt he, Nat.shiftLeft_eq,
      Nat.shiftLeft_eq]
  rw [split]
  cases sign with
  | positive =>
    rw [show (Sign.positive.toBitVec).toNat = 0 from rfl, signBit]
    omega
  | negative =>
    rw [show (Sign.negative.toBitVec).toNat = 1 from rfl, signBit]
    omega

/-- The bit that a sign stands for. -/
theorem signBit_ofBitVec (b : BitVec 1) : signBit (Sign.ofBitVec b) = b.toNat * 2 ^ 63 := by
  by_cases zero : b = 0#1
  · rw [Sign.ofBitVec, if_pos zero, zero]
    rfl
  · have one : b.toNat = 1 := by
      have small : b.toNat < 2 ^ 1 := b.isLt
      have nonzero : b.toNat ≠ 0 := fun h => zero (BitVec.eq_of_toNat_eq h)
      omega
    rw [Sign.ofBitVec, if_neg zero, one]
    rfl

/-! ### Unpacking -/

/-- What a bit pattern is unpacked to, by its exponent and mantissa fields. -/
def fromFields (sign : Sign) (exponent mantissa : Nat) : UnpackedFloat :=
  if exponent = 2047 then if mantissa = 0 then .infinity sign else .notANumber
  else if exponent = 0 then
    if h : mantissa = 0 then .zero sign else .finite sign mantissa (-1074) (Nat.pos_of_ne_zero h)
  else .finite sign (2 ^ 52 + mantissa) ((exponent : Int) - 1075) (by omega)

/-- Unpacking takes the fields of a bit pattern. -/
theorem unpack_eq_fromFields (b : BitVec 64) :
    ∃ sign, signBit sign = b.toNat / 2 ^ 63 * 2 ^ 63 ∧ UnpackedFloat.unpack format b =
      fromFields sign (b.toNat / 2 ^ 52 % 2 ^ 11) (b.toNat % 2 ^ 52) := by
  have exponent := unpackExponent_toNat b
  have mantissa := unpackMantissa_toNat b
  have sign := signBit_ofBitVec (@UnpackedFloat.unpackSign format b)
  rw [unpackSign_toNat] at sign
  refine ⟨_, sign, ?_⟩
  rw [← exponent, ← mantissa]
  generalize hE : @UnpackedFloat.unpackExponent format b = E
  generalize hM : @UnpackedFloat.unpackMantissa format b = M
  have full : E = -1#_ ↔ E.toNat = 2047 :=
    ⟨fun h => by rw [h]; rfl, fun h => BitVec.eq_of_toNat_eq (h.trans rfl)⟩
  have emptyE : E = 0#_ ↔ E.toNat = 0 :=
    ⟨fun h => by rw [h]; rfl, fun h => BitVec.eq_of_toNat_eq (h.trans rfl)⟩
  have emptyM : M = 0#_ ↔ M.toNat = 0 :=
    ⟨fun h => by rw [h]; rfl, fun h => BitVec.eq_of_toNat_eq (h.trans rfl)⟩
  have implicit : (1#1 ++ M).toNat = 2 ^ 52 + M.toNat := by
    rw [BitVec.toNat_append, ← Nat.shiftLeft_add_eq_or_of_lt M.isLt]
    rfl
  have bias : ((format.exponentBias : Int) + format.mantissaBitsWithoutImplicit) = 1075 := rfl
  unfold UnpackedFloat.unpack fromFields
  simp only [hE, hM, full, emptyE, emptyM, implicit, bias]
  by_cases infinite : E.toNat = 2047
  · rw [if_pos infinite, if_pos infinite]
  · rw [if_neg infinite, if_neg infinite]
    by_cases subnormal : E.toNat = 0
    · rw [if_pos subnormal, if_pos subnormal]
      by_cases zero : M.toNat = 0
      · rw [dif_pos zero, dif_pos zero]
      · rw [dif_neg zero, dif_neg zero]
        simp only [subnormal]
        rfl
    · rw [if_neg subnormal, if_neg subnormal]

theorem canonical_fromFields (sign : Sign) {exponent mantissa : Nat} (he : exponent < 2 ^ 11)
    (hm : mantissa < 2 ^ 52) : Canonical (fromFields sign exponent mantissa) := by
  unfold fromFields
  split
  · split <;> exact trivial
  · split
    · split
      · exact trivial
      · exact ⟨by omega, by omega, by omega, Or.inr rfl⟩
    · exact ⟨by omega, by omega, by omega, Or.inl (by omega)⟩

/-- The form that a bit pattern is unpacked to is canonical. -/
theorem canonical_unpack (b : BitVec 64) : Canonical (UnpackedFloat.unpack format b) := by
  obtain ⟨sign, -, form⟩ := unpack_eq_fromFields b
  rw [form]
  exact canonical_fromFields sign (Nat.mod_lt _ (by decide)) (Nat.mod_lt _ (by decide))

/-- The bit pattern of the fields, unless they say that there is no number. -/
theorem code_fromFields (sign : Sign) {exponent mantissa : Nat}
    (number : exponent = 2047 → mantissa = 0) :
    code (fromFields sign exponent mantissa) = signBit sign + exponent * 2 ^ 52 + mantissa := by
  unfold fromFields
  split
  · rename_i infinite
    rw [if_pos (number infinite), infinite, number infinite]
    rfl
  · split
    · rename_i subnormal
      split
      · rename_i zero
        rw [subnormal, zero]
        rfl
      · show signBit sign + rank mantissa (-1074) = _
        rw [rank_least]
        omega
    · show signBit sign + rank (2 ^ 52 + mantissa) ((exponent : Int) - 1075) = _
      have normal : ((exponent : Int) - 1075 + 1074).toNat = exponent - 1 := by omega
      rw [rank, normal]
      omega

/-- The fields of the rank of a finite number give it back. -/
theorem fromFields_rank (s : Sign) {m : Nat} {e : Int} (positive : 0 < m)
    (canonical : Canonical (.finite s m e positive)) :
    fromFields s (rank m e / 2 ^ 52) (rank m e % 2 ^ 52) = .finite s m e positive := by
  obtain ⟨short, least, most, normal⟩ := canonical
  by_cases subnormal : m < 2 ^ 52
  · obtain rfl : e = -1074 := by omega
    rw [rank_least, Nat.div_eq_of_lt subnormal, Nat.mod_eq_of_lt subnormal, fromFields,
      if_neg (by decide), if_pos rfl, dif_neg (by omega)]
  · obtain ⟨field, rest⟩ := rank_fields short least (Nat.le_of_not_lt subnormal)
    have mantissa : 2 ^ 52 + (m - 2 ^ 52) = m := by omega
    have exponent : ((e + 1075).toNat : Int) - 1075 = e := by omega
    rw [field, rest, fromFields, if_neg (by omega), if_neg (by omega)]
    simp only [mantissa, exponent]

/-- The fields of the bit pattern of a canonical form give it back. -/
theorem fromFields_code {u : UnpackedFloat} (canonical : Canonical u) {sign : Sign}
    (same : signBit sign = code u / 2 ^ 63 * 2 ^ 63) (number : u ≠ .notANumber) :
    fromFields sign (code u / 2 ^ 52 % 2 ^ 11) (code u % 2 ^ 52) = u := by
  have sign_eq : ∀ (s : Sign) (n : Nat), n < 2 ^ 63 → code u = signBit s + n → sign = s ∧
      code u / 2 ^ 52 % 2 ^ 11 = n / 2 ^ 52 ∧ code u % 2 ^ 52 = n % 2 ^ 52 := by
    intro s n small written
    rw [written] at same ⊢
    cases sign <;> cases s <;> simp only [signBit, reduceCtorEq, false_and, true_and] at same ⊢ <;>
      omega
  cases u with
  | infinity s =>
    obtain ⟨rfl, exponent, mantissa⟩ := sign_eq s infinityRank (by decide) rfl
    rw [exponent, mantissa]
    rfl
  | notANumber => exact absurd rfl number
  | zero s =>
    obtain ⟨rfl, exponent, mantissa⟩ := sign_eq s 0 (by decide) rfl
    rw [exponent, mantissa]
    rfl
  | finite s m e positive =>
    obtain ⟨short, least, most, normal⟩ := canonical
    have small : rank m e < 2 ^ 63 := by
      rw [rank]
      omega
    obtain ⟨rfl, exponent, mantissa⟩ := sign_eq s (rank m e) small rfl
    rw [exponent, mantissa]
    exact fromFields_rank sign positive ⟨short, least, most, normal⟩

/-- Unpacking undoes `code`. -/
theorem unpack_of_toNat {u : UnpackedFloat} (canonical : Canonical u) (number : u ≠ .notANumber)
    {b : BitVec 64} (same : b.toNat = code u) : UnpackedFloat.unpack format b = u := by
  obtain ⟨sign, hsign, form⟩ := unpack_eq_fromFields b
  rw [same] at hsign form
  rw [form, fromFields_code canonical hsign number]

/-- `code` undoes unpacking, except that there are many bit patterns that stand for no number. -/
theorem code_unpack {b : BitVec 64} (number : UnpackedFloat.unpack format b ≠ .notANumber) :
    code (UnpackedFloat.unpack format b) = b.toNat := by
  obtain ⟨sign, hsign, form⟩ := unpack_eq_fromFields b
  rw [form] at number ⊢
  have full : b.toNat / 2 ^ 52 % 2 ^ 11 = 2047 → b.toNat % 2 ^ 52 = 0 := by
    intro infinite
    by_cases zero : b.toNat % 2 ^ 52 = 0
    · exact zero
    · rw [fromFields, if_pos infinite, if_neg zero] at number
      exact absurd rfl number
  rw [code_fromFields sign full, hsign]
  omega

/-! ### Packing -/

/-- Packing a canonical form gives its bit pattern. -/
theorem pack_toNat {u : UnpackedFloat} (canonical : Canonical u) :
    (UnpackedFloat.pack format u).toNat = code u := by
  cases u with
  | infinity s =>
    cases s <;> decide
  | notANumber => decide
  | zero s =>
    cases s <;> decide
  | finite s m e positive =>
    obtain ⟨short, least, most, normal⟩ := canonical
    have bias : e + (format.exponentBias : Int) + format.mantissaBitsWithoutImplicit = e + 1075 := by
      rw [show (format.exponentBias : Int) = 1023 from rfl,
        show (format.mantissaBitsWithoutImplicit : Int) = 52 from rfl]
      omega
    have fits : ¬ 2 ^ format.exponentBits ≤ (e + 1075).toNat + 1 := by
      show ¬ 2 ^ 11 ≤ (e + 1075).toNat + 1
      omega
    rw [UnpackedFloat.pack]
    simp only [bias]
    rw [if_neg fits, show format.mantissaBits = 53 from rfl]
    show _ = signBit s + rank m e
    by_cases full : 2 ^ 52 ≤ m
    · have digits : m.log2 + 1 = 53 := by
        have := (Nat.log2_eq_iff (by omega)).mpr ⟨full, short⟩
        omega
      rw [if_pos digits, packComponents_toNat, BitVec.toNat_ofNat, BitVec.toNat_ofNat, rank]
      omega
    · have digits : ¬ m.log2 + 1 = 53 := by
        have := (Nat.log2_lt (n := m) (k := 52) (by omega)).mpr (by omega)
        omega
      obtain rfl : e = -1074 := by omega
      rw [if_neg digits, packComponents_toNat, BitVec.toNat_ofNat, BitVec.toNat_ofNat, rank_least]
      show signBit s + 0 % 2 ^ 11 * 2 ^ 52 + m % 2 ^ 52 = signBit s + m
      rw [Nat.mod_eq_of_lt (by omega)]
      omega

/-- A finite number with too large an exponent is packed as an infinity. -/
theorem pack_overflow (s : Sign) {m : Nat} {e : Int} (positive : 0 < m) (large : 972 ≤ e) :
    UnpackedFloat.pack format (.finite s m e positive) =
      UnpackedFloat.pack format (.infinity s) := by
  have bias : e + (format.exponentBias : Int) + format.mantissaBitsWithoutImplicit = e + 1075 := by
    rw [show (format.exponentBias : Int) = 1023 from rfl,
      show (format.mantissaBitsWithoutImplicit : Int) = 52 from rfl]
    omega
  have exceeds : 2 ^ format.exponentBits ≤ (e + 1075).toNat + 1 := by
    show 2 ^ 11 ≤ (e + 1075).toNat + 1
    omega
  unfold UnpackedFloat.pack
  simp only [bias]
  rw [if_pos exceeds]

/-! ### Numbers -/

/-- The form of a number. -/
abbrev form (x : Float) : UnpackedFloat := x.toModel.unpack

/-- The number of a form. -/
abbrev ofForm (u : UnpackedFloat) : Float := Float.ofModel (Float.Model.pack u)

theorem canonical_form (x : Float) : Canonical (form x) := canonical_unpack _

/-- The number of a canonical form has that form. -/
theorem form_ofForm {u : UnpackedFloat} (canonical : Canonical u) : form (ofForm u) = u := by
  cases u with
  | notANumber => rfl
  | _ =>
    exact unpack_of_toNat canonical (by simp) (pack_toNat canonical)

/-- The bit pattern of a number. -/
theorem code_form {x : Float} (number : x.isNaN = false) : code (form x) = x.toBits.toNat := by
  refine code_unpack fun h => ?_
  have nan : x.isNaN = (form x).isNaN := rfl
  rw [nan, form, Float.Model.unpack, h] at number
  cases number

end SchemaSampler.Binary64
