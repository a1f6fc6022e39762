import SchemaSampler.Proofs.Binary64.Equal
import SchemaSampler.Proofs.Random.Yields
import SchemaSampler.Random.Number

namespace SchemaSampler.Sampler

open Binary64

/-!
# Random numbers — they stay in their span and fill it

* `reaches_floatBetween_iff` — from a span exactly its numbers are drawn, however the sums that most
  of them come from are rounded.
* `yields_finiteFloat` — a number of all sizes is finite.
-/

/-- Numbers that are evenly spread over a span lie in it. -/
theorem yields_evenBetween {lo hi : Float} (h : lo ≤ hi) :
    (evenBetween lo hi).Yields fun x => lo ≤ x ∧ x ≤ hi := by
  obtain ⟨hlo, hhi⟩ := number_of_le h
  refine (yields_upTo _).bind fun k _ => yields_pure ?_
  split
  · exact ⟨float_le_refl hlo, h⟩
  · split
    · assumption
    · exact ⟨h, float_le_refl hhi⟩

/-- A number drawn from a span lies in it. -/
theorem yields_floatBetween {lo hi : Float} (h : lo ≤ hi) :
    (floatBetween lo hi).Yields fun x => lo ≤ x ∧ x ≤ hi := by
  refine (yields_evenBetween h).bind fun even inside => (yields_upTo _).bind fun ticket _ => ?_
  refine Yields.bind (Q := fun _ => True) (fun _ _ => trivial) fun any _ => yields_pure ?_
  split
  · rename_i taken
    exact taken.2
  · exact inside

/-- A number is read off its bit pattern again. -/
theorem ofBits_toBits {x : Float} (number : x.isNaN = false) : Float.ofBits x.toBits = x :=
  ofForm_form number

/-- **A span is drawn from in full**: each of its numbers comes up, and nothing else does. -/
theorem reaches_floatBetween_iff {lo hi x : Float} (h : lo ≤ hi) :
    (floatBetween lo hi).Reaches x ↔ lo ≤ x ∧ x ≤ hi := by
  refine ⟨(yields_floatBetween h).of_reaches, fun inside question => ?_⟩
  have number := (number_of_le inside.1).2
  -- the second question lets any number through, and the third one is answered by its pattern
  let choices : Choices := fun asked last =>
    if asked = question + 2 then Fin.ofNat (last + 1) x.toBits.toNat else 0
  have pattern_eq : (pattern choices (question + 2)).1 = x := by
    have small : x.toBits.toNat % (Nat.pow 2 64 - 1 + 1) = x.toBits.toNat :=
      Nat.mod_eq_of_lt x.toBits.toNat_lt
    show Float.ofBits (UInt64.ofNat (choices (question + 2) (Nat.pow 2 64 - 1)).val) = x
    rw [show choices (question + 2) = _ from funext fun _ => if_pos rfl]
    show Float.ofBits (UInt64.ofNat (x.toBits.toNat % (Nat.pow 2 64 - 1 + 1))) = x
    rw [small, UInt64.ofNat_toNat, ofBits_toBits number]
  have ticket : (choices (question + 1) 4095).val = 0 := by
    simp only [choices, if_neg (show question + 1 ≠ question + 2 by omega)]
    rfl
  refine ⟨choices, ?_⟩
  show (if (choices (question + 1) 4095).val = 0 ∧ lo ≤ (pattern choices (question + 2)).1 ∧
      (pattern choices (question + 2)).1 ≤ hi then (pattern choices (question + 2)).1 else _) = x
  rw [pattern_eq, if_pos ⟨ticket, inside⟩]

/-- The fields of a finite number make one. -/
theorem isFinite_ofFields (negative : Bool) {exponent mantissa : ℕ} (he : exponent ≤ 2046)
    (hm : mantissa < 2 ^ 52) : (ofFields negative exponent mantissa).isFinite = true := by
  have whole : infinityRank = 2047 * 2 ^ 52 := rfl
  have mantissas : Nat.pow 2 52 = 2 ^ 52 := rfl
  have signs : Nat.pow 2 63 = 2 ^ 63 := rfl
  have bits (sign : ℕ) (small : sign ≤ 2 ^ 63) :
      (UInt64.ofNat (sign + exponent * 2 ^ 52 + mantissa)).toNat =
        sign + (exponent * 2 ^ 52 + mantissa) := by
    rw [UInt64.toNat_ofNat', ← Nat.add_assoc]
    refine Nat.mod_eq_of_lt ?_
    omega
  have below : exponent * 2 ^ 52 + mantissa < infinityRank := by omega
  rw [ofFields, mantissas, signs]
  cases negative with
  | false =>
    rw [if_neg (by decide)]
    exact isFinite_ofBits (s := .positive) below (bits 0 (Nat.zero_le _))
  | true =>
    rw [if_pos rfl]
    exact isFinite_ofBits (s := .negative) below (bits (2 ^ 63) (Nat.le_refl _))

theorem yields_finiteFloat : finiteFloat.Yields fun x => x.isFinite = true := by
  refine yields_bool.bind fun negative _ => (yields_upTo 26).bind fun ticket _ => ?_
  have mantissas : (1 : ℕ) ≤ Nat.pow 2 52 - 1 := by decide
  have below {n : ℕ} (h : n ≤ Nat.pow 2 52 - 1) : n < 2 ^ 52 := by
    have whole : Nat.pow 2 52 = 2 ^ 52 := rfl
    omega
  split
  · refine (yields_between (by decide : (1 : ℕ) ≤ 2046)).bind fun e he => ?_
    exact (yields_upTo _).bind fun m hm => yields_pure (isFinite_ofFields negative he.2 (below hm))
  · split
    · exact (yields_between mantissas).bind fun m hm =>
        yields_pure (isFinite_ofFields negative (Nat.zero_le _) (below hm.2))
    · exact yields_pure (isFinite_ofFields negative (Nat.zero_le _) (Nat.two_pow_pos 52))

end SchemaSampler.Sampler
