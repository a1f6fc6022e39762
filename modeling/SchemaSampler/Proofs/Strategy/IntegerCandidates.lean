import SchemaSampler.Proofs.Lists
import SchemaSampler.Proofs.Random.Yields
import SchemaSampler.Proofs.Schema.BigintCheck
import SchemaSampler.Strategy.BigintCandidate

namespace SchemaSampler

/-!
# Candidates of big integers — exact ones meet all checks

The integers of a range that come up are those between its ends, all of them
(`Candidate.reaches_image_iff`).  The plan of the checks of a big integer keeps the strictest bounds
and all steps (`BigintPlan.Covers`), and the multiples of a step by factors between the quotients of
the bounds lie between the bounds.  So they meet all checks (`BigintPlan.product_holds`), and so do
all exact candidates (`bigintCandidate_yields`).
-/

namespace Candidate

theorem yields_integerRange {lo hi : Int} (h : lo ≤ hi) :
    (integerRange lo hi).Yields fun n => lo ≤ n ∧ n ≤ hi := by
  refine Sampler.yields_weighted (fun option member => ?_) (Sampler.yields_pure ⟨by omega, h⟩)
  simp only [List.map_cons, List.map_nil, List.mem_cons, List.not_mem_nil, or_false] at member
  rcases member with rfl | rfl | rfl
  · exact Sampler.yields_pure ⟨by omega, h⟩
  · exact Sampler.yields_pure ⟨h, by omega⟩
  · exact Sampler.yields_intBetween h

/-- Each integer of a range comes up. -/
theorem reaches_integerRange {lo hi k : Int} (above : lo ≤ k) (below : k ≤ hi) :
    (integerRange lo hi).Reaches k := by
  intro question
  -- The ticket falls to the inside of the range, and the next answer counts from its start.
  let choices : Choices := fun q last =>
    ⟨min (if q = question then 2 else (k - lo).toNat) last, Nat.lt_succ_of_le (Nat.min_le_right _ _)⟩
  have ticket : (choices question 9).val = 2 := by simp [choices]
  have answer : (choices (question + 1) (hi - lo).toNat).val = (k - lo).toNat := by
    simp only [choices, if_neg (Nat.succ_ne_self question)]
    omega
  refine ⟨choices, ?_⟩
  show ((((Weighted.at? [(1, pure lo), (1, pure hi), (8, Sampler.intBetween lo hi)]
    (choices question 9).val).getD (pure lo)) : Sampler Int) choices (question + 1)).1 = k
  rw [ticket]
  show lo + ((choices (question + 1) (hi - lo).toNat).val : Int) = k
  rw [answer]
  omega

/-- What comes up from the integers of a range are their images. -/
theorem reaches_image_iff {α : Type} {lo hi : Int} (h : lo ≤ hi) (f : Int → α) {a : α} :
    Sampler.Reaches (integerRange lo hi >>= fun k => pure (f k)) a ↔
      ∃ k, lo ≤ k ∧ k ≤ hi ∧ a = f k := by
  constructor
  · intro reached
    have images := (yields_integerRange h).bind (R := fun a => ∃ k, lo ≤ k ∧ k ≤ hi ∧ a = f k)
      fun k hk => Sampler.yields_pure ⟨k, hk.1, hk.2, rfl⟩
    exact images.of_reaches reached
  · rintro ⟨k, above, below, rfl⟩
    exact (reaches_integerRange above below).map f

/-- A list with an element and no room for another. -/
theorem eq_singleton_of_mem {α : Type} {a : α} {as : List α} (member : a ∈ as)
    (short : as.length ≤ 1) : as = [a] := by
  obtain ⟨b, rfl⟩ := List.length_eq_one_iff.mp (Nat.le_antisymm short (List.length_pos_of_mem member))
  rw [List.mem_singleton.mp member]

end Candidate

/-! ### Big integers -/

namespace BigintPlan

/-- Whatever lies between the bounds of a plan and is a multiple of its steps meets a check. -/
def Covers (plan : BigintPlan) : BigintCheck → Prop
  | .min bound inclusive =>
    ∃ lo, plan.lo = some lo ∧ if inclusive then bound ≤ lo else bound < lo
  | .max bound inclusive =>
    ∃ hi, plan.hi = some hi ∧ if inclusive then hi ≤ bound else hi < bound
  | .multipleOf step => step ∈ plan.steps

variable {plan plan' : BigintPlan} {check other : BigintCheck} {checks : List BigintCheck}

theorem add_min {bound : Int} {inclusive : Bool} (h : plan.add (.min bound inclusive) = .ok plan') :
    plan' = { plan with
      lo := some (plan.lo.elim (if inclusive then bound else bound + 1)
        (max (if inclusive then bound else bound + 1))) } := by
  simp only [add] at h
  split at h
  · cases h
  · exact (Except.ok.inj h).symm

theorem add_max {bound : Int} {inclusive : Bool} (h : plan.add (.max bound inclusive) = .ok plan') :
    plan' = { plan with
      hi := some (plan.hi.elim (if inclusive then bound else bound - 1)
        (min (if inclusive then bound else bound - 1))) } := by
  simp only [add] at h
  split at h
  · cases h
  · exact (Except.ok.inj h).symm

/-- A check that was added is covered. -/
theorem covers_add (h : plan.add check = .ok plan') : plan'.Covers check := by
  cases check with
  | min bound inclusive =>
    obtain rfl := add_min h
    refine ⟨_, rfl, ?_⟩
    cases inclusive <;> cases plan.lo <;>
      simp only [Option.elim, if_true, Bool.false_eq_true, if_false] <;> omega
  | max bound inclusive =>
    obtain rfl := add_max h
    refine ⟨_, rfl, ?_⟩
    cases inclusive <;> cases plan.hi <;>
      simp only [Option.elim, if_true, Bool.false_eq_true, if_false] <;> omega
  | multipleOf step =>
    cases h
    simp [Covers]

/-- A check that was covered stays so when others are added. -/
theorem Covers.add (covered : plan.Covers other) (h : plan.add check = .ok plan') :
    plan'.Covers other := by
  cases check with
  | min bound inclusive =>
    obtain rfl := add_min h
    cases other with
    | min b i =>
      obtain ⟨lo, hlo, below⟩ := covered
      refine ⟨_, rfl, ?_⟩
      rw [hlo, Option.elim_some]
      cases i <;> simp at below ⊢ <;> omega
    | _ => exact covered
  | max bound inclusive =>
    obtain rfl := add_max h
    cases other with
    | max b i =>
      obtain ⟨hi, hhi, above⟩ := covered
      refine ⟨_, rfl, ?_⟩
      rw [hhi, Option.elim_some]
      cases i <;> simp at above ⊢ <;> omega
    | _ => exact covered
  | multipleOf step =>
    cases h
    cases other with
    | multipleOf s => exact List.mem_append_left _ covered
    | _ => exact covered

/-- The plan of a list of checks covers them all. -/
theorem covers_ofChecks (h : ofChecks checks = .ok plan) : ∀ check ∈ checks, plan.Covers check := by
  refine foldlM_induction (motive := fun seen plan => ∀ check ∈ seen, plan.Covers check) (by simp)
    (fun seen plan check next covered added other member => ?_) h
  rcases List.mem_append.mp member with member | member
  · exact (covered other member).add added
  · rw [List.mem_singleton.mp member]
    exact covers_add added

/-- The step of a plan is positive, and the only step if there is one has its magnitude. -/
theorem step_eq_ok {step : Int} (h : plan.step = .ok step) :
    0 < step ∧ ∀ s, plan.steps = [s] → s ≠ 0 ∧ step = s.natAbs := by
  unfold BigintPlan.step at h
  split at h
  · rename_i none_given
    cases h
    exact ⟨by omega, fun s only => by rw [none_given] at only; cases only⟩
  · rename_i first rest given
    split at h
    · cases h
    · split at h
      · cases h
      · cases h
        refine ⟨by omega, fun s only => ?_⟩
        rw [given] at only
        cases only
        exact ⟨‹_›, rfl⟩

/-- A number in the range of a plan that is a multiple of its only step meets the checks that the
    plan covers, unless a check has no answer for it. -/
theorem Covers.holds (covered : plan.Covers check) {n : Int} (above : plan.lowEnd ≤ n)
    (below : n ≤ plan.highEnd) (multiple : ∀ s ∈ plan.steps, s ≠ 0 ∧ s ∣ n) :
    check.holds? n ≠ some false := by
  cases check with
  | min bound inclusive =>
    obtain ⟨lo, hlo, stricter⟩ := covered
    rw [lowEnd, hlo, Option.getD_some] at above
    cases inclusive <;> simp [BigintCheck.holds?] at stricter ⊢ <;> omega
  | max bound inclusive =>
    obtain ⟨hi, hhi, stricter⟩ := covered
    rw [highEnd, hhi, Option.getD_some] at below
    cases inclusive <;> simp [BigintCheck.holds?] at stricter ⊢ <;> omega
  | multipleOf step =>
    obtain ⟨nonzero, divides⟩ := multiple step covered
    rw [BigintCheck.holds?_multipleOf nonzero divides]
    split <;> simp

end BigintPlan

/-- A multiple of a step by a factor between the quotients of two bounds, rounded inwards, lies
    between the bounds. -/
theorem between_of_quotients {lo hi step k : Int} (positive : 0 < step)
    (above : -(-lo).fdiv step ≤ k) (below : k ≤ hi.fdiv step) : lo ≤ k * step ∧ k * step ≤ hi := by
  rw [Int.fdiv_eq_ediv_of_nonneg _ (by omega)] at above below
  have hlo := Int.ediv_mul_le (-lo) (Int.ne_of_gt positive)
  have hhi := Int.ediv_mul_le hi (Int.ne_of_gt positive)
  have lower : -k * step ≤ -lo / step * step :=
    Int.mul_le_mul_of_nonneg_right (by omega) (by omega)
  have upper : k * step ≤ hi / step * step := Int.mul_le_mul_of_nonneg_right below (by omega)
  rw [Int.neg_mul] at lower
  omega

/-- The product of the step by a factor between the quotients is refused by no check, if there is no
    other step. -/
theorem BigintPlan.product_holds {plan : BigintPlan} {checks : List BigintCheck} {step k : Int}
    (planned : ofChecks checks = .ok plan) (strided : plan.step = .ok step)
    (few : plan.steps.length ≤ 1) (above : -(-plan.lowEnd).fdiv step ≤ k)
    (below : k ≤ plan.highEnd.fdiv step) : ∀ check ∈ checks, check.holds? (k * step) ≠ some false := by
  intro check member
  obtain ⟨positive, only⟩ := step_eq_ok strided
  obtain ⟨lower, upper⟩ := between_of_quotients positive above below
  refine (covers_ofChecks planned check member).holds lower upper fun s hs => ?_
  obtain ⟨nonzero, magnitude⟩ := only s (Candidate.eq_singleton_of_mem hs few)
  refine ⟨nonzero, ?_⟩
  rw [magnitude]
  exact Int.dvd_mul_of_dvd_right (Int.dvd_natAbs.mpr (Int.dvd_refl s))

/-- Candidates of a big integer schema come from a plan with a step and a factor between its
    quotients. -/
theorem bigintCandidate_eq_ok {checks : List BigintCheck} {c : Candidate}
    (h : bigintCandidate checks = .ok c) :
    ∃ plan step, BigintPlan.ofChecks checks = .ok plan ∧ plan.step = .ok step ∧
      -(-plan.lowEnd).fdiv step ≤ plan.highEnd.fdiv step ∧
      c = { sampler := do
              pure (.bigint ((← Candidate.integerRange (-(-plan.lowEnd).fdiv step)
                (plan.highEnd.fdiv step)) * step))
            exact := plan.steps.length ≤ 1 } := by
  unfold bigintCandidate at h
  cases planned : BigintPlan.ofChecks checks with
  | error e =>
    rw [planned] at h
    cases h
  | ok plan =>
    cases strided : plan.step with
    | error e =>
      rw [planned] at h
      simp only [bind, Except.bind, strided] at h
      cases h
    | ok step =>
      rw [planned] at h
      simp only [bind, Except.bind, strided] at h
      split at h
      · cases h
      · rename_i nonempty
        cases h
        exact ⟨plan, step, rfl, strided, Int.not_lt.mp nonempty, rfl⟩

/-- The candidates of a big integer schema are big integers, which no check refuses if the candidates
    are exact. -/
theorem bigintCandidate_yields {checks : List BigintCheck} {c : Candidate}
    (h : bigintCandidate checks = .ok c) :
    c.sampler.Yields fun v =>
      ∃ n, v = .bigint n ∧ (c.exact → ∀ check ∈ checks, check.holds? n ≠ some false) := by
  obtain ⟨plan, step, planned, strided, nonempty, rfl⟩ := bigintCandidate_eq_ok h
  refine (Candidate.yields_integerRange nonempty).bind fun k hk =>
    Sampler.yields_pure ⟨k * step, rfl, fun sure => ?_⟩
  exact BigintPlan.product_holds planned strided (of_decide_eq_true sure) hk.1 hk.2

end SchemaSampler
