import SchemaSampler.Proofs.Strategy.BigintContradictions

namespace SchemaSampler

/-!
# Words of big integers — no step leaves the 128 bits

The candidates of a big integer schema are worked out here once more in words of 128 bits, where an
operation has no result if the integer is no word, and where divisions truncate.  Checks that have a
plan have the same plan in words (`BigintPlan.inWords_ofChecks`), quotients lie between zero and what
is divided (`Bigint.floorQuotient?_eq`, `Bigint.ceilQuotient?_eq`), and so the range that is worked
out in words is the one of the candidates (`wordRange?_eq`).

* `bigintCandidate_words` — candidates are worked out in words, and are all the multiples of the step
  between the bounds, which meet all checks but for one.
* `exists_candidate_overflowing` — that one comes up: the check of a step of minus one has no answer for
  the least word.
-/

open Bigint

/-! ### Words -/

namespace Bigint

/-- An integer that fits into 128 bits. -/
def IsWord (n : Int) : Prop := least ≤ n ∧ n ≤ greatest

instance (n : Int) : Decidable (IsWord n) := inferInstanceAs (Decidable (_ ∧ _))

/-- The result of an operation on words, if it is a word. -/
def word? (n : Int) : Option Int := if IsWord n then some n else none

/-- The quotient of a word by a positive one rounded down, by a division that rounds toward zero. -/
def floorQuotient? (n step : Int) : Option Int := do
  let quotient ← word? (n.tdiv step)
  let rest ← word? (n.tmod step)
  if rest < 0 then word? (quotient - 1) else some quotient

/-- The quotient of a word by a positive one rounded up, by a division that rounds toward zero. -/
def ceilQuotient? (n step : Int) : Option Int := do
  let quotient ← word? (n.tdiv step)
  let rest ← word? (n.tmod step)
  if 0 < rest then word? (quotient + 1) else some quotient

variable {lo hi n step : Int}

theorem least_eq : least = -greatest - 1 := by decide

theorem word?_eq (word : IsWord n) : word? n = some n := if_pos word

/-- What lies between two words is one. -/
theorem IsWord.between (start : IsWord lo) (finish : IsWord hi) (above : lo ≤ n) (below : n ≤ hi) :
    IsWord n :=
  ⟨Int.le_trans start.1 above, Int.le_trans below finish.2⟩

theorem isWord_max (start : IsWord lo) (finish : IsWord hi) : IsWord (max lo hi) :=
  ⟨Int.le_trans start.1 (Int.le_max_left _ _), Int.max_le.mpr ⟨start.2, finish.2⟩⟩

theorem isWord_min (start : IsWord lo) (finish : IsWord hi) : IsWord (min lo hi) :=
  ⟨Int.le_min.mpr ⟨start.1, finish.1⟩, Int.le_trans (Int.min_le_left _ _) start.2⟩

theorem IsWord.succ (word : IsWord n) (room : n ≠ greatest) : IsWord (n + 1) := by
  obtain ⟨lower, upper⟩ := word
  exact ⟨by omega, by omega⟩

theorem IsWord.pred (word : IsWord n) (room : n ≠ least) : IsWord (n - 1) := by
  obtain ⟨lower, upper⟩ := word
  exact ⟨by omega, by omega⟩

theorem IsWord.natAbs (word : IsWord n) (room : n ≠ least) : IsWord n.natAbs := by
  obtain ⟨lower, upper⟩ := word
  rw [least_eq] at lower room
  exact ⟨by rw [least_eq]; omega, by omega⟩

theorem isWord_zero : IsWord 0 := by decide

/-- What lies between zero and a word is one. -/
theorem IsWord.toward_zero {m : Int} (word : IsWord n) (above : min n 0 ≤ m) (below : m ≤ max n 0) :
    IsWord m := by
  have start : least ≤ 0 := isWord_zero.1
  have finish : 0 ≤ greatest := isWord_zero.2
  obtain ⟨lower, upper⟩ := word
  exact ⟨by omega, by omega⟩

theorem isWord_saturate (n : Int) : IsWord (saturate n) := by
  have room : least ≤ greatest := by decide
  exact ⟨Int.le_max_left _ _, Int.max_le.mpr ⟨room, Int.min_le_left _ _⟩⟩

/-- A truncated quotient lies between zero and what is divided. -/
theorem tdiv_toward_zero (positive : 0 < step) (n : Int) :
    min n 0 ≤ n.tdiv step ∧ n.tdiv step ≤ max n 0 := by
  rcases Int.le_total 0 n with sign | sign
  · have above := Int.tdiv_nonneg sign (Int.le_of_lt positive)
    have below := Int.tdiv_le_self step sign
    omega
  · have above := Int.tdiv_nonneg (Int.neg_nonneg_of_nonpos sign) (Int.le_of_lt positive)
    have below := Int.tdiv_le_self step (Int.neg_nonneg_of_nonpos sign)
    rw [Int.neg_tdiv] at above below
    omega

/-- The remainder of a division by a word is a word. -/
theorem isWord_tmod (positive : 0 < step) (word : IsWord step) (n : Int) : IsWord (n.tmod step) := by
  have below := Int.tmod_lt_of_pos n positive
  have above := Int.lt_tmod_of_pos n positive
  obtain ⟨-, upper⟩ := word
  exact ⟨by rw [least_eq]; omega, by omega⟩

/-- A quotient rounded down lies between zero and what is divided. -/
theorem ediv_toward_zero (positive : 0 < step) (n : Int) :
    min n 0 ≤ n / step ∧ n / step ≤ max n 0 := by
  rcases Int.le_total 0 n with sign | sign
  · have above := Int.ediv_nonneg sign (Int.le_of_lt positive)
    have below := Int.ediv_le_self step sign
    omega
  · have above : n ≤ n / step := by
      have longer := Int.mul_le_mul_of_nonpos_left sign (Int.add_one_le_of_lt positive)
      rw [Int.zero_add, Int.mul_one] at longer
      exact Int.le_ediv_of_mul_le positive longer
    have below := Int.ediv_nonpos_of_nonpos_of_neg sign positive
    omega

/-- Truncating and then correcting the quotient by one rounds it down, in words. -/
theorem floorQuotient?_eq (positive : 0 < step) (number : IsWord n) (word : IsWord step) :
    floorQuotient? n step = some (n.fdiv step) ∧ IsWord (n.fdiv step) := by
  have truncated := tdiv_toward_zero positive n
  have rounded := ediv_toward_zero positive n
  have parts := Int.mul_tdiv_add_tmod n step
  have below := Int.tmod_lt_of_pos n positive
  have above := Int.lt_tmod_of_pos n positive
  have fits : IsWord (n / step) := number.toward_zero rounded.1 rounded.2
  rw [Int.fdiv_eq_ediv_of_nonneg _ (Int.le_of_lt positive)]
  refine ⟨?_, fits⟩
  simp only [floorQuotient?, word?_eq (number.toward_zero truncated.1 truncated.2),
    word?_eq (isWord_tmod positive word n), Option.bind_eq_bind, Option.bind_some]
  split
  · -- A negative remainder means that truncating went up.
    have corrected : n / step = n.tdiv step - 1 := by
      refine ((Int.ediv_emod_unique (r := n.tmod step + step) positive).mpr ⟨?_, ?_, ?_⟩).1
      · rw [Int.mul_sub, Int.mul_one]; omega
      · omega
      · omega
    rw [← corrected, word?_eq fits]
  · have same : n / step = n.tdiv step := by
      refine ((Int.ediv_emod_unique (r := n.tmod step) positive).mpr ⟨?_, ?_, ?_⟩).1 <;> omega
    rw [same]

/-- Truncating and then correcting the quotient by one rounds it up, in words. -/
theorem ceilQuotient?_eq (positive : 0 < step) (number : IsWord n) (word : IsWord step) :
    ceilQuotient? n step = some (-(-n).fdiv step) ∧ IsWord (-(-n).fdiv step) := by
  have truncated := tdiv_toward_zero positive n
  have rounded := ediv_toward_zero positive (-n)
  have parts := Int.mul_tdiv_add_tmod n step
  have below := Int.tmod_lt_of_pos n positive
  have above := Int.lt_tmod_of_pos n positive
  have fits : IsWord (-(-n / step)) := number.toward_zero (by omega) (by omega)
  rw [Int.fdiv_eq_ediv_of_nonneg _ (Int.le_of_lt positive)]
  refine ⟨?_, fits⟩
  simp only [ceilQuotient?, word?_eq (number.toward_zero truncated.1 truncated.2),
    word?_eq (isWord_tmod positive word n), Option.bind_eq_bind, Option.bind_some]
  split
  · -- A positive remainder means that truncating went down.
    have corrected : -n / step = -(n.tdiv step + 1) := by
      refine ((Int.ediv_emod_unique (r := step - n.tmod step) positive).mpr ⟨?_, ?_, ?_⟩).1
      · rw [Int.mul_neg, Int.mul_add, Int.mul_one]; omega
      · omega
      · omega
    rw [corrected, Int.neg_neg] at fits ⊢
    rw [word?_eq fits]
  · have same : -n / step = -n.tdiv step := by
      refine ((Int.ediv_emod_unique (r := -n.tmod step) positive).mpr ⟨?_, ?_, ?_⟩).1
      · rw [Int.mul_neg]; omega
      · omega
      · omega
    rw [same, Int.neg_neg]

end Bigint

/-! ### Plans in words -/

/-- The number that a check is about. -/
def BigintCheck.number : BigintCheck → Int
  | .min bound _ => bound
  | .max bound _ => bound
  | .multipleOf step => step

variable {checks : List BigintCheck} {check : BigintCheck} {plan plan' : BigintPlan} {step : Int}

namespace BigintPlan

/-- Adds a check to a plan, in words. -/
def addWord? (plan : BigintPlan) : BigintCheck → Option BigintPlan
  | .min bound inclusive => do
    let bound ← if inclusive then some bound else word? (bound + 1)
    some { plan with lo := some (plan.lo.elim bound (max bound)) }
  | .max bound inclusive => do
    let bound ← if inclusive then some bound else word? (bound - 1)
    some { plan with hi := some (plan.hi.elim bound (min bound)) }
  | .multipleOf step => some { plan with steps := plan.steps ++ [step] }

/-- The numbers of a plan are words. -/
structure InWords (plan : BigintPlan) : Prop where
  lo : ∀ lo, plan.lo = some lo → IsWord lo
  hi : ∀ hi, plan.hi = some hi → IsWord hi
  steps : ∀ step ∈ plan.steps, IsWord step

/-- A check about a word that can be added to a plan can be added in words. -/
theorem InWords.add (words : plan.InWords) (word : IsWord check.number)
    (h : plan.add check = .ok plan') : plan.addWord? check = some plan' ∧ plan'.InWords := by
  cases check with
  | min bound inclusive =>
    simp only [BigintPlan.add] at h
    split at h
    · cases h
    · rename_i room
      cases h
      -- An exclusive bound has a successor, as it is not the greatest word.
      have raised : IsWord (if inclusive then bound else bound + 1) := by
        cases inclusive with
        | true => exact word
        | false => exact word.succ (by simpa [BigintCheck.number] using room)
      refine ⟨?_, fun lo hlo => ?_, words.hi, words.steps⟩
      · cases inclusive with
        | true => rfl
        | false => simp [addWord?, word?_eq (n := bound + 1) raised]
      · cases hlo
        cases old : plan.lo with
        | none => exact raised
        | some lo => exact isWord_max raised (words.lo lo old)
  | max bound inclusive =>
    simp only [BigintPlan.add] at h
    split at h
    · cases h
    · rename_i room
      cases h
      have lowered : IsWord (if inclusive then bound else bound - 1) := by
        cases inclusive with
        | true => exact word
        | false => exact word.pred (by simpa [BigintCheck.number] using room)
      refine ⟨?_, words.lo, fun hi hhi => ?_, words.steps⟩
      · cases inclusive with
        | true => rfl
        | false => simp [addWord?, word?_eq (n := bound - 1) lowered]
      · cases hhi
        cases old : plan.hi with
        | none => exact lowered
        | some hi => exact isWord_min lowered (words.hi hi old)
  | multipleOf step =>
    cases h
    refine ⟨rfl, words.lo, words.hi, fun s member => ?_⟩
    rcases List.mem_append.mp member with member | member
    · exact words.steps s member
    · rwa [List.mem_singleton.mp member]

/-- Checks about words that have a plan have it in words. -/
theorem inWords_ofChecks (words : ∀ check ∈ checks, IsWord check.number)
    (h : ofChecks checks = .ok plan) : checks.foldlM addWord? empty = some plan ∧ plan.InWords := by
  -- Induction on the checks seen so far, which have to be about words themselves.
  revert words
  refine foldlM_induction
    (motive := fun seen plan => (∀ check ∈ seen, IsWord check.number) →
      seen.foldlM addWord? empty = some plan ∧ plan.InWords)
    (fun _ => ⟨rfl, nofun, nofun, nofun⟩) (fun seen plan check next earlier added words => ?_) h
  obtain ⟨run, given⟩ := earlier fun check member => words check (List.mem_append_left _ member)
  obtain ⟨same, kept⟩ := given.add (words check (by simp)) added
  refine ⟨?_, kept⟩
  rw [List.foldlM_append, run]
  simp [same]

/-- The magnitude of the first step, in words. -/
def wordStep? (plan : BigintPlan) : Option Int :=
  match plan.steps with
  | [] => some 1
  | step :: _ => word? step.natAbs

/-- A step of a plan is worked out in words. -/
theorem InWords.wordStep?_eq (words : plan.InWords) (h : plan.step = .ok step) :
    plan.wordStep? = some step ∧ IsWord step := by
  unfold BigintPlan.step at h
  split at h
  · rename_i none_given
    cases h
    exact ⟨by rw [wordStep?, none_given], by decide⟩
  · rename_i first rest given
    split at h
    · cases h
    · split at h
      · cases h
      · rename_i nonzero usual
        cases h
        have magnitude := (words.steps first (by simp [given])).natAbs usual
        exact ⟨by rw [wordStep?, given]; exact word?_eq magnitude, magnitude⟩

/-- The ends of the range are words. -/
theorem InWords.ends (words : plan.InWords) : IsWord plan.lowEnd ∧ IsWord plan.highEnd := by
  obtain ⟨lo, hi, steps⟩ := plan
  constructor
  · cases lo with
    | none => exact isWord_saturate _
    | some lo => exact words.lo lo rfl
  · cases hi with
    | none => exact isWord_saturate _
    | some hi => exact words.hi hi rfl

end BigintPlan

/-! ### Candidates in words -/

/-- What the candidates of a big integer schema are worked out from: the bounds, declared or not, the
    magnitude of the step and the factors at the ends. -/
structure BigintRange where
  /-- The start of the range. -/
  lo : Int
  /-- The end of the range. -/
  hi : Int
  /-- The magnitude of the step. -/
  step : Int
  /-- The least factor. -/
  first : Int
  /-- The greatest factor. -/
  last : Int

/-- Works out a range of multiples in words; it is missing if a number on the way is no word. -/
def wordRange? (checks : List BigintCheck) : Option BigintRange := do
  let plan ← checks.foldlM BigintPlan.addWord? .empty
  let step ← plan.wordStep?
  -- An end that stands in for a missing bound is saturated.
  let lo ← word? plan.lowEnd
  let hi ← word? plan.highEnd
  let first ← ceilQuotient? lo step
  let last ← floorQuotient? hi step
  some ⟨lo, hi, step, first, last⟩

/-- The range of checks that have a plan and a step is worked out in words. -/
theorem wordRange?_eq (words : ∀ check ∈ checks, IsWord check.number)
    (planned : BigintPlan.ofChecks checks = .ok plan) (strided : plan.step = .ok step) :
    wordRange? checks = some ⟨plan.lowEnd, plan.highEnd, step, -(-plan.lowEnd).fdiv step,
      plan.highEnd.fdiv step⟩ := by
  obtain ⟨run, given⟩ := BigintPlan.inWords_ofChecks words planned
  obtain ⟨magnitude, word⟩ := given.wordStep?_eq strided
  obtain ⟨start, finish⟩ := given.ends
  have positive := (BigintPlan.step_eq_ok strided).1
  simp only [wordRange?, run, magnitude, word?_eq start, word?_eq finish,
    (ceilQuotient?_eq positive start word).1, (floorQuotient?_eq positive finish word).1,
    Option.bind_eq_bind, Option.bind_some]

/-- **The candidates of a big integer schema are worked out in words, and are all multiples between
    the bounds.**  Let the checks be about words, with at most one step among them, and have
    candidates.  Then no number on the way to them leaves the 128 bits.  The candidates are the
    products of the step by the factors of the range, and together they are the multiples of the step
    between the bounds.  Each product is a word that meets all checks, except that a step of minus one
    has no answer for the least word. -/
theorem bigintCandidate_words {c : Candidate} (words : ∀ check ∈ checks, IsWord check.number)
    (single : (checks.filterMap BigintCheck.step?).length ≤ 1)
    (given : bigintCandidate checks = .ok c) :
    ∃ plan range, BigintPlan.ofChecks checks = .ok plan ∧ wordRange? checks = some range ∧
      range.lo = plan.lowEnd ∧ range.hi = plan.highEnd ∧ plan.step = .ok range.step ∧
      c.exact = true ∧
      (∀ v, c.sampler.Reaches v ↔
        ∃ k, range.first ≤ k ∧ k ≤ range.last ∧ v = .bigint (k * range.step)) ∧
      (∀ k, range.first ≤ k → k ≤ range.last →
        word? (k * range.step) = some (k * range.step) ∧
          ∀ check ∈ checks, check.holds? (k * range.step) = some true ∨
            check = .multipleOf (-1) ∧ k * range.step = least ∧
              check.holds? (k * range.step) = none) ∧
      ∀ n, (∃ k, range.first ≤ k ∧ k ≤ range.last ∧ n = k * range.step) ↔
        range.step ∣ n ∧ range.lo ≤ n ∧ n ≤ range.hi := by
  obtain ⟨plan, step, planned, strided, nonempty, rfl⟩ := bigintCandidate_eq_ok given
  have worked := wordRange?_eq words planned strided
  obtain ⟨start, finish⟩ := (BigintPlan.inWords_ofChecks words planned).2.ends
  have positive := (BigintPlan.step_eq_ok strided).1
  have few : plan.steps.length ≤ 1 := by rwa [BigintPlan.steps_ofChecks planned]
  refine ⟨plan, _, planned, worked, rfl, rfl, strided, decide_eq_true few,
    fun v => Candidate.reaches_image_iff nonempty fun k => Value.bigint (k * step),
    fun k above below => ?_, fun n => ?_⟩
  · -- A product lies between the ends, which are words.
    obtain ⟨lower, upper⟩ := between_of_quotients positive above below
    refine ⟨word?_eq (start.between finish lower upper), fun check member => ?_⟩
    have unrefused := BigintPlan.product_holds planned strided few above below check member
    by_cases overflows : check.Overflows (k * step)
    · exact .inr ⟨overflows.2, overflows.1, BigintCheck.holds?_eq_none_iff.mpr overflows⟩
    · exact .inl (BigintCheck.holds?_eq_some_true unrefused overflows)
  · constructor
    · rintro ⟨k, above, below, rfl⟩
      exact ⟨Int.dvd_mul_left k step, between_of_quotients positive above below⟩
    · rintro ⟨⟨k, rfl⟩, above, below⟩
      rw [Int.mul_comm] at above below
      obtain ⟨first, last⟩ := quotients_of_between positive above below
      exact ⟨k, first, last, Int.mul_comm step k⟩

/-- The least word is a candidate of multiples of minus one from it on, although the check of the step
    has no answer for it: the test of the value that was drawn breaks off. -/
theorem exists_candidate_overflowing :
    let checks : List BigintCheck := [.min least true, .multipleOf (-1)]
    ∃ c, bigintCandidate checks = .ok c ∧ c.exact = true ∧ c.sampler.Reaches (.bigint least) ∧
      (BigintCheck.multipleOf (-1)).holds? least = none ∧
      ∀ definitions depth site id, Schema.runWithin definitions (depth + 1) site
        (.node id (.bigint checks)) (.bigint least) = .error .overflow := by
  intro checks
  refine ⟨_, rfl, rfl, ?_, by decide, fun definitions depth site id => rfl⟩
  exact (Candidate.reaches_image_iff (by decide) fun k => Value.bigint (k * 1)).mpr
    ⟨least, by decide, by decide, rfl⟩

/-- Multiples of minus three between the least and the greatest word, both excluded: all of them come
    up, and nothing else. -/
theorem bigintCandidate_words_between :
    let checks : List BigintCheck := [.min least false, .max greatest false, .multipleOf (-3)]
    ∃ c range, bigintCandidate checks = .ok c ∧ wordRange? checks = some range ∧ range.step = 3 ∧
      ∀ n, c.sampler.Reaches (.bigint n) ↔ 3 ∣ n ∧ least < n ∧ n < greatest := by
  intro checks
  obtain ⟨c, given⟩ : ∃ c, bigintCandidate checks = .ok c := ⟨_, rfl⟩
  obtain ⟨plan, range, -, worked, -, -, -, -, reaches, -, multiples⟩ :=
    bigintCandidate_words (by decide) (by decide) given
  have known : range.step = 3 ∧ range.lo = least + 1 ∧ range.hi = greatest - 1 := by
    cases worked
    exact ⟨rfl, rfl, rfl⟩
  obtain ⟨step, lo, hi⟩ := known
  refine ⟨c, range, given, worked, step, fun n => ?_⟩
  rw [reaches]
  simp only [Value.bigint.injEq]
  rw [multiples, step, lo, hi]
  omega

end SchemaSampler
