import SchemaSampler.Proofs.Parse.Outcome
import SchemaSampler.Proofs.Strategy.Compiled
import SchemaSampler.Proofs.Strategy.IntegerCandidates

namespace SchemaSampler

/-!
# Contradictions of big integers — what is refused has no values

A number that no check refuses passes the bounds of their plan (`BigintPlan.exists_plan`) and is a
multiple of the step.  So it lies in the range that is searched, unless it lies beyond the end that
stands in for a missing bound; in that case the range is longer than the default span, and holds
another multiple of any step that is no longer than that (`BigintPlan.exists_multiple`).

* `bigintCandidate_succeeds` — checks that do not refuse some number within reach have candidates.
* `compileInput_bigint_refused` — a contradiction is reported only if no number within reach is
  accepted, except for the least step, which is always reported.  The test of the least number breaks
  off where one of the steps is minus one.
* `exists_refused_zero` — the least step has a multiple all the same.
-/

open Bigint

/-- The step of a check of a big integer. -/
def BigintCheck.step? : BigintCheck → Option Int
  | .multipleOf step => some step
  | _ => none

/-- The first step of a list of checks. -/
def firstStep? (checks : List BigintCheck) : Option Int := checks.findSome? BigintCheck.step?

variable {checks : List BigintCheck} {check : BigintCheck} {plan plan' : BigintPlan} {n step : Int}

namespace BigintPlan

/-! ### Plans of checks that do not refuse a number -/

/-- A number lies between the bounds of a plan. -/
def Admits (plan : BigintPlan) (n : Int) : Prop :=
  (∀ lo, plan.lo = some lo → lo ≤ n) ∧ ∀ hi, plan.hi = some hi → n ≤ hi

/-- Adding a check adds its step. -/
theorem steps_add (h : plan.add check = .ok plan') :
    plan'.steps = plan.steps ++ check.step?.toList := by
  cases check with
  | min bound inclusive => simp [add_min h, BigintCheck.step?]
  | max bound inclusive => simp [add_max h, BigintCheck.step?]
  | multipleOf step =>
    cases h
    rfl

/-- The steps of a plan are those of the checks, in order. -/
theorem steps_ofChecks (h : ofChecks checks = .ok plan) :
    plan.steps = checks.filterMap BigintCheck.step? := by
  refine foldlM_induction
    (motive := fun seen plan => plan.steps = seen.filterMap BigintCheck.step?) rfl
    (fun seen plan check next given added => ?_) h
  rw [steps_add added, given, List.filterMap_append]
  cases step : check.step? <;> simp [step]

theorem head?_steps (h : ofChecks checks = .ok plan) : plan.steps.head? = firstStep? checks := by
  rw [steps_ofChecks h, List.head?_filterMap, firstStep?]

/-- A check that does not refuse an admitted number can be added, and the number stays admitted. -/
theorem Admits.add (admits : plan.Admits n) (holds : check.holds? n ≠ some false) (above : least ≤ n)
    (below : n ≤ greatest) : ∃ plan', plan.add check = .ok plan' ∧ plan'.Admits n := by
  obtain ⟨lower, upper⟩ := admits
  cases check with
  | min bound inclusive =>
    -- An exclusive bound at the very end would leave no room for the number.
    have room : (!inclusive && bound == greatest) = false := by
      cases inclusive <;> simp [BigintCheck.holds?] at holds ⊢
      omega
    obtain ⟨plan', added⟩ : ∃ plan', plan.add (.min bound inclusive) = .ok plan' :=
      ⟨_, by rw [BigintPlan.add, room]; rfl⟩
    refine ⟨plan', added, ?_⟩
    obtain rfl := add_min added
    refine ⟨fun lo hlo => ?_, upper⟩
    cases hlo
    have start : (if inclusive then bound else bound + 1) ≤ n := by
      cases inclusive <;> simp [BigintCheck.holds?] at holds ⊢ <;> omega
    cases old : plan.lo with
    | none => exact start
    | some lo => exact Int.max_le.mpr ⟨start, lower lo old⟩
  | max bound inclusive =>
    have room : (!inclusive && bound == least) = false := by
      cases inclusive <;> simp [BigintCheck.holds?] at holds ⊢
      omega
    obtain ⟨plan', added⟩ : ∃ plan', plan.add (.max bound inclusive) = .ok plan' :=
      ⟨_, by rw [BigintPlan.add, room]; rfl⟩
    refine ⟨plan', added, ?_⟩
    obtain rfl := add_max added
    refine ⟨lower, fun hi hhi => ?_⟩
    cases hhi
    have finish : n ≤ if inclusive then bound else bound - 1 := by
      cases inclusive <;> simp [BigintCheck.holds?] at holds ⊢ <;> omega
    cases old : plan.hi with
    | none => exact finish
    | some hi => exact Int.le_min.mpr ⟨finish, upper hi old⟩
  | multipleOf step => exact ⟨_, rfl, lower, upper⟩

/-- Checks that do not refuse a number have a plan, which admits the number. -/
theorem exists_plan (holds : ∀ check ∈ checks, check.holds? n ≠ some false) (above : least ≤ n)
    (below : n ≤ greatest) : ∃ plan, ofChecks checks = .ok plan ∧ plan.Admits n :=
  exists_foldlM ⟨nofun, nofun⟩ fun _ check member admits =>
    admits.add (holds check member) above below

/-! ### Multiples in the range -/

/-- The magnitude of the first step; one if there is none. -/
def stride (first : Option Int) : Int := first.elim 1 fun s => s.natAbs

/-- The step of a plan is the magnitude of its first one, unless that is zero or the least. -/
theorem step_eq (usual : plan.steps.head? ≠ some least) (nonzero : plan.steps.head? ≠ some 0) :
    plan.step = .ok (stride plan.steps.head?) := by
  unfold BigintPlan.step
  split
  · rename_i none_given
    rw [none_given]
    rfl
  · rename_i first rest given
    rw [given, List.head?_cons] at usual nonzero ⊢
    rw [if_neg fun h => nonzero (congrArg some h), if_neg fun h => usual (congrArg some h)]
    rfl

/-- Integers in a row that are as many as a step is long have a multiple of it among them. -/
theorem exists_multiple {lo hi : Int} (positive : 0 < step) (wide : lo + step ≤ hi + 1) :
    ∃ m, step ∣ m ∧ lo ≤ m ∧ m ≤ hi := by
  have below := Int.ediv_mul_le hi (Int.ne_of_gt positive)
  have above := Int.lt_ediv_add_one_mul_self hi positive
  rw [Int.add_mul, Int.one_mul] at above
  exact ⟨hi / step * step, Int.dvd_mul_left _ _, by omega, below⟩

/-- A number lies in the searched range as far as a default end is concerned. -/
def Searches (plan : BigintPlan) (n : Int) : Prop :=
  (plan.lo = none → plan.hi ≠ none → plan.lowEnd ≤ n) ∧
    (plan.hi = none → plan.lo ≠ none → n ≤ plan.highEnd)

/-- With an admitted multiple, the range that is searched has a multiple, if the admitted one lies in
    it or the step is not longer than the default span. -/
theorem exists_multiple_between (positive : 0 < step) (divides : step ∣ n) (admits : plan.Admits n)
    (above : least ≤ n) (below : n ≤ greatest) (near : step ≤ defaultSpan + 1 ∨ plan.Searches n) :
    ∃ m, step ∣ m ∧ plan.lowEnd ≤ m ∧ m ≤ plan.highEnd := by
  obtain ⟨lower, upper⟩ := admits
  have span : 0 ≤ defaultSpan := Int.natCast_nonneg _
  have start : least ≤ 0 := by decide
  have finish : 0 ≤ greatest := by decide
  obtain ⟨lo, hi, steps⟩ := plan
  cases lo with
  | none =>
    cases hi with
    | none =>
      -- Without bounds zero is searched, which is a multiple of all steps.
      refine ⟨0, Int.dvd_zero step, ?_, ?_⟩ <;> simp [lowEnd, highEnd, saturate] <;> omega
    | some hi =>
      have ends := upper hi rfl
      by_cases searched : saturate (min 0 hi - defaultSpan) ≤ n
      · exact ⟨n, divides, searched, ends⟩
      · refine exists_multiple positive ?_
        have short : step ≤ defaultSpan + 1 :=
          near.resolve_right fun searches => searched (searches.1 rfl (by simp))
        simp only [saturate, lowEnd, highEnd, Option.elim, Option.getD] at searched ⊢
        omega
  | some lo =>
    have starts := lower lo rfl
    cases hi with
    | none =>
      by_cases searched : n ≤ saturate (max 0 lo + defaultSpan)
      · exact ⟨n, divides, starts, searched⟩
      · refine exists_multiple positive ?_
        have short : step ≤ defaultSpan + 1 :=
          near.resolve_right fun searches => searched (searches.2 rfl (by simp))
        simp only [saturate, lowEnd, highEnd, Option.elim, Option.getD] at searched ⊢
        omega
    | some hi => exact ⟨n, divides, starts, upper hi rfl⟩

end BigintPlan

/-! ### Candidates -/

/-- A factor that takes a step between two bounds lies between their quotients, rounded inwards. -/
theorem quotients_of_between {lo hi k : Int} (positive : 0 < step) (above : lo ≤ k * step)
    (below : k * step ≤ hi) : -(-lo).fdiv step ≤ k ∧ k ≤ hi.fdiv step := by
  rw [Int.fdiv_eq_ediv_of_nonneg _ (by omega), Int.fdiv_eq_ediv_of_nonneg _ (by omega)]
  have start : -k ≤ -lo / step := Int.le_ediv_of_mul_le positive (by rw [Int.neg_mul]; omega)
  have finish : k ≤ hi / step := Int.le_ediv_of_mul_le positive below
  omega

/-- The first step divides the numbers that no check refuses, and is not zero if there are any. -/
theorem stride_of_holds (holds : ∀ check ∈ checks, check.holds? n ≠ some false) :
    firstStep? checks ≠ some 0 ∧ 0 < BigintPlan.stride (firstStep? checks) ∧
      BigintPlan.stride (firstStep? checks) ∣ n := by
  cases first : firstStep? checks with
  | none => exact ⟨nofun, Int.one_pos, Int.one_dvd n⟩
  | some s =>
    obtain ⟨check, member, step⟩ := List.exists_of_findSome?_eq_some first
    cases check with
    | multipleOf step =>
      cases step
      obtain ⟨nonzero, divides⟩ := BigintCheck.dvd_of_not_refused (holds _ member)
      refine ⟨fun zero => nonzero (Option.some.inj zero), ?_, ?_⟩
      · exact Int.natCast_pos.mpr (Int.natAbs_pos.mpr nonzero)
      · exact Int.natAbs_dvd.mpr divides
    | _ => cases step

/-- Checks that do not refuse some number within reach have candidates. -/
theorem bigintCandidate_succeeds (holds : ∀ check ∈ checks, check.holds? n ≠ some false)
    (above : least ≤ n) (below : n ≤ greatest) (usual : firstStep? checks ≠ some least)
    (near : BigintPlan.stride (firstStep? checks) ≤ defaultSpan + 1 ∨
      ∀ plan, BigintPlan.ofChecks checks = .ok plan → plan.Searches n) :
    ∃ c, bigintCandidate checks = .ok c := by
  obtain ⟨plan, planned, admits⟩ := BigintPlan.exists_plan holds above below
  obtain ⟨nonzero, positive, divides⟩ := stride_of_holds holds
  have step : plan.step = .ok (BigintPlan.stride (firstStep? checks)) := by
    have given := BigintPlan.head?_steps planned
    rw [← given] at usual nonzero ⊢
    exact BigintPlan.step_eq usual nonzero
  obtain ⟨m, ⟨k, rfl⟩, starts, ends⟩ := BigintPlan.exists_multiple_between positive divides admits
    above below (near.imp_right fun searches => searches plan planned)
  rw [Int.mul_comm] at starts ends
  obtain ⟨first, last⟩ := quotients_of_between positive starts ends
  rw [bigintCandidate, planned]
  simp only [bind, Except.bind, step]
  rw [if_neg (by omega)]
  exact ⟨_, rfl⟩

/-- The least step has no candidates. -/
theorem bigintCandidate_least (first : firstStep? checks = some least) :
    ∃ reason, bigintCandidate checks = .error reason := by
  cases planned : BigintPlan.ofChecks checks with
  | error reason => exact ⟨reason, by rw [bigintCandidate, planned]; rfl⟩
  | ok plan =>
    have given := BigintPlan.head?_steps planned
    have step : plan.step = .error (.stepOutOfRange least) := by
      obtain ⟨rest, steps⟩ := List.head?_eq_some_iff.mp (given.trans first)
      rw [BigintPlan.step, steps]
      rfl
    refine ⟨.stepOutOfRange least, ?_⟩
    rw [bigintCandidate, planned]
    simp only [bind, Except.bind, step]

/-! ### Compiling -/

section Compiling

variable {config : Config} {resolver : Resolver} {cell : Cell} {path : Path} {id : SchemaId}

/-- What compiling a big integer schema comes to is decided by its candidates. -/
theorem compileInput_bigint (free : resolver id = none) :
    (compileInput config resolver (.node id (.bigint checks)) cell path).outcome =
      match bigintCandidate checks with
      | .ok c => .ok (config.settle cell path (.node id (.bigint checks)) c)
      | .error reason => .error (.failed (.invalid path reason)) := by
  rw [compileInput_free free]
  show (Compiled.bind _ _).outcome = _
  cases h : bigintCandidate checks <;> simp [compileShape, h] <;> rfl

/-- A test of a big integer that some check refuses refuses it, unless it breaks off as the least number
    is divided by minus one. -/
theorem parse_bigint_refused {definitions : Definitions} {depth : Nat} {site : Site}
    (fails : ¬ ∀ check ∈ checks, check.holds? n ≠ some false) :
    let s : Schema := .node id (.bigint checks)
    (∃ issues, s.parse definitions (depth + 1) site (.bigint n) = some (.error issues)) ∨
      .multipleOf (-1) ∈ checks ∧ s.Overflows definitions (.bigint n) := by
  intro s
  refine (Schema.bigint_answers_or_overflows definitions id checks (.bigint n)).imp_left ?_
  intro answers
  obtain ⟨out, returns⟩ := answers depth site
  obtain ⟨problems, run, rfl⟩ := parseBigint_eq_some_iff.mp returns
  rw [Schema.parse, returns]
  cases found : Parsed.ofProblems site (.bigint n) problems with
  | error issues => exact ⟨_, rfl⟩
  | ok w =>
    obtain ⟨rfl, -⟩ := Parsed.ofProblems_eq_ok_iff.mp found
    refine absurd (fun check member refused => ?_) fails
    rw [BigintCheck.runAll?_eq_some_nil_iff.mp run check member] at refused
    cases refused

/-- **A big integer schema is contradictory only if no number within reach is accepted.**  If
    compiling a schema whose first step is not the least big integer comes to a contradiction, every
    test of a big integer refuses it — if the step is at most one longer than the default span, and
    else if the number is not beyond the end that stands in for a missing bound.  Only the test of
    the least big integer breaks off instead, where one of the steps is minus one.  The least big
    integer as the first step is always a contradiction. -/
theorem compileInput_bigint_refused (free : resolver id = none) :
    let s : Schema := .node id (.bigint checks)
    let outcome := (compileInput config resolver s cell path).outcome
    (firstStep? checks = some least →
      ∃ reason, outcome = .error (.failed (.invalid path reason))) ∧
    (firstStep? checks ≠ some least →
      ∀ place reason, outcome = .error (.failed (.invalid place reason)) →
        ∀ n, least ≤ n → n ≤ greatest →
          (BigintPlan.stride (firstStep? checks) ≤ defaultSpan + 1 ∨
            ∀ plan, BigintPlan.ofChecks checks = .ok plan → plan.Searches n) →
          ∀ definitions depth site,
            (∃ issues, s.parse definitions (depth + 1) site (.bigint n) = some (.error issues)) ∨
              .multipleOf (-1) ∈ checks ∧ s.Overflows definitions (.bigint n)) := by
  intro s outcome
  have compiled : outcome = _ := compileInput_bigint free
  constructor
  · intro first
    obtain ⟨reason, none_left⟩ := bigintCandidate_least first
    rw [none_left] at compiled
    exact ⟨reason, compiled⟩
  · intro usual place reason refused n above below near definitions depth site
    refine parse_bigint_refused fun holds => ?_
    obtain ⟨c, candidates⟩ := bigintCandidate_succeeds holds above below usual near
    rw [candidates] at compiled
    cases compiled.symm.trans refused

/-- No multiple of five lies between one and two: the schema is contradictory, and refuses all big
    integers. -/
theorem compileInput_bigint_refused_fives :
    let s : Schema := .node 0 (.bigint [.min 1 true, .max 2 true, .multipleOf 5])
    (compileInput .standard Resolver.empty s [] .root).outcome =
      .error (.failed (.invalid .root (.noBigintMultiple 5 1 2))) ∧
    ∀ n, least ≤ n → n ≤ greatest → ∀ definitions depth site,
      ∃ issues, s.parse definitions (depth + 1) site (.bigint n) = some (.error issues) := by
  intro s
  have refused : (compileInput .standard Resolver.empty s [] .root).outcome =
      .error (.failed (.invalid .root (.noBigintMultiple 5 1 2))) := rfl
  refine ⟨refused, fun n above below definitions depth site => ?_⟩
  rcases (compileInput_bigint_refused rfl).2 (by decide) _ _ refused n above below
    (.inl (by decide)) definitions depth site with rejected | ⟨halves, -⟩
  · exact rejected
  · exact absurd halves (by decide)

/-- The least big integer as a step is a contradiction, although zero is a multiple of it. -/
theorem exists_refused_zero :
    let s : Schema := .node 0 (.bigint [.multipleOf least])
    (compileInput .standard Resolver.empty s [] .root).outcome =
      .error (.failed (.invalid .root (.stepOutOfRange least))) ∧
    ∀ definitions depth site,
      s.parse definitions (depth + 1) site (.bigint 0) = some (.ok (.bigint 0)) := by
  intro s
  exact ⟨rfl, fun _ _ _ => rfl⟩

-- A step of `2 ^ 65` passes over the end that stands in for the missing greatest number, and
-- beyond it lies a number that is accepted.
example :
    let s : Schema := .node 0 (.bigint [.min 1 true, .multipleOf 36893488147419103232])
    (compileInput .standard Resolver.empty s [] .root).outcome =
      .error (.failed (.invalid .root
        (.noBigintMultiple 36893488147419103232 1 18446744073709551617))) ∧
    s.parse (fun _ => none) 1 [] (.bigint 36893488147419103232) =
      some (.ok (.bigint 36893488147419103232)) :=
  ⟨rfl, rfl⟩

end Compiling

end SchemaSampler
