import SchemaSampler.Proofs.Lists
import SchemaSampler.Schema.Check

namespace SchemaSampler

open Bigint

/-!
# Checks of big integers — when they have no answer

Only one check has no answer, and only for one number: the least big integer is divided by minus one
(`holds?_eq_none_iff`).  All checks of a list are made, so the answer is missing wherever such a check
stands (`runAll?_eq_none_iff`); otherwise there are problems exactly if some check is not met.
-/

namespace Bigint

theorem remainder?_eq_none_iff {n step : Int} :
    remainder? n step = none ↔ n = least ∧ step = -1 := by
  rw [remainder?]
  split <;> simp_all

/-- A remainder that does not overflow is the one of integers. -/
theorem remainder?_eq_some {n step r : Int} (h : remainder? n step = some r) : r = n.tmod step := by
  rw [remainder?] at h
  split at h
  · cases h
  · exact (Option.some.inj h).symm

end Bigint

namespace BigintCheck

variable {check : BigintCheck} {checks : List BigintCheck} {n step : Int}

/-! ### One check -/

/-- A check has no answer for a number: the number is the least one and divided by minus one. -/
def Overflows (check : BigintCheck) (n : Int) : Prop := n = least ∧ check = .multipleOf (-1)

theorem holds?_eq_none_iff : check.holds? n = none ↔ check.Overflows n := by
  cases check with
  | min bound inclusive => simp [holds?, Overflows]
  | max bound inclusive => simp [holds?, Overflows]
  | multipleOf step =>
    rw [holds?, Overflows]
    split
    · rename_i zero
      simp [zero]
    · rw [Option.map_eq_none_iff, remainder?_eq_none_iff, multipleOf.injEq]

/-- A check of a multiple is met or has no answer. -/
theorem holds?_multipleOf (nonzero : step ≠ 0) (divides : step ∣ n) :
    (multipleOf step).holds? n = if n = least ∧ step = -1 then none else some true := by
  rw [holds?, if_neg nonzero, remainder?]
  split
  · rfl
  · rw [Option.map_some, Int.tmod_eq_zero_of_dvd divides]
    rfl

/-- A step that a number is found to be a multiple of divides it. -/
theorem dvd_of_holds? (h : (multipleOf step).holds? n = some true) : step ≠ 0 ∧ step ∣ n := by
  rw [holds?] at h
  split at h
  · cases h
  · obtain ⟨r, remains, zero⟩ := Option.map_eq_some_iff.mp h
    rw [beq_iff_eq, remainder?_eq_some remains] at zero
    exact ⟨‹_›, Int.dvd_of_tmod_eq_zero zero⟩

/-- A check that is not refused is met or has no answer. -/
theorem holds?_eq_some_true (h : check.holds? n ≠ some false) (answers : ¬ check.Overflows n) :
    check.holds? n = some true := by
  match answer : check.holds? n with
  | some true => rfl
  | some false => exact absurd answer h
  | none => exact absurd (holds?_eq_none_iff.mp answer) answers

/-- A step that does not refuse a number divides it, also where the remainder overflows. -/
theorem dvd_of_not_refused (h : (multipleOf step).holds? n ≠ some false) : step ≠ 0 ∧ step ∣ n := by
  by_cases overflows : (multipleOf step).Overflows n
  · obtain ⟨-, same⟩ := overflows
    cases same
    exact ⟨by decide, Int.neg_dvd.mpr (Int.one_dvd n)⟩
  · exact dvd_of_holds? (holds?_eq_some_true h overflows)

/-! ### All checks -/

theorem problems?_eq_some_nil_iff : check.problems? n = some [] ↔ check.holds? n = some true := by
  rw [problems?, Option.map_eq_some_iff]
  constructor
  · rintro ⟨holds, answer, fine⟩
    cases holds
    · cases fine
    · exact answer
  · exact fun answer => ⟨true, answer, rfl⟩

/-- Checks have no answer if one of them has none. -/
theorem runAll?_eq_none_iff : runAll? checks n = none ↔ ∃ check ∈ checks, check.Overflows n := by
  have answered {check : BigintCheck} : (check.problems? n).isSome ↔ ¬ check.Overflows n := by
    rw [problems?, Option.isSome_map, Option.isSome_iff_ne_none, ne_eq, holds?_eq_none_iff]
  constructor
  · intro missing
    by_contra all
    refine absurd missing (Option.isSome_iff_ne_none.mp ?_)
    rw [runAll?, Option.isSome_map]
    exact isSome_mapM fun check member => answered.mpr fun overflows => all ⟨check, member, overflows⟩
  · rintro ⟨check, member, overflows⟩
    rw [runAll?, Option.map_eq_none_iff]
    by_contra run
    obtain ⟨found, run⟩ := Option.ne_none_iff_exists'.mp run
    obtain ⟨problems, answer⟩ := exists_of_mem_left (mapM_eq_some_iff.mp run) member
    exact answered.mp (Option.isSome_iff_exists.mpr ⟨problems, answer.2⟩) overflows

/-- Checks find nothing exactly if all of them are met. -/
theorem runAll?_eq_some_nil_iff :
    runAll? checks n = some [] ↔ ∀ check ∈ checks, check.holds? n = some true := by
  rw [runAll?, Option.map_eq_some_iff]
  constructor
  · rintro ⟨found, run, nothing⟩ check member
    obtain ⟨problems, there, answer⟩ := exists_of_mem_left (mapM_eq_some_iff.mp run) member
    rw [List.flatten_eq_nil_iff.mp nothing problems there] at answer
    exact problems?_eq_some_nil_iff.mp answer
  · intro holds
    refine ⟨checks.map fun _ => [], mapM_eq_some_iff.mpr ?_, by simp⟩
    rw [List.forall₂_map_right_iff, List.forall₂_same]
    exact fun check member => problems?_eq_some_nil_iff.mpr (holds check member)

/-- Where no check refuses a number, the checks find nothing if they have an answer. -/
theorem eq_nil_of_runAll? {problems : List Problem} (run : runAll? checks n = some problems)
    (h : ∀ check ∈ checks, check.holds? n ≠ some false) : problems = [] := by
  have answers : ¬ ∃ check ∈ checks, check.Overflows n := fun overflows => by
    rw [runAll?_eq_none_iff.mpr overflows] at run
    cases run
  have nothing : runAll? checks n = some [] := runAll?_eq_some_nil_iff.mpr fun check member =>
    holds?_eq_some_true (h check member) fun overflows => answers ⟨check, member, overflows⟩
  exact Option.some.inj (run.symm.trans nothing)

end BigintCheck

end SchemaSampler
