import SchemaSampler.Proofs.Text.Length
import SchemaSampler.Schema.Check

namespace SchemaSampler.StringCheck

/-!
# Checks of texts — what each of them sees

The checks of a text run one after another, and each sees the text as the changes before it left it
(`after_append`, `problems_append`).

* `holds_of_runAll` — a run without problems meets each check at its turn.
* `length_le_after`, `length_after_le` — without a trim no text gets shorter on the way, and without
  a change of case none gets longer.
-/

variable {check : StringCheck} {checks before rest : List StringCheck} {n m : Nat} {s : String}

/-! ### Runs -/

/-- The text that checks leave. -/
def after (checks : List StringCheck) (s : String) : String := (runAll checks s).2

theorem after_cons (check : StringCheck) (rest : List StringCheck) (s : String) :
    after (check :: rest) s = after rest (check.apply s) := rfl

/-- A check that changes no text leaves it alone. -/
theorem apply_of_not_isTransform (h : check.isTransform = false) (s : String) :
    check.apply s = s := by
  cases check <;> first | rfl | cases h

/-- The later checks change what the earlier ones leave. -/
theorem after_append (before rest : List StringCheck) (s : String) :
    after (before ++ rest) s = after rest (after before s) := by
  induction before generalizing s with
  | nil => rfl
  | cons check before ih => exact ih (check.apply s)

/-- The later checks test what the earlier ones leave. -/
theorem problems_append (before rest : List StringCheck) (s : String) :
    (runAll (before ++ rest) s).1 = (runAll before s).1 ++ (runAll rest (after before s)).1 := by
  induction before generalizing s with
  | nil => rfl
  | cons check before ih =>
    show (check.violation? s).toList ++ (runAll (before ++ rest) (check.apply s)).1 = _
    rw [ih, ← List.append_assoc]
    rfl

/-- A run without problems meets each check at its turn. -/
theorem holds_of_runAll (fine : (runAll (before ++ check :: rest) s).1 = []) :
    check.holds (after before s) = true := by
  rw [problems_append] at fine
  have here : (check.violation? (after before s)).toList = [] :=
    (List.append_eq_nil_iff.mp (List.append_eq_nil_iff.mp fine).2).1
  rw [violation?] at here
  split at here
  · assumption
  · cases here

/-! ### Bounds -/

/-- The number of characters that a check asks for. -/
def atLeast? : StringCheck → Option Nat
  | minLength n | length n => some n
  | _ => none

/-- The number of characters up to which a check admits texts. -/
def atMost? : StringCheck → Option Nat
  | maxLength n | length n => some n
  | _ => none

theorem le_length (bound : check.atLeast? = some n) (holds : check.holds s = true) :
    n ≤ s.length := by
  cases check <;> cases bound
  · exact of_decide_eq_true holds
  · exact Nat.le_of_eq (beq_iff_eq.mp holds).symm

theorem length_le (bound : check.atMost? = some n) (holds : check.holds s = true) :
    s.length ≤ n := by
  cases check <;> cases bound
  · exact of_decide_eq_true holds
  · exact Nat.le_of_eq (beq_iff_eq.mp holds)

/-- A check that bounds the length leaves the text alone. -/
theorem apply_of_atLeast? (bound : check.atLeast? = some n) (s : String) : check.apply s = s := by
  cases check <;> first | rfl | cases bound

theorem apply_of_atMost? (bound : check.atMost? = some n) (s : String) : check.apply s = s := by
  cases check <;> first | rfl | cases bound

/-! ### Lengths -/

/-- Only a trim makes a text shorter. -/
theorem length_le_apply (kept : check ≠ .trim) (s : String) : s.length ≤ (check.apply s).length := by
  cases check with
  | trim => exact absurd rfl kept
  | lower => exact Nat.le_trans (Text.length_le_lower s.toList) (Nat.le_of_eq String.length_ofList.symm)
  | upper => exact Nat.le_trans (Text.length_le_upper s.toList) (Nat.le_of_eq String.length_ofList.symm)
  | _ => exact Nat.le_refl _

/-- Only a change of case makes a text longer. -/
theorem length_apply_le (lower : check ≠ .lower) (upper : check ≠ .upper) (s : String) :
    (check.apply s).length ≤ s.length := by
  cases check with
  | trim => exact Nat.le_trans (Nat.le_of_eq String.length_ofList) (Text.length_trim_le s.toList)
  | lower => exact absurd rfl lower
  | upper => exact absurd rfl upper
  | _ => exact Nat.le_refl _

/-- Checks without a trim do not make a text shorter. -/
theorem length_le_after (kept : .trim ∉ checks) (s : String) :
    s.length ≤ (after checks s).length := by
  induction checks generalizing s with
  | nil => exact Nat.le_refl _
  | cons check rest ih =>
    rw [List.mem_cons, not_or] at kept
    exact Nat.le_trans (length_le_apply (Ne.symm kept.1) s) (ih kept.2 (check.apply s))

/-- Checks without a change of case do not make a text longer. -/
theorem length_after_le (lower : .lower ∉ checks) (upper : .upper ∉ checks) (s : String) :
    (after checks s).length ≤ s.length := by
  induction checks generalizing s with
  | nil => exact Nat.le_refl _
  | cons check rest ih =>
    rw [List.mem_cons, not_or] at lower upper
    exact Nat.le_trans (ih lower.2 upper.2 (check.apply s))
      (length_apply_le (Ne.symm lower.1) (Ne.symm upper.1) s)

end SchemaSampler.StringCheck
