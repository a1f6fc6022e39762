import SchemaSampler.Proofs.Parse.TextStages
import SchemaSampler.Proofs.Strategy.Compiled
import SchemaSampler.Proofs.Strategy.TextCandidates

namespace SchemaSampler

/-!
# Contradictions of texts — bounds that exceed each other

A plan keeps the greatest least length and the least greatest length of its checks, wherever they
stand, so a schema is contradictory exactly if some check asks for more characters than another one
admits (`textCandidate_eq_error_iff`).  A test runs the checks in order: if it finds no problem, the
text has got shorter on the way from the one check to the other, or longer, and a change that can do
so stands between them (`bridged_of_fine`).

* `compileInput_text_refused` — contradictory are the schemas with crossed bounds, and they refuse all
  texts unless each crossing is bridged.  All others compile, unless a sum of lengths overflows.
* `exists_contradiction_accepted` — a trim between two crossed bounds lets texts through.
-/

variable {checks : List StringCheck} {plan : TextPlan}

/-! ### Crossed bounds -/

/-- One check asks for more characters than another one admits. -/
def StringCheck.Exceeds (low high : StringCheck) : Prop :=
  ∃ n m, low.atLeast? = some n ∧ high.atMost? = some m ∧ m < n

/-- Some bounds exceed each other. -/
def Crossed (checks : List StringCheck) : Prop :=
  ∃ low ∈ checks, ∃ high ∈ checks, low.Exceeds high

/-- Between bounds that exceed each other stands a change that can make up for it: a trim where the
    text has to get shorter, a change of case where it has to get longer. -/
structure Bridged (checks : List StringCheck) : Prop where
  shorter : ∀ before low between high after,
    checks = before ++ low :: (between ++ high :: after) → low.Exceeds high → .trim ∈ between
  longer : ∀ before high between low after,
    checks = before ++ high :: (between ++ low :: after) → low.Exceeds high →
      .lower ∈ between ∨ .upper ∈ between

/-! ### Plans -/

namespace TextPlan

/-- The least length is the one that the plan starts with or that some check asks for. -/
theorem min_foldl (checks : List StringCheck) (start : TextPlan) :
    (checks.foldl add start).min = start.min ∨
      ∃ check ∈ checks, check.atLeast? = some (checks.foldl add start).min := by
  induction checks generalizing start with
  | nil => exact .inl rfl
  | cons check rest ih =>
    rw [List.foldl_cons]
    rcases ih (start.add check) with same | ⟨other, member, bound⟩
    · have added : (start.add check).min = start.min ∨
          check.atLeast? = some (start.add check).min := by
        cases check with
        | minLength n | length n =>
          rcases Nat.le_total start.min n with le | le
          · exact .inr (congrArg some (Nat.max_eq_right le).symm)
          · exact .inl (Nat.max_eq_left le)
        | _ => exact .inl rfl
      rw [same]
      exact added.imp_right fun bound => ⟨check, List.mem_cons_self, bound⟩
    · exact .inr ⟨other, List.mem_cons_of_mem _ member, bound⟩

/-- The greatest length is the one that the plan starts with or up to which some check admits
    texts. -/
theorem max_foldl (checks : List StringCheck) (start : TextPlan) :
    (checks.foldl add start).max = start.max ∨
      ∃ check ∈ checks, check.atMost? = (checks.foldl add start).max := by
  induction checks generalizing start with
  | nil => exact .inl rfl
  | cons check rest ih =>
    rw [List.foldl_cons]
    rcases ih (start.add check) with same | ⟨other, member, bound⟩
    · have capped (n : Nat) : cap start.max n = start.max ∨ some n = cap start.max n := by
        cases h : start.max with
        | none => exact .inr rfl
        | some m =>
          rcases Nat.le_total n m with le | le
          · exact .inr (congrArg some (Nat.min_eq_left le).symm)
          · exact .inl (congrArg some (Nat.min_eq_right le))
      have added : (start.add check).max = start.max ∨ check.atMost? = (start.add check).max := by
        cases check with
        | maxLength n | length n => exact capped n
        | _ => exact .inl rfl
      rw [same]
      exact added.imp_right fun bound => ⟨check, List.mem_cons_self, bound⟩
    · exact .inr ⟨other, List.mem_cons_of_mem _ member, bound⟩

/-- What a check asks for is not above the least length of the plan. -/
theorem le_min {check : StringCheck} {n : Nat} (member : check ∈ checks)
    (bound : check.atLeast? = some n) : n ≤ (ofChecks checks).min := by
  have covered := covers_ofChecks checks check member
  cases check <;> cases bound
  · exact covered
  · exact covered.1

/-- What a check admits is not below the greatest length of the plan. -/
theorem exists_max {check : StringCheck} {m : Nat} (member : check ∈ checks)
    (bound : check.atMost? = some m) : ∃ max, (ofChecks checks).max = some max ∧ max ≤ m := by
  have covered := covers_ofChecks checks check member
  cases check <;> cases bound
  · exact covered
  · exact covered.2

end TextPlan

/-! ### Candidates -/

/-- Texts have no candidates exactly if bounds are crossed, and the reason names the strictest of
    them. -/
theorem textCandidate_eq_error_iff {maxExtraLength : Nat} {reason : Contradiction} :
    textCandidate checks maxExtraLength = .error reason ↔ Crossed checks ∧
      ∃ max, (TextPlan.ofChecks checks).max = some max ∧
        reason = .lengths max (TextPlan.ofChecks checks).min := by
  constructor
  · intro failed
    simp only [textCandidate] at failed
    split at failed
    · rename_i max given
      split at failed
      · rename_i below
        cases failed
        refine ⟨?_, max, given, rfl⟩
        rcases TextPlan.min_foldl checks .empty with least | ⟨low, hlow, asks⟩
        · have unbounded : (TextPlan.ofChecks checks).min = 0 := least
          omega
        · rcases TextPlan.max_foldl checks .empty with most | ⟨high, hhigh, admits⟩
          · cases given.symm.trans most
          · exact ⟨low, hlow, high, hhigh, _, _, asks, admits.trans given, below⟩
      · cases failed
    · cases failed
  · rintro ⟨⟨low, hlow, high, hhigh, n, m, asks, admits, below⟩, max, given, rfl⟩
    have least := TextPlan.le_min hlow asks
    obtain ⟨max', given', most⟩ := TextPlan.exists_max hhigh admits
    obtain rfl : max' = max := Option.some.inj (given'.symm.trans given)
    simp only [textCandidate, given]
    rw [if_pos (by omega)]

/-! ### Tests -/

/-- Checks that find no problem with a text have their crossings bridged. -/
theorem bridged_of_fine {s : String} (fine : (StringCheck.runAll checks s).1 = []) :
    Bridged checks := by
  -- The lengths of the text at the turns of two checks.
  have turns {before between after : List StringCheck} {first second : StringCheck}
      (split : checks = before ++ first :: (between ++ second :: after)) :
      first.holds (StringCheck.after before s) = true ∧
        second.holds (StringCheck.after between (first.apply (StringCheck.after before s))) = true := by
    rw [split] at fine
    refine ⟨StringCheck.holds_of_runAll fine, ?_⟩
    rw [← List.cons_append, ← List.append_assoc] at fine
    have later := StringCheck.holds_of_runAll fine
    rwa [StringCheck.after_append, StringCheck.after_cons] at later
  constructor
  · rintro before low between high after split ⟨n, m, asks, admits, below⟩
    obtain ⟨first, second⟩ := turns split
    rw [StringCheck.apply_of_atLeast? asks] at second
    by_contra kept
    have asked := StringCheck.le_length asks first
    have grown := StringCheck.length_le_after kept (StringCheck.after before s)
    have admitted := StringCheck.length_le admits second
    omega
  · rintro before high between low after split ⟨n, m, asks, admits, below⟩
    obtain ⟨first, second⟩ := turns split
    rw [StringCheck.apply_of_atMost? admits] at second
    by_contra kept
    rw [not_or] at kept
    have admitted := StringCheck.length_le admits first
    have shrunk := StringCheck.length_after_le kept.1 kept.2 (StringCheck.after before s)
    have asked := StringCheck.le_length asks second
    omega

/-! ### Compiling -/

section Compiling

variable {config : Config} {resolver : Resolver} {cell : Cell} {path : Path} {id : SchemaId}

/-- What compiling a text schema comes to is decided by its candidates, unless the program breaks off
    because the lengths they may have are beyond a machine word. -/
theorem compileInput_text (free : resolver id = none) :
    (compileInput config resolver (.node id (.string checks)) cell path).outcome =
      match textCandidate checks config.maxExtraLength with
      | .ok c =>
        if (TextPlan.ofChecks checks).overflows config.maxExtraLength then .error .aborted
        else .ok (config.settle cell path (.node id (.string checks)) c)
      | .error reason => .error (.failed (.invalid path reason)) := by
  rw [compileInput_free free, Compiled.outcome_bind rfl, compileShape]
  cases h : textCandidate checks config.maxExtraLength with
  | error reason => rfl
  | ok c =>
    rw [Compiled.outcome_bind rfl]
    cases (TextPlan.ofChecks checks).overflows config.maxExtraLength <;> rfl

variable {definitions : Definitions} {depth : Nat} {site : Site} {s : String}

/-- A test of a text in which checks find problems refuses it. -/
theorem parse_text_refused (found : (StringCheck.runAll checks s).1 ≠ []) :
    ∃ issues, (Schema.node id (.string checks)).parse definitions (depth + 1) site (.string s) =
      some (.error issues) := by
  rw [Schema.parse, parseWithin_text]
  cases outcome : Parsed.ofProblems site (.string (StringCheck.runAll checks s).2)
    (StringCheck.runAll checks s).1 with
  | error issues => exact ⟨_, rfl⟩
  | ok w => exact absurd (Parsed.ofProblems_eq_ok_iff.mp outcome).1 found

/-- **A contradictory text schema refuses all texts, unless its crossings are bridged.**  Compiling a
    text schema comes to a contradiction exactly if one of its checks asks for more characters than
    another one admits, and else to a strategy, unless the program breaks off because the lengths it
    would draw are beyond a machine word.  Where such a pair stands without
    a trim between them, the greater bound first, or without a change of case, the smaller bound
    first, every test of a text refuses it. -/
theorem compileInput_text_refused (free : resolver id = none) :
    let s : Schema := .node id (.string checks)
    let outcome := (compileInput config resolver s cell path).outcome
    (Crossed checks →
      ∃ max min, outcome = .error (.failed (.invalid path (.lengths max min))) ∧ max < min) ∧
    (¬ Crossed checks →
      if (TextPlan.ofChecks checks).overflows config.maxExtraLength then outcome = .error .aborted
      else ∃ strategy, outcome = .ok strategy) ∧
    (∀ place reason, outcome = .error (.failed (.invalid place reason)) → ¬ Bridged checks →
      ∀ definitions depth site text,
        ∃ issues, s.parse definitions (depth + 1) site (.string text) = some (.error issues)) := by
  intro s outcome
  have compiled : outcome = _ := compileInput_text free
  refine ⟨fun crossed => ?_, fun uncrossed => ?_, fun _ _ _ unbridged definitions depth site text => ?_⟩
  · have ⟨low, hlow, high, hhigh, n, m, asks, admits, below⟩ := crossed
    have least := TextPlan.le_min hlow asks
    obtain ⟨max, given, most⟩ := TextPlan.exists_max hhigh admits
    rw [textCandidate_eq_error_iff.mpr ⟨crossed, max, given, rfl⟩] at compiled
    exact ⟨max, _, compiled, by omega⟩
  · cases candidates : textCandidate checks config.maxExtraLength with
    | error reason => exact absurd (textCandidate_eq_error_iff.mp candidates).1 uncrossed
    | ok c =>
      rw [candidates] at compiled
      split
      · rename_i overflows
        exact compiled.trans (if_pos overflows)
      · rename_i fits
        exact ⟨_, compiled.trans (if_neg fits)⟩
  · exact parse_text_refused fun fine => unbridged (bridged_of_fine fine)

/-- At most two characters and then, trimmed, at least three: a trim cannot bridge that, and the schema
    refuses all texts. -/
theorem compileInput_text_refused_trimmed :
    let s : Schema := .node 0 (.string [.maxLength 2, .trim, .minLength 3])
    (compileInput .standard Resolver.empty s [] .root).outcome =
      .error (.failed (.invalid .root (.lengths 2 3))) ∧
    ∀ definitions depth site text,
      ∃ issues, s.parse definitions (depth + 1) site (.string text) = some (.error issues) := by
  intro s
  have refused : (compileInput .standard Resolver.empty s [] .root).outcome =
      .error (.failed (.invalid .root (.lengths 2 3))) := rfl
  refine ⟨refused, (compileInput_text_refused rfl).2.2 _ _ refused fun bridged => ?_⟩
  have cased := bridged.longer [] (.maxLength 2) [.trim] (.minLength 3) [] rfl
    ⟨3, 2, rfl, rfl, by decide⟩
  simp at cased

/-- At least three characters and then, trimmed, at most two: a contradiction, although a text with
    blanks in front is accepted. -/
theorem exists_contradiction_accepted :
    let s : Schema := .node 0 (.string [.minLength 3, .trim, .maxLength 2])
    (compileInput .standard Resolver.empty s [] .root).outcome =
      .error (.failed (.invalid .root (.lengths 2 3))) ∧
    ∀ definitions depth site,
      s.parse definitions (depth + 1) site (.string "  a") = some (.ok (.string "a")) := by
  intro s
  have fine : StringCheck.runAll [.minLength 3, .trim, .maxLength 2] "  a" = ([], "a") := by cbv
  refine ⟨rfl, fun definitions depth site => Schema.parse_eq_ok_iff.mpr ?_⟩
  rw [parseWithin_text, fine]
  rfl

end Compiling

end SchemaSampler
