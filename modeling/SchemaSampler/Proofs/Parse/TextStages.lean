import SchemaSampler.Proofs.Parse.Refusal
import SchemaSampler.Proofs.Schema.StringCheck

namespace SchemaSampler

/-!
# Stages of texts — checks in a row test what a pipeline of them tests

A text schema goes through its checks once, with the changed text and the problems found so far.  A
pipeline of two text schemas stops after the first one if that found a problem.  They come to the
same results because each check looks at one text only, whatever was found before:

* `StringCheck.changed` — the text that the changes among checks leave, with the tests left out.
* `StringCheck.mem_problems_iff` — the problems of a run are those that its checks find with the
  text as the changes before them left it.
* `Schema.parse_text_stages` — checks in a row accept what two stages accept.
-/

namespace StringCheck

variable {checks : List StringCheck} {s : String}

/-- A text after the changes among checks. -/
def changed (checks : List StringCheck) (s : String) : String :=
  (checks.filter isTransform).foldl (fun s check => check.apply s) s

/-- Checks leave the text that the changes among them leave. -/
theorem after_eq_changed (checks : List StringCheck) (s : String) :
    after checks s = changed checks s := by
  induction checks generalizing s with
  | nil => rfl
  | cons check rest ih =>
    rw [after_cons, ih, changed, changed, List.filter_cons]
    split
    · rfl
    · rename_i test
      rw [apply_of_not_isTransform (Bool.not_eq_true _ ▸ test)]

/-- The problems of a run, check by check. -/
theorem mem_problems_iff {p : Problem} :
    p ∈ (runAll checks s).1 ↔ ∃ before check rest, checks = before ++ check :: rest ∧
      check.violation? (changed before s) = some p := by
  simp only [← after_eq_changed]
  induction checks generalizing s with
  | nil => simp [runAll]
  | cons head tail ih =>
    -- The first check sees the text as it is given, and the others what it leaves of the text.
    show p ∈ (head.violation? s).toList ++ (runAll tail (head.apply s)).1 ↔ _
    rw [List.mem_append, Option.mem_toList, ih]
    constructor
    · rintro (here | ⟨before, check, rest, rfl, found⟩)
      · exact ⟨[], head, tail, rfl, here⟩
      · exact ⟨head :: before, check, rest, rfl, found⟩
    · rintro ⟨before, check, rest, split, found⟩
      cases before with
      | nil =>
        obtain ⟨rfl, rfl⟩ := List.cons.inj split
        exact .inl found
      | cons first before =>
        obtain ⟨rfl, rfl⟩ := List.cons.inj split
        exact .inr ⟨before, check, rest, rfl, found⟩

theorem violation?_eq_some_iff {check : StringCheck} {p : Problem} :
    check.violation? s = some p ↔ check.holds s = false ∧ p = check.problem := by
  unfold violation?
  by_cases holds : check.holds s = true
  · simp [holds]
  · simp [holds, eq_comm]

/-- A run finds no problem if each check is met at its turn. -/
theorem problems_eq_nil_iff :
    (runAll checks s).1 = [] ↔ ∀ before check rest, checks = before ++ check :: rest →
      check.holds (changed before s) = true := by
  rw [List.eq_nil_iff_forall_not_mem]
  constructor
  · intro none_found before check rest split
    by_contra missed
    rw [Bool.not_eq_true] at missed
    exact none_found check.problem (mem_problems_iff.mpr
      ⟨before, check, rest, split, violation?_eq_some_iff.mpr ⟨missed, rfl⟩⟩)
  · intro met p found
    obtain ⟨before, check, rest, split, violates⟩ := mem_problems_iff.mp found
    have missed := (violation?_eq_some_iff.mp violates).1
    rw [met before check rest split] at missed
    cases missed

end StringCheck

/-- A text schema tests texts by running its checks. -/
theorem parseWithin_text {definitions : Definitions} {depth : Nat} {site : Site} {id : SchemaId}
    {checks : List StringCheck} {s : String} :
    Schema.parseWithin definitions (depth + 1) site (.node id (.string checks)) (.string s) =
      some (Parsed.ofProblems site (.string (StringCheck.runAll checks s).2)
        (StringCheck.runAll checks s).1) := rfl

namespace Schema

open StringCheck

variable {definitions : Definitions} {depth : Nat} {site : Site} {i j k l : SchemaId}
  {checks first second : List StringCheck} {v w : Value}

/-- A text schema accepts the texts that its checks find no problem with, and changes them. -/
theorem parse_text_iff :
    (node i (.string checks)).parse definitions (depth + 1) site v = some (.ok w) ↔
      ∃ s, v = .string s ∧ (runAll checks s).1 = [] ∧ w = .string (changed checks s) := by
  rw [parse_eq_ok_iff]
  cases v
  case string s =>
    rw [parseWithin_text, Option.some.injEq, Parsed.ofProblems_eq_ok_iff, ← after,
      after_eq_changed]
    simp
  all_goals simp [parseWithin, Shape.step, Parsed.mismatch, Parsed.refuse]

/-- It refuses all other texts, for the problems that its checks find. -/
theorem parse_text_error {s : String} {e : ParseError}
    (h : (node i (.string checks)).parse definitions (depth + 1) site (.string s) =
      some (.error e)) :
    e.issues = (runAll checks s).1.map fun p => ⟨site.path, p⟩ := by
  rw [parse_eq_error_iff, parseWithin_text] at h
  unfold Parsed.ofProblems Parsed.finish at h
  split at h
  · cases h
  · exact (Except.error.inj (Option.some.inj h)).symm

/-- A pipeline accepts what the second schema accepts of the results of the first. -/
theorem parse_pipeline_iff {first second : Schema} :
    (node i (.pipeline first second)).parse definitions (depth + 1) site v = some (.ok w) ↔
      ∃ u, first.parse definitions depth (.branch 0 :: site) v = some (.ok u) ∧
        second.parse definitions depth (.branch 1 :: site) u = some (.ok w) := by
  simp only [parse_eq_ok_iff]
  show (parseWithin definitions depth (.branch 0 :: site) first v >>= _) = _ ↔ _
  constructor
  · intro returns
    obtain ⟨out, hout, returns⟩ := Option.bind_eq_some_iff.mp returns
    cases out with
    | ok u => exact ⟨u, hout, returns⟩
    | error found => cases returns
  · rintro ⟨u, hu, returns⟩
    exact Option.bind_eq_some_iff.mpr ⟨.ok u, hu, returns⟩

/-- A test against a text schema comes to an end. -/
theorem exists_parse_text : ∃ out,
    (node i (.string checks)).parse definitions (depth + 1) site v = some out := by
  cases v <;> exact ⟨_, rfl⟩

/-- So does a test against a pipeline of two. -/
theorem exists_parse_text_pipeline : ∃ out,
    (node i (.pipeline (node j (.string first)) (node k (.string second)))).parse definitions
      (depth + 2) site v = some out := by
  cases v
  case string s =>
    show ∃ out, Option.map _ (parseWithin definitions (depth + 1) (.branch 0 :: site)
      (node j (.string first)) (.string s) >>= _) = some out
    rw [parseWithin_text]
    -- The second stage is asked only if the first one found no problem.
    cases Parsed.ofProblems (.branch 0 :: site) (.string (runAll first s).2) (runAll first s).1 with
    | ok u => cases u <;> exact ⟨_, rfl⟩
    | error found => exact ⟨_, rfl⟩
  all_goals exact ⟨_, rfl⟩

/-- What two stages make of a value is what one run of the checks of both makes of it. -/
theorem parse_text_pipeline_iff :
    (node i (.pipeline (node j (.string first)) (node k (.string second)))).parse definitions
        (depth + 2) site v = some (.ok w) ↔
      ∃ s, v = .string s ∧ (runAll (first ++ second) s).1 = [] ∧
        w = .string (changed (first ++ second) s) := by
  simp only [parse_pipeline_iff, parse_text_iff, problems_append, List.append_eq_nil_iff,
    ← after_eq_changed, after_append]
  constructor
  · rintro ⟨_, ⟨s, rfl, fine, rfl⟩, _, ⟨⟩, fine', rfl⟩
    exact ⟨s, rfl, ⟨fine, fine'⟩, rfl⟩
  · rintro ⟨s, rfl, ⟨fine, fine'⟩, rfl⟩
    exact ⟨_, ⟨s, rfl, fine, rfl⟩, _, rfl, fine', rfl⟩

/-- **Stages of texts.** The checks `first` followed by the checks `second` accept what the pipeline
    of a text schema with `first` into one with `second` accepts, with the same results; both tests
    come to an end.  Each check looks at the text after all changes before it and none behind it: a
    text is accepted if all checks are met there, comes out after all changes, and is refused for the
    problems that the checks have with the text there. -/
theorem parse_text_stages (definitions : Definitions) (depth depth' : Nat) (site site' : Site)
    (i j k l : SchemaId) (first second : List StringCheck) (v : Value) :
    ∃ joined piped,
      (node i (.string (first ++ second))).parse definitions (depth + 1) site v = some joined ∧
      (node j (.pipeline (node k (.string first)) (node l (.string second)))).parse definitions
        (depth' + 2) site' v = some piped ∧
      (∀ w, joined = .ok w ↔ piped = .ok w) ∧
      ∀ s, v = .string s →
        (∀ w, joined = .ok w ↔ w = .string (changed (first ++ second) s) ∧
          ∀ before check rest, first ++ second = before ++ check :: rest →
            check.holds (changed before s) = true) ∧
        ∀ e, joined = .error e → ∀ issue, issue ∈ e.issues ↔
          ∃ before check rest, first ++ second = before ++ check :: rest ∧
            check.holds (changed before s) = false ∧ issue = ⟨site.path, check.problem⟩ := by
  obtain ⟨joined, returns⟩ : ∃ out, (node i (.string (first ++ second))).parse definitions
      (depth + 1) site v = some out := exists_parse_text
  obtain ⟨piped, returns'⟩ : ∃ out, (node j (.pipeline (node k (.string first))
      (node l (.string second)))).parse definitions (depth' + 2) site' v = some out :=
    exists_parse_text_pipeline
  -- Acceptance by either test is a statement on one run of all checks.
  have joined_iff : ∀ w, joined = .ok w ↔ ∃ s, v = .string s ∧
      (runAll (first ++ second) s).1 = [] ∧ w = .string (changed (first ++ second) s) := by
    intro w
    rw [← parse_text_iff, returns, Option.some.injEq]
  refine ⟨joined, piped, returns, returns', fun w => ?_, ?_⟩
  · rw [joined_iff, ← parse_text_pipeline_iff, returns', Option.some.injEq]
  · rintro s rfl
    constructor
    · intro w
      rw [joined_iff, ← problems_eq_nil_iff]
      simp [and_comm]
    · rintro e rfl issue
      rw [parse_text_error returns, List.mem_map]
      simp only [mem_problems_iff, violation?_eq_some_iff]
      constructor
      · rintro ⟨p, ⟨before, check, rest, split, missed, rfl⟩, rfl⟩
        exact ⟨before, check, rest, split, missed, rfl⟩
      · rintro ⟨before, check, rest, split, missed, rfl⟩
        exact ⟨_, ⟨before, check, rest, split, missed, rfl⟩, rfl⟩

/-- Before the trim a text is long enough, and behind it short enough: in one run as in two stages. -/
theorem parse_text_stages_trimmed :
    let first : List StringCheck := [.minLength 4, .trim]
    let second : List StringCheck := [.maxLength 3]
    let v : Value := .string " abc"
    let w : Value := .string "abc"
    (node 0 (.string (first ++ second))).parse (fun _ => none) 1 [] v = some (.ok w) ∧
      (node 1 (.pipeline (node 2 (.string first)) (node 3 (.string second)))).parse (fun _ => none)
        2 [] v = some (.ok w) := by
  intro first second v w
  obtain ⟨joined, piped, returns, returns', same, -⟩ :=
    parse_text_stages (fun _ => none) 0 0 [] [] 0 1 2 3 first second v
  have joined_eq : some joined = some (.ok w) := returns.symm.trans (by cbv)
  rw [returns, returns', joined_eq, (same w).mp (Option.some.inj joined_eq)]
  exact ⟨rfl, rfl⟩

end Schema

end SchemaSampler
