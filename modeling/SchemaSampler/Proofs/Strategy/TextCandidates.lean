import SchemaSampler.Proofs.Strategy.FormatSampler
import SchemaSampler.Proofs.Strategy.IntegerCandidates
import SchemaSampler.Strategy.TextCandidate

namespace SchemaSampler

/-!
# Candidates of texts — exact ones meet all checks

The plan of the checks of a text keeps the strictest lengths, all formats and all fixed parts
(`TextPlan.covers_ofChecks`).  A free text has the fixed parts and a length between the bounds
(`TextPlan.freeCandidate_yields`), and a text of a format meets the checks where that format is all
that they ask for (`TextPlan.formatCandidate_yields`).
-/

namespace TextPlan

/-! ### Plans -/

/-- Whatever a plan allows meets a check, unless the plan asks for a test. -/
def Covers (plan : TextPlan) : StringCheck → Prop
  | .minLength n => n ≤ plan.min
  | .maxLength n => ∃ max, plan.max = some max ∧ max ≤ n
  | .length n => n ≤ plan.min ∧ ∃ max, plan.max = some max ∧ max ≤ n
  | .format f => f ∈ plan.formats
  | .startsWith s => s ∈ plan.starts
  | .endsWith s => s ∈ plan.endings
  | .includes s => s ∈ plan.pieces
  | .pattern _ | .trim | .lower | .upper => plan.needsTest = true

/-- A plan asks for all that another one asks for. -/
structure Stricter (plan' plan : TextPlan) : Prop where
  min : plan.min ≤ plan'.min
  max : ∀ n, (∃ max, plan.max = some max ∧ max ≤ n) → ∃ max, plan'.max = some max ∧ max ≤ n
  formats : plan.formats ⊆ plan'.formats
  starts : plan.starts ⊆ plan'.starts
  endings : plan.endings ⊆ plan'.endings
  pieces : plan.pieces ⊆ plan'.pieces
  needsTest : plan.needsTest = true → plan'.needsTest = true

variable {plan plan' : TextPlan} {check : StringCheck}

theorem Stricter.refl (plan : TextPlan) : plan.Stricter plan :=
  ⟨Nat.le_refl _, fun _ h => h, fun _ h => h, fun _ h => h, fun _ h => h, fun _ h => h, fun h => h⟩

theorem Covers.stricter (covered : plan.Covers check) (h : plan'.Stricter plan) :
    plan'.Covers check := by
  cases check with
  | minLength n => exact Nat.le_trans covered h.min
  | maxLength n => exact h.max n covered
  | length n => exact ⟨Nat.le_trans covered.1 h.min, h.max n covered.2⟩
  | format f => exact h.formats covered
  | startsWith s => exact h.starts covered
  | endsWith s => exact h.endings covered
  | includes s => exact h.pieces covered
  | pattern _ | trim | lower | upper => exact h.needsTest covered

/-- A cap is at most the number added to it. -/
theorem cap_le (max : Option Nat) (n : Nat) : ∃ m, cap max n = some m ∧ m ≤ n := by
  refine ⟨_, rfl, ?_⟩
  cases max with
  | none => exact Nat.le_refl n
  | some m => exact Nat.min_le_left n m

/-- A cap is at most what it was before. -/
theorem cap_stricter {max : Option Nat} {n : Nat} (k : Nat)
    (h : ∃ m, max = some m ∧ m ≤ n) : ∃ m, cap max k = some m ∧ m ≤ n := by
  obtain ⟨m, rfl, below⟩ := h
  exact ⟨_, rfl, Nat.le_trans (Nat.min_le_right k m) below⟩

theorem stricter_add (plan : TextPlan) (check : StringCheck) : (plan.add check).Stricter plan := by
  have same := Stricter.refl plan
  cases check with
  | minLength n => exact { same with min := Nat.le_max_left _ _ }
  | maxLength n => exact { same with max := fun _ h => cap_stricter n h }
  | length n =>
    exact { same with min := Nat.le_max_left _ _, max := fun _ h => cap_stricter n h }
  | format f => exact { same with formats := List.subset_append_left _ _ }
  | startsWith s => exact { same with starts := List.subset_append_left _ _ }
  | endsWith s => exact { same with endings := List.subset_append_left _ _ }
  | includes s => exact { same with pieces := List.subset_append_left _ _ }
  | pattern _ | trim | lower | upper => exact { same with needsTest := fun _ => rfl }

/-- A check that was added is covered. -/
theorem covers_add (plan : TextPlan) (check : StringCheck) : (plan.add check).Covers check := by
  cases check with
  | minLength n => exact Nat.le_max_right _ _
  | maxLength n => exact cap_le plan.max n
  | length n => exact ⟨Nat.le_max_right _ _, cap_le plan.max n⟩
  | format f => exact List.mem_append_right _ (List.mem_singleton_self f)
  | startsWith s => exact List.mem_append_right _ (List.mem_singleton_self s)
  | endsWith s => exact List.mem_append_right _ (List.mem_singleton_self s)
  | includes s => exact List.mem_append_right _ (List.mem_singleton_self s)
  | pattern _ | trim | lower | upper => exact rfl

/-- The plan of a list of checks covers them all. -/
theorem covers_ofChecks (checks : List StringCheck) :
    ∀ check ∈ checks, (ofChecks checks).Covers check := by
  have grow : ∀ (checks : List StringCheck) (start : TextPlan),
      (∀ check ∈ checks, (checks.foldl add start).Covers check) ∧
        ∀ check, start.Covers check → (checks.foldl add start).Covers check := by
    intro checks
    induction checks with
    | nil => exact fun start => ⟨by simp, fun _ covered => covered⟩
    | cons first rest ih =>
      intro start
      obtain ⟨all, kept⟩ := ih (start.add first)
      refine ⟨fun check member => ?_, fun check covered =>
        kept check (covered.stricter (stricter_add start first))⟩
      rcases List.mem_cons.mp member with rfl | member
      · exact kept _ (covers_add start _)
      · exact all check member
  exact (grow checks empty).1

/-! ### Free texts -/

theorem occurs_append (before piece after : List Char) :
    StringCheck.occurs piece (before ++ (piece ++ after)) = true := by
  induction before with
  | nil =>
    rw [List.nil_append]
    cases h : piece ++ after with
    | nil =>
      obtain ⟨rfl, rfl⟩ := List.append_eq_nil_iff.mp h
      rfl
    | cons c rest =>
      have front : piece.isPrefixOf (c :: rest) = true := by
        rw [List.isPrefixOf_iff_prefix, ← h]
        exact List.prefix_append piece after
      rw [StringCheck.occurs, front, Bool.true_or]
  | cons c before ih => rw [List.cons_append, StringCheck.occurs, ih, Bool.or_true]

/-- The only element of a short list is its first. -/
theorem headD_eq_of_mem {s : String} {texts : List String} (member : s ∈ texts)
    (short : texts.length ≤ 1) : texts.headD "" = s := by
  rw [Candidate.eq_singleton_of_mem member short]
  rfl

/-- The greatest number of random characters. -/
def bodyMax (plan : TextPlan) (maxExtraLength : Nat) : Nat :=
  match plan.max with
  | some max => Nat.max (max - plan.fixedLength) (plan.min - plan.fixedLength)
  | none => plan.min - plan.fixedLength + maxExtraLength

/-- A text of the fixed parts and of a length that a plan allows meets the checks that the plan
    covers. -/
theorem Covers.holds_of_fixedParts (covered : plan.Covers check) (tested : plan.needsTest = false)
    (noFormat : plan.formats = []) {body : String} (starts : plan.starts.length ≤ 1)
    (endings : plan.endings.length ≤ 1) {s : String}
    (parts : s = plan.starts.headD "" ++ String.join plan.pieces ++ body ++ plan.endings.headD "")
    (least : plan.min ≤ s.length) (most : ∀ max, plan.max = some max → s.length ≤ max) :
    !check.isTransform ∧ check.holds s := by
  have below : ∀ n, (∃ max, plan.max = some max ∧ max ≤ n) → s.length ≤ n := by
    rintro n ⟨max, hmax, le⟩
    exact Nat.le_trans (most max hmax) le
  cases check with
  | minLength n => exact ⟨rfl, decide_eq_true (Nat.le_trans covered least)⟩
  | maxLength n => exact ⟨rfl, decide_eq_true (below n covered)⟩
  | length n =>
    obtain ⟨above, capped⟩ := covered
    have same : s.length = n := Nat.le_antisymm (below n capped) (Nat.le_trans above least)
    exact ⟨rfl, beq_iff_eq.mpr same⟩
  | format f =>
    rw [Covers, noFormat] at covered
    cases covered
  | startsWith start =>
    refine ⟨rfl, ?_⟩
    rw [StringCheck.holds, List.isPrefixOf_iff_prefix, parts, headD_eq_of_mem covered starts]
    simp only [String.toList_append, List.append_assoc]
    exact List.prefix_append _ _
  | endsWith ending =>
    refine ⟨rfl, ?_⟩
    rw [StringCheck.holds, List.isSuffixOf_iff_suffix, parts, headD_eq_of_mem covered endings,
      String.toList_append]
    exact List.suffix_append _ _
  | includes piece =>
    refine ⟨rfl, ?_⟩
    obtain ⟨before, after, split⟩ := List.append_of_mem covered
    rw [StringCheck.holds, parts, split]
    simp only [String.toList_append, String.toList_join, List.flatMap_append, List.flatMap_cons,
      List.append_assoc]
    rw [← List.append_assoc]
    exact occurs_append _ _ _
  | pattern _ | trim | lower | upper => exact absurd (covered.symm.trans tested) (by decide)

/-- The candidates with fixed parts. -/
theorem freeCandidate_yields (maxExtraLength : Nat) (noFormat : plan.formats = [])
    (ordered : ∀ max, plan.max = some max → plan.min ≤ max) :
    (plan.freeCandidate maxExtraLength).sampler.Yields fun v => ∃ s, v = .string s ∧
      ((plan.freeCandidate maxExtraLength).exact → ∀ check, plan.Covers check →
        !check.isTransform ∧ check.holds s) := by
  have range : plan.min - fixedLength plan ≤ bodyMax plan maxExtraLength := by
    unfold bodyMax
    split
    · exact Nat.le_max_right _ _
    · exact Nat.le_add_right _ _
  refine (Sampler.yields_list (Q := fun _ => True) (fun _ _ => trivial) range).bind
    fun body hbody => Sampler.yields_pure ⟨_, rfl, fun exact_there check covered => ?_⟩
  simp only [freeCandidate, Bool.and_eq_true, Bool.not_eq_true', decide_eq_true_eq] at exact_there
  obtain ⟨⟨⟨tested, starts⟩, endings⟩, fits⟩ := exact_there
  have length : (plan.starts.headD "" ++ String.join plan.pieces ++ String.ofList body ++
      plan.endings.headD "").length = fixedLength plan + body.length := by
    simp only [String.length_append, String.length_ofList, fixedLength]
    omega
  refine covered.holds_of_fixedParts tested noFormat starts endings rfl ?_ fun max hmax => ?_
  · rw [length]
    omega
  · have fixed : fixedLength plan ≤ max := by
      rw [hmax] at fits
      simpa [fixedLength] using fits
    have least := ordered max hmax
    have most := hbody.2.1
    rw [bodyMax, hmax] at most
    simp only at most
    have room : Nat.max (max - plan.fixedLength) (plan.min - plan.fixedLength) =
        max - plan.fixedLength := Nat.max_eq_left (by omega)
    rw [room] at most
    rw [length]
    omega

/-! ### Texts of a format -/

/-- A text of a format meets the checks where that format is all that they ask for. -/
theorem formatCandidate_yields {format : Format} {others : List Format}
    (formats : plan.formats = format :: others) :
    (plan.formatCandidate format).sampler.Yields fun v => ∃ s, v = .string s ∧
      ((plan.formatCandidate format).exact → ∀ check, plan.Covers check →
        !check.isTransform ∧ check.holds s) := by
  refine (Format.yields_holds format).bind fun s holds => Sampler.yields_pure ⟨_, rfl, ?_⟩
  intro exact_there check covered
  simp only [formatCandidate, hasLengthBounds, hasFixedParts, Bool.and_eq_true, Bool.not_eq_true',
    Bool.or_eq_false_iff, Bool.not_eq_false', List.isEmpty_iff, beq_iff_eq, decide_eq_false_iff_not,
    Option.isSome_eq_false_iff, Option.isNone_iff_eq_none] at exact_there
  obtain ⟨⟨⟨single, tested⟩, shortest, unbounded⟩, ⟨starts, endings⟩, pieces⟩ := exact_there
  cases check with
  | minLength n => exact ⟨rfl, decide_eq_true (by rw [Covers] at covered; omega)⟩
  | maxLength n =>
    obtain ⟨max, hmax, -⟩ := covered
    rw [unbounded] at hmax
    cases hmax
  | length n =>
    obtain ⟨-, max, hmax, -⟩ := covered
    rw [unbounded] at hmax
    cases hmax
  | format f =>
    have only := Candidate.eq_singleton_of_mem covered (Nat.le_of_eq single)
    rw [formats] at only
    cases only
    exact ⟨rfl, holds⟩
  | startsWith start => rw [Covers, starts] at covered; cases covered
  | endsWith ending => rw [Covers, endings] at covered; cases covered
  | includes piece => rw [Covers, pieces] at covered; cases covered
  | pattern _ | trim | lower | upper => exact absurd (covered.symm.trans tested) (by decide)

theorem candidate_yields (maxExtraLength : Nat)
    (ordered : ∀ max, plan.max = some max → plan.min ≤ max) :
    (plan.candidate maxExtraLength).sampler.Yields fun v => ∃ s, v = .string s ∧
      ((plan.candidate maxExtraLength).exact → ∀ check, plan.Covers check →
        !check.isTransform ∧ check.holds s) := by
  unfold candidate
  split
  · exact formatCandidate_yields ‹_›
  · exact freeCandidate_yields maxExtraLength ‹_› ordered

end TextPlan

/-- The candidates of a text schema are texts, which meet all checks if the candidates are
    exact. -/
theorem textCandidate_yields {checks : List StringCheck} {maxExtraLength : Nat} {c : Candidate}
    (h : textCandidate checks maxExtraLength = .ok c) :
    c.sampler.Yields fun v =>
      ∃ s, v = .string s ∧ (c.exact → ∀ check ∈ checks, !check.isTransform ∧ check.holds s) := by
  have planned : c = (TextPlan.ofChecks checks).candidate maxExtraLength ∧
      ∀ max, (TextPlan.ofChecks checks).max = some max → (TextPlan.ofChecks checks).min ≤ max := by
    simp only [textCandidate] at h
    split at h
    · rename_i max hmax
      split at h
      · cases h
      · cases h
        refine ⟨rfl, fun m hm => ?_⟩
        rw [hmax] at hm
        cases hm
        omega
    · rename_i unbounded
      cases h
      refine ⟨rfl, fun m hm => ?_⟩
      rw [unbounded] at hm
      cases hm
  obtain ⟨rfl, ordered⟩ := planned
  refine (TextPlan.candidate_yields maxExtraLength ordered).imp fun v => ?_
  rintro ⟨s, rfl, meets⟩
  exact ⟨s, rfl, fun exact_there check member =>
    meets exact_there check (TextPlan.covers_ofChecks checks check member)⟩

/-- **Texts of formats.** Whatever the choices are, the sampler of a format yields a text that has
    the format.  The candidates of a schema that asks for the format alone are these texts, and
    they count as exact, so that nothing tests them. -/
theorem Format.sampler_holds (format : Format) (choices : Choices) (question : Nat) :
    format.holds (String.ofList (format.sampler choices question).1) = true ∧
      ∀ maxExtraLength, ∃ c, textCandidate [.format format] maxExtraLength = .ok c ∧
        c.exact = true ∧ (c.sampler choices question).1 =
          .string (String.ofList (format.sampler choices question).1) := by
  refine ⟨Format.yields_holds format choices question, fun maxExtraLength => ?_⟩
  exact ⟨(TextPlan.ofChecks [.format format]).formatCandidate format, rfl, rfl, rfl⟩

end SchemaSampler
