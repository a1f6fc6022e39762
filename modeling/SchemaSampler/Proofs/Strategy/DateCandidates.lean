import SchemaSampler.Proofs.Strategy.IntegerCandidates
import SchemaSampler.Strategy.Compiler
import SchemaSampler.Strategy.Draw

namespace SchemaSampler

open Calendar (Instant)

/-!
# Candidates of dates — leap seconds run past their bounds

A check leaves the milliseconds on one side of its bound, rounded inwards (`DateCheck.Leaves`), and
the span that a list of checks leaves is what each of them leaves (`mem_foldl_narrowMillis`).  A
millisecond that a check leaves meets it, except inside a leap second: the milliseconds of such a
bound count on into the next second, so the end of the span may lie after the bound.

* `dateCandidate_yields` — without leap seconds all candidates meet all checks.
* `dateCandidate_meets_iff` — candidates meet all checks exactly if every leap second among the
  upper bounds is cut off by another bound that ends with it or before.
* `exists_date_after_max` — a lone leap second as the upper bound is overrun.
-/

/-! ### Single checks -/

/-- The checks of a date that are not met inside a leap second. -/
def DateCheck.Regular : DateCheck → Prop
  | .min _ => True
  | .max bound => bound.nanos < 1000000000

/-- The milliseconds that a check leaves. -/
def DateCheck.Leaves : DateCheck → Int → Prop
  | .min bound, millis => bound.ceilMillis ≤ millis
  | .max bound, millis => millis ≤ bound.millis

theorem before_iff {a b : Instant} :
    a.before b = true ↔ a.seconds < b.seconds ∨ a.seconds = b.seconds ∧ a.nanos < b.nanos := by
  simp [Instant.before]

theorem ofMillis_eq (millis : Int) :
    Instant.ofMillis millis = ⟨millis / 1000, (millis % 1000).toNat * 1000000⟩ := by
  rw [Instant.ofMillis, Int.fdiv_eq_ediv_of_nonneg _ (by decide),
    Int.fmod_eq_emod_of_nonneg _ (by decide)]

variable {checks : List DateCheck} {check : DateCheck} {span : Int × Int} {millis : Int}
  {bound : Instant} {c : Candidate}

/-- A millisecond that a check leaves meets it, if the check is not about a leap second. -/
theorem DateCheck.Leaves.holds (left : check.Leaves millis) (regular : check.Regular) :
    check.holds (Instant.ofMillis millis) = true := by
  cases check with
  | min bound =>
    simp only [Leaves, Instant.ceilMillis, Instant.millis] at left
    rw [DateCheck.holds, Bool.not_eq_true', ← Bool.not_eq_true, before_iff, ofMillis_eq]
    dsimp only
    omega
  | max bound =>
    simp only [Leaves, Instant.millis] at left
    simp only [Regular] at regular
    rw [DateCheck.holds, Bool.not_eq_true', ← Bool.not_eq_true, before_iff, ofMillis_eq]
    dsimp only
    omega

/-- A millisecond is no later than an upper bound in a leap second exactly if it lies in the same
    second or an earlier one. -/
theorem DateCheck.max_holds_iff (leap : 1000000000 ≤ bound.nanos) :
    (DateCheck.max bound).holds (Instant.ofMillis millis) = true ↔
      millis < (bound.seconds + 1) * 1000 := by
  rw [DateCheck.holds, Bool.not_eq_true', ← Bool.not_eq_true, before_iff, ofMillis_eq]
  dsimp only
  omega

/-! ### Lists of checks -/

/-- A check narrows a span to the milliseconds it leaves. -/
theorem mem_narrowMillis :
    (narrowMillis span check).1 ≤ millis ∧ millis ≤ (narrowMillis span check).2 ↔
      (span.1 ≤ millis ∧ millis ≤ span.2) ∧ check.Leaves millis := by
  cases check <;> simp only [narrowMillis, DateCheck.Leaves] <;> omega

/-- A list of checks narrows a span to the milliseconds that each of them leaves. -/
theorem mem_foldl_narrowMillis :
    (checks.foldl narrowMillis span).1 ≤ millis ∧ millis ≤ (checks.foldl narrowMillis span).2 ↔
      (span.1 ≤ millis ∧ millis ≤ span.2) ∧ ∀ check ∈ checks, check.Leaves millis := by
  induction checks generalizing span with
  | nil => simp
  | cons check rest ih => rw [List.foldl_cons, ih, mem_narrowMillis, List.forall_mem_cons, and_assoc]

/-! ### Candidates -/

/-- The milliseconds of a date that checks leave. -/
def LeftBy (checks : List DateCheck) (millis : Int) : Prop :=
  (Format.firstMilli ≤ millis ∧ millis ≤ Format.lastMilli) ∧ ∀ check ∈ checks, check.Leaves millis

/-- The candidates are drawn from a range that is not empty, and its members are the milliseconds
    that the checks leave. -/
theorem dateCandidate_eq_ok (h : dateCandidate checks = .ok c) :
    ∃ lo hi, lo ≤ hi ∧ (∀ millis, lo ≤ millis ∧ millis ≤ hi ↔ LeftBy checks millis) ∧
      c.sampler = Candidate.integerRange lo hi >>= fun millis => pure (.date (.ofMillis millis)) := by
  unfold dateCandidate at h
  simp only at h
  split at h
  · cases h
  · cases h
    exact ⟨_, _, by omega, fun _ => mem_foldl_narrowMillis, rfl⟩

/-- The candidates are the dates of the milliseconds left. -/
theorem dateCandidate_yields_left (h : dateCandidate checks = .ok c) :
    c.sampler.Yields fun v => ∃ millis, v = .date (.ofMillis millis) ∧ LeftBy checks millis := by
  obtain ⟨lo, hi, nonempty, left, drawn⟩ := dateCandidate_eq_ok h
  rw [drawn]
  exact (Candidate.yields_integerRange nonempty).bind fun millis inside =>
    Sampler.yields_pure ⟨millis, rfl, (left millis).mp inside⟩

/-- The candidates of a date schema are dates, which meet all checks. -/
theorem dateCandidate_yields (regular : ∀ check ∈ checks, check.Regular)
    (h : dateCandidate checks = .ok c) :
    c.sampler.Yields fun v => ∃ t, v = .date t ∧ ∀ check ∈ checks, check.holds t := by
  refine (dateCandidate_yields_left h).imp ?_
  rintro v ⟨millis, rfl, -, left⟩
  exact ⟨_, rfl, fun check member => (left check member).holds (regular check member)⟩

/-- **Candidates meet all checks but those in a leap second.** Every candidate is a date that meets
    each lower bound and each upper bound outside leap seconds.  All candidates meet the upper
    bounds inside leap seconds too exactly if before the second after each of them the range of
    dates ends, or another upper bound does. -/
theorem dateCandidate_meets_iff (h : dateCandidate checks = .ok c) :
    (c.sampler.Yields fun v =>
      ∃ t, v = .date t ∧ ∀ check ∈ checks, check.Regular → check.holds t) ∧
    ((c.sampler.Yields fun v => ∃ t, v = .date t ∧ ∀ check ∈ checks, check.holds t) ↔
      ∀ bound, .max bound ∈ checks → 1000000000 ≤ bound.nanos →
        Format.lastMilli < (bound.seconds + 1) * 1000 ∨
          ∃ other, .max other ∈ checks ∧ other.millis < (bound.seconds + 1) * 1000) := by
  have yields := dateCandidate_yields_left h
  refine ⟨yields.imp ?_, fun meet bound member leap => ?_, fun cut => yields.imp ?_⟩
  · rintro v ⟨millis, rfl, -, left⟩
    exact ⟨_, rfl, fun check member => (left check member).holds⟩
  · refine Decidable.or_iff_not_imp_left.mpr fun within => Classical.byContradiction fun uncut => ?_
    have open_end : ∀ other, .max other ∈ checks → (bound.seconds + 1) * 1000 ≤ other.millis :=
      fun other among => Int.not_lt.mp fun ends => uncut ⟨other, among, ends⟩
    obtain ⟨lo, hi, nonempty, left, drawn⟩ := dateCandidate_eq_ok h
    -- The later of the start of the range and the start of the next second is left by all checks.
    obtain ⟨⟨afterFirst, beforeLast⟩, starts⟩ := (left lo).mp ⟨Int.le_refl lo, nonempty⟩
    have late : LeftBy checks (max lo ((bound.seconds + 1) * 1000)) := by
      refine ⟨by omega, fun check member => ?_⟩
      have start := starts check member
      cases check with
      | min other => exact Int.le_trans start (Int.le_max_left _ _)
      | max other => exact Int.max_le.mpr ⟨start, open_end other member⟩
    obtain ⟨above, below⟩ := (left _).mpr late
    have reached := (Candidate.reaches_integerRange above below).map
      fun millis => Value.date (.ofMillis millis)
    rw [← drawn] at reached
    obtain ⟨t, same, holds⟩ := meet.of_reaches reached
    cases same
    have inSecond := (DateCheck.max_holds_iff leap).mp (holds _ member)
    omega
  · rintro v ⟨millis, rfl, inside, left⟩
    refine ⟨_, rfl, fun check member => ?_⟩
    by_cases regular : check.Regular
    · exact (left check member).holds regular
    · cases check with
      | min bound => exact absurd trivial regular
      | max bound =>
        have leap : 1000000000 ≤ bound.nanos := Nat.le_of_not_lt regular
        refine (DateCheck.max_holds_iff leap).mpr ?_
        rcases cut bound member leap with ends | ⟨other, among, ends⟩
        · exact Int.lt_of_le_of_lt inside.2 ends
        · exact Int.lt_of_le_of_lt (left _ among) ends

/-- A leap second is cut off by the bound before it, so all candidates meet all checks. -/
theorem dateCandidate_meets_all :
    let checks : List DateCheck :=
      [.min ⟨-1, 999000001⟩, .max ⟨59, 1500000000⟩, .max ⟨59, 999999⟩]
    ∃ c, dateCandidate checks = .ok c ∧
      c.sampler.Yields fun v => ∃ t, v = .date t ∧ ∀ check ∈ checks, check.holds t := by
  intro checks
  refine ⟨_, rfl, (dateCandidate_meets_iff rfl).2.mpr fun bound member leap => .inr ?_⟩
  simp only [checks, List.mem_cons, List.not_mem_nil, or_false, DateCheck.max.injEq,
    reduceCtorEq, false_or] at member
  rcases member with rfl | rfl
  · exact ⟨⟨59, 999999⟩, by simp [checks], by decide⟩
  · exact absurd leap (by decide)

/-- Between the start of a second and its leap second the next second is drawn too, and each test
    refuses it. -/
theorem exists_date_after_max :
    let s : Schema := .node 0 (.date [.min ⟨59, 0⟩, .max ⟨59, 1500000000⟩])
    let around : Surroundings := ⟨fun _ _ => 1, fun _ => none, 0, 0⟩
    ∃ strategy, ((Compiler.withConfig .standard).inputOf s []).outcome = .ok strategy ∧
      (strategy.draw.run around (.start 0)).1 = .ok (.date ⟨60, 500000000⟩) ∧
      ∀ depth, s.parse around.definitions (depth + 1) [.branch 0] (.date ⟨60, 500000000⟩) =
        some (.error ⟨⟨[], .dateAfter ⟨59, 1500000000⟩⟩, []⟩) := by
  intro s around
  exact ⟨_, rfl, rfl, fun _ => rfl⟩

end SchemaSampler
