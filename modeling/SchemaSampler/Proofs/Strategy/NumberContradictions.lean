import SchemaSampler.Proofs.Strategy.NumberAdmission
import SchemaSampler.Proofs.Strategy.NumberCandidates
import SchemaSampler.Proofs.Strategy.Yields

namespace SchemaSampler

open Binary64

/-!
# Contradictions of numbers — what is refused has no values, what is drawn is accepted

A schema that asks for neither integers nor multiples draws from the finite part of the span between
its bounds, and besides from the ends of the span.  If a number meets all checks, the finite part is
not empty, or an end is an infinity that equals the number; and an end that equals such a number is
kept (`NumberPlan.edges_ne_nil`).  So there is something to draw (`NumberPlan.options_ne_nil`).

* `compileInput_numbers` — a contradiction is reported exactly if no number meets all checks, and else
  each draw comes to a number that meets them.
-/

namespace NumberPlan

variable {plan : NumberPlan} {checks : List NumberCheck} {x y lo hi : Float}

/-! ### Ends of a span -/

theorem nextDown_infinity : nextDown infinity = maxFinite := rfl

theorem le_infinity (number : x.isNaN = false) : x ≤ infinity := by
  rw [le_iff number number_infinity, value_infinity]
  exact value_le_limit x

theorem negInfinity_le (number : x.isNaN = false) : negInfinity ≤ x := by
  rw [le_iff number_negInfinity number, negInfinity, value_neg, value_infinity]
  exact neg_limit_le_value x

/-- Beyond the greatest finite number there is nothing but infinity. -/
theorem value_of_maxFinite_lt (above : maxFinite < x) : value x = limit := by
  have number := (number_of_lt above).2
  refine le_antisymm (value_le_limit x) ?_
  by_contra below
  have finite : x < infinity := (lt_infinity_iff number).mpr (not_le.mp below)
  have within := le_nextDown_of_lt finite
  rw [nextDown_infinity, ← float_not_lt_iff number_maxFinite number] at within
  exact within above

/-- Below the least finite number there is nothing but minus infinity. -/
theorem value_of_lt_neg_maxFinite (below : x < -maxFinite) : value x = -limit := by
  have number := (number_of_lt below).1
  have opposite : maxFinite < -x := by
    rw [lt_iff number number_neg_maxFinite, value_neg] at below
    rw [lt_iff number_maxFinite ((isNaN_neg x).trans number), value_neg]
    linarith
  have top := value_of_maxFinite_lt opposite
  rw [value_neg] at top
  linarith

/-- What is left of a list without repetitions still has numbers of all values. -/
theorem exists_mem_dropRepeats {xs : List Float} (numbers : ∀ x ∈ xs, x.isNaN = false)
    (member : x ∈ xs) : ∃ y ∈ dropRepeats xs, value y = value x := by
  fun_induction dropRepeats xs generalizing x with
  | case1 a b rest same ih =>
    -- The first of two equal numbers stays, and stands for the second one too.
    have equal : value a = value b := (beq_iff (numbers a (by simp)) (numbers b (by simp))).mp same
    have others : ∀ x ∈ a :: rest, x.isNaN = false := by
      rw [List.forall_mem_cons] at numbers ⊢
      exact ⟨numbers.1, (List.forall_mem_cons.mp numbers.2).2⟩
    rcases List.mem_cons.mp member with rfl | member
    · exact ih others List.mem_cons_self
    · rcases List.mem_cons.mp member with rfl | member
      · rw [← equal]
        exact ih others List.mem_cons_self
      · exact ih others (List.mem_cons_of_mem _ member)
  | case2 a b rest different ih =>
    rcases List.mem_cons.mp member with rfl | member
    · exact ⟨x, List.mem_cons_self, rfl⟩
    · obtain ⟨y, among, value_eq⟩ := ih (fun x among => numbers x (List.mem_cons_of_mem _ among)) member
      exact ⟨y, List.mem_cons_of_mem _ among, value_eq⟩
  | case3 short => exact ⟨x, member, rfl⟩

/-- A bound that equals a number which meets all checks leaves an end to draw. -/
theorem edges_ne_nil (bounded : plan.Bounded) (named : plan.lo = some y ∨ plan.hi = some y)
    (meets : Meets checks x) (same : value y = value x) :
    plan.edges checks plan.openLo plan.openHi ≠ [] := by
  have number_y : y.isNaN = false := named.elim (bounded.lo y) (bounded.hi y)
  have self : (y == y) = true := (beq_iff number_y number_y).mpr rfl
  have kept : y ∈ [plan.openLo, plan.openHi, 0].filter fun x =>
      x.isFinite || (plan.lo.any (· == x) || plan.hi.any (· == x)) := by
    rcases named with named | named <;> simp [openLo, openHi, named, self]
  have numbers : ∀ z ∈ [plan.openLo, plan.openHi, 0], z.isNaN = false := by
    rw [List.forall_mem_cons, List.forall_mem_cons, List.forall_mem_singleton]
    exact ⟨number_openLo bounded, number_openHi bounded, number_literal_zero⟩
  obtain ⟨z, left, value_eq⟩ :=
    exists_mem_dropRepeats (fun z among => numbers z (List.mem_of_mem_filter among)) kept
  have number_z := numbers z (List.mem_of_mem_filter (mem_of_mem_dropRepeats left))
  -- The end that is left may be the other zero, which no check tells apart.
  have meets_z := (meets_congr number_z meets.1 (value_eq.trans same)).mpr meets
  exact List.ne_nil_of_mem (List.mem_filter.mpr ⟨left, List.all_eq_true.mpr meets_z.2⟩)

/-! ### Something to draw -/

theorem finiteSpans_ne_nil (lo hi : Float) : finiteSpans lo hi ≠ [] := by
  rw [finiteSpans]
  split <;> simp

/-- There are spans to draw from unless the span lies at an infinity. -/
theorem spans_ne_nil (order : lo ≤ hi) (low : ¬ maxFinite < lo) (high : ¬ hi < -maxFinite) :
    spans lo hi ≠ [] := by
  obtain ⟨number_lo, number_hi⟩ := number_of_le order
  rw [float_not_lt_iff number_maxFinite number_lo] at low
  rw [float_not_lt_iff number_hi number_neg_maxFinite] at high
  -- The span that is left when both ends are brought into the finite part.
  have room : larger lo (-maxFinite) ≤ smaller hi maxFinite := by
    rcases larger_cases lo (-maxFinite) with h | h <;>
      rcases smaller_cases hi maxFinite with h' | h' <;> rw [h, h']
    · exact order
    · exact low
    · exact high
    · decide
  simp only [spans]
  rw [if_pos room]
  exact fun none_left => finiteSpans_ne_nil _ _ (List.append_eq_nil_iff.mp none_left).1

theorem Admits.between (admits : plan.Admits x) (number : x.isNaN = false) :
    plan.openLo ≤ x ∧ x ≤ plan.openHi := by
  rw [openLo, openHi]
  constructor
  · cases lower : plan.lo with
    | none => exact negInfinity_le number
    | some lo => exact admits.lo lo lower
  · cases upper : plan.hi with
    | none => exact le_infinity number
    | some hi => exact admits.hi hi upper

/-- A span that starts beyond the finite numbers starts at a bound. -/
theorem lo_of_maxFinite_lt (low : maxFinite < plan.openLo) : plan.lo = some plan.openLo := by
  rw [openLo] at low ⊢
  cases lower : plan.lo with
  | none =>
    rw [lower] at low
    exact absurd low (by decide)
  | some lo => rfl

/-- A span that ends before the finite numbers ends at a bound. -/
theorem hi_of_lt_neg_maxFinite (high : plan.openHi < -maxFinite) : plan.hi = some plan.openHi := by
  rw [openHi] at high ⊢
  cases upper : plan.hi with
  | none =>
    rw [upper] at high
    exact absurd high (by decide)
  | some hi => rfl

/-- If an admitted number meets all checks there is an end or a span to draw from. -/
theorem options_ne_nil (bounded : plan.Bounded) (admits : plan.Admits x) (meets : Meets checks x) :
    plan.edges checks plan.openLo plan.openHi ≠ [] ∨ spans plan.openLo plan.openHi ≠ [] := by
  obtain ⟨above, below⟩ := admits.between meets.1
  by_cases low : maxFinite < plan.openLo
  · -- The number and the start of the span are both infinity.
    have same : value plan.openLo = value x := by
      rw [value_of_maxFinite_lt low, value_of_maxFinite_lt (float_lt_of_lt_of_le low above)]
    exact .inl (edges_ne_nil bounded (.inl (lo_of_maxFinite_lt low)) meets same)
  by_cases high : plan.openHi < -maxFinite
  · have same : value plan.openHi = value x := by
      rw [value_of_lt_neg_maxFinite high,
        value_of_lt_neg_maxFinite (float_lt_of_le_of_lt below high)]
    exact .inl (edges_ne_nil bounded (.inr (hi_of_lt_neg_maxFinite high)) meets same)
  exact .inr (spans_ne_nil (float_le_trans above below) low high)

/-- There are candidates in the span of a plan if an admitted number meets all checks. -/
theorem spanCandidate_succeeds (bounded : plan.Bounded) (admits : plan.Admits x)
    (meets : Meets checks x) : ∃ c, plan.spanCandidate checks = .ok c := by
  rw [spanCandidate]
  split
  · exact ⟨_, rfl⟩
  · simp only
    rw [if_neg]
    · exact ⟨_, rfl⟩
    · rw [List.isEmpty_iff, List.append_eq_nil_iff, List.map_eq_nil_iff, List.map_eq_nil_iff]
      rintro ⟨no_ends, no_spans⟩
      exact (options_ne_nil bounded admits meets).elim (· no_ends) (· no_spans)

/-- Candidates in the span of a plan are exact. -/
theorem spanCandidate_exact {c : Candidate} (h : plan.spanCandidate checks = .ok c) :
    c.exact = true := by
  rw [spanCandidate] at h
  split at h
  · cases h
    rfl
  · simp only at h
    split at h
    · cases h
    · cases h
      rfl

end NumberPlan

/-! ### Candidates -/

section Candidates

variable {checks : List NumberCheck} {x : Float}

/-- Checks without integers and multiples that a number meets have candidates. -/
theorem numberCandidate_succeeds (fractional : .integral ∉ checks)
    (unstepped : ∀ step, .multipleOf step ∉ checks) (meets : Meets checks x) :
    ∃ c, numberCandidate checks = .ok (c, none) := by
  obtain ⟨plan, planned, admits⟩ := NumberPlan.exists_plan meets.2
  obtain ⟨whole, stepless⟩ := NumberPlan.free_ofChecks planned fractional unstepped
  obtain ⟨c, candidates⟩ :=
    NumberPlan.spanCandidate_succeeds (NumberPlan.covers_ofChecks planned).1 admits meets
  refine ⟨c, ?_⟩
  rw [numberCandidate, planned]
  simp only [bind, Except.bind, admits.crossed?_eq_none, whole, stepless, candidates]
  rfl

/-- Candidates without integers and multiples are numbers that meet all checks, and are not
    tested. -/
theorem numberCandidate_meets {c : Candidate} {m : Option NumberPlan.Multiples}
    (fractional : .integral ∉ checks) (unstepped : ∀ step, .multipleOf step ∉ checks)
    (h : numberCandidate checks = .ok (c, m)) :
    c.exact = true ∧ c.sampler.Yields fun v => ∃ x, v = .number x ∧ Meets checks x := by
  obtain ⟨plan, planned, -, ⟨m, unfree, -⟩ | ⟨-, -, candidates⟩⟩ := numberCandidate_eq_ok h
  · exact absurd (NumberPlan.free_ofChecks planned fractional unstepped) unfree
  · have sure := NumberPlan.spanCandidate_exact candidates
    refine ⟨sure, (numberCandidate_yields h).imp fun v => ?_⟩
    rintro ⟨x, rfl, meets⟩
    exact ⟨x, rfl, meets sure⟩

end Candidates

/-! ### Compiling -/

section Compiling

variable {config : Config} {resolver : Resolver} {cell : Cell} {path : Path} {id : SchemaId}
  {checks : List NumberCheck}

/-- **Numbers are contradictory exactly if no number is accepted, and are drawn without a test.**  Let
    a number schema ask for neither integers nor multiples; its bounds may be anything.  Compiling it
    comes to a contradiction exactly if no number, finite or infinite, meets all checks.  Otherwise it
    comes to a strategy of which each draw is a number that meets them. -/
theorem compileInput_numbers (free : resolver id = none) (fractional : .integral ∉ checks)
    (unstepped : ∀ step, .multipleOf step ∉ checks) :
    let s : Schema := .node id (.number checks)
    let outcome := (compileInput config resolver s cell path).outcome
    ((∃ reason, outcome = .error (.failed (.invalid path reason))) ↔ ¬ ∃ x, Meets checks x) ∧
    ((∃ x, Meets checks x) → ∃ strategy, outcome = .ok strategy ∧
      ∀ around p, ∃ x, (strategy.draw.run around p).1 = .ok (.number x) ∧ Meets checks x) := by
  intro s outcome
  have compiled : outcome = _ := compileInput_number free
  have drawn {c : Candidate} {m : Option NumberPlan.Multiples}
      (candidates : numberCandidate checks = .ok (c, m)) : outcome = .ok (.sample c.sampler) := by
    rw [candidates] at compiled
    have untested : config.settle cell path s c = .sample c.sampler :=
      if_pos (numberCandidate_meets fractional unstepped candidates).1
    exact compiled.trans (congrArg _ untested)
  refine ⟨⟨?_, fun refused => ?_⟩, ?_⟩
  · rintro ⟨reason, failed⟩ ⟨x, meets⟩
    obtain ⟨c, candidates⟩ := numberCandidate_succeeds fractional unstepped meets
    cases failed.symm.trans (drawn candidates)
  · cases candidates : numberCandidate checks with
    | error reason =>
      rw [candidates] at compiled
      exact ⟨reason, compiled⟩
    | ok found =>
      -- Whatever any choices draw meets all checks.
      obtain ⟨x, -, meets⟩ :=
        (numberCandidate_meets fractional unstepped candidates).2 (fun _ _ => 0) 0
      exact absurd ⟨x, meets⟩ refused
  · rintro ⟨x, meets⟩
    obtain ⟨c, candidates⟩ := numberCandidate_succeeds fractional unstepped meets
    refine ⟨_, drawn candidates, fun around p => ?_⟩
    obtain ⟨y, value_eq, meets_y⟩ :=
      (numberCandidate_meets fractional unstepped candidates).2 around.choices p.question
    exact ⟨y, congrArg _ value_eq, meets_y⟩

/-- Numbers above the greatest finite one: infinity is drawn, and with infinities excluded nothing is
    left. -/
theorem compileInput_numbers_beyond :
    let above : List NumberCheck := [.min maxFinite false]
    (∃ strategy, (compileInput .standard Resolver.empty (.node 0 (.number above)) [] .root).outcome =
        .ok strategy ∧
      ∀ around p, ∃ x, (strategy.draw.run around p).1 = .ok (.number x) ∧ Meets above x) ∧
    ∃ reason, (compileInput .standard Resolver.empty (.node 0 (.number (.finite :: above))) []
      .root).outcome = .error (.failed (.invalid .root reason)) := by
  intro above
  constructor
  · have infinite : Meets above infinity := ⟨rfl, by decide⟩
    exact (compileInput_numbers rfl (by simp [above]) (by simp [above])).2 ⟨infinity, infinite⟩
  · refine (compileInput_numbers rfl (by simp [above]) (by simp [above])).1.mpr ?_
    rintro ⟨x, -, holds⟩
    have finite : x.isFinite = true := holds .finite (by simp)
    have beyond : maxFinite < x := of_decide_eq_true (holds (.min maxFinite false) (by simp [above]))
    have top := NumberPlan.value_of_maxFinite_lt beyond
    exact absurd top (NumberPlan.finite_bounds finite).2.ne

end Compiling

end SchemaSampler
