import SchemaSampler.Proofs.Binary64.Integral
import SchemaSampler.Proofs.Random.Number
import SchemaSampler.Proofs.Strategy.IntegerCandidates
import SchemaSampler.Strategy.NumberCandidate

namespace SchemaSampler

open Binary64

/-!
# Plans of number schemas — numbers between the bounds meet the checks

* The plan of the checks of a number keeps the strictest bounds, which are closed, and all steps
  (`covers_ofChecks`).
* What lies between the bounds of a plan and is finite meets the checks of the plan
  (`Covers.holds`), and the numbers drawn from a span lie there (`spanCandidate_yields`).
-/

namespace NumberPlan

variable {plan plan' : NumberPlan} {check other : NumberCheck} {checks : List NumberCheck}
variable {lo hi x : Float}

/-! ### Plans -/

/-- What lies between the bounds of a plan and is finite meets a check, or the plan asks for what
    the check asks for. -/
def Covers (plan : NumberPlan) : NumberCheck → Prop
  | .min bound inclusive => ∃ lo, plan.lo = some lo ∧
      ∀ x : Float, x.isFinite = true → lo ≤ x → (NumberCheck.min bound inclusive).holds x = true
  | .max bound inclusive => ∃ hi, plan.hi = some hi ∧
      ∀ x : Float, x.isFinite = true → x ≤ hi → (NumberCheck.max bound inclusive).holds x = true
  | .integral => plan.integral = true
  | .multipleOf step => step ∈ plan.steps
  | .finite => True

/-- The bounds of a plan are numbers. -/
structure Bounded (plan : NumberPlan) : Prop where
  lo : ∀ lo, plan.lo = some lo → lo.isNaN = false
  hi : ∀ hi, plan.hi = some hi → hi.isNaN = false

/-- The closed lower bound that a check asks for. -/
def closedLo (bound : Float) (inclusive : Bool) : Float := if inclusive then bound else nextUp bound

/-- The closed upper bound that a check asks for. -/
def closedHi (bound : Float) (inclusive : Bool) : Float :=
  if inclusive then bound else nextDown bound

/-- A minimum raises the lower end, unless it is higher already. -/
theorem add_min {bound : Float} {inclusive : Bool} (h : plan.add (.min bound inclusive) = .ok plan') :
    bound.isNaN = false ∧ plan' = { plan with
      lo := some (plan.lo.elim (closedLo bound inclusive) (larger · (closedLo bound inclusive))) } := by
  simp only [add] at h
  split at h
  · cases h
  · exact ⟨Bool.eq_false_iff.mpr ‹_›, (Except.ok.inj h).symm⟩

/-- A maximum lowers the upper end, unless it is lower already. -/
theorem add_max {bound : Float} {inclusive : Bool} (h : plan.add (.max bound inclusive) = .ok plan') :
    bound.isNaN = false ∧ plan' = { plan with
      hi := some (plan.hi.elim (closedHi bound inclusive)
        (smaller · (closedHi bound inclusive))) } := by
  simp only [add] at h
  split at h
  · cases h
  · exact ⟨Bool.eq_false_iff.mpr ‹_›, (Except.ok.inj h).symm⟩

/-- The lower end for a number is a number. -/
theorem isNaN_closedLo {bound : Float} (number : bound.isNaN = false) (inclusive : Bool) :
    (closedLo bound inclusive).isNaN = false := by
  cases inclusive
  · exact isNaN_nextUp number
  · exact number

/-- The upper end for a number is a number. -/
theorem isNaN_closedHi {bound : Float} (number : bound.isNaN = false) (inclusive : Bool) :
    (closedHi bound inclusive).isNaN = false := by
  cases inclusive
  · exact isNaN_nextDown number
  · exact number

/-- Each check leaves ends that are numbers. -/
theorem Bounded.add (bounded : plan.Bounded) (h : plan.add check = .ok plan') : plan'.Bounded := by
  cases check with
  | min bound inclusive =>
    obtain ⟨number, rfl⟩ := add_min h
    have closed := isNaN_closedLo number inclusive
    refine ⟨fun lo hlo => ?_, bounded.hi⟩
    cases hlo
    cases hp : plan.lo with
    | none => exact closed
    | some old => exact isNaN_larger (bounded.lo old hp) closed
  | max bound inclusive =>
    obtain ⟨number, rfl⟩ := add_max h
    have closed := isNaN_closedHi number inclusive
    refine ⟨bounded.lo, fun hi hhi => ?_⟩
    cases hhi
    cases hp : plan.hi with
    | none => exact closed
    | some old => exact isNaN_smaller (bounded.hi old hp) closed
  | integral | finite | multipleOf _ =>
    cases h
    exact ⟨bounded.lo, bounded.hi⟩

/-- Finite floats lie between the values that stand for the infinities. -/
theorem finite_bounds (finite : x.isFinite = true) : -limit < value x ∧ value x < limit :=
  abs_lt.mp ((isFinite_iff (number_of_isFinite finite)).mp finite)

/-- What a closed bound admits meets the check that asks for it. -/
theorem holds_of_closedLo {bound : Float} (number : bound.isNaN = false) {inclusive : Bool}
    (finite : x.isFinite = true) (h : closedLo bound inclusive ≤ x) :
    (NumberCheck.min bound inclusive).holds x = true := by
  cases inclusive with
  | true => exact decide_eq_true h
  | false => exact decide_eq_true (lt_of_nextUp_le number (finite_bounds finite).2 h)

/-- What is at most the upper end for a maximum passes it. -/
theorem holds_of_closedHi {bound : Float} (number : bound.isNaN = false) {inclusive : Bool}
    (finite : x.isFinite = true) (h : x ≤ closedHi bound inclusive) :
    (NumberCheck.max bound inclusive).holds x = true := by
  cases inclusive with
  | true => exact decide_eq_true h
  | false => exact decide_eq_true (lt_of_le_nextDown number (finite_bounds finite).1 h)

/-- A check that was added is covered. -/
theorem covers_add (bounded : plan.Bounded) (h : plan.add check = .ok plan') :
    plan'.Covers check := by
  cases check with
  | min bound inclusive =>
    obtain ⟨number, rfl⟩ := add_min h
    refine ⟨_, rfl, fun x finite above => holds_of_closedLo number finite ?_⟩
    cases hp : plan.lo with
    | none =>
      rw [hp] at above
      exact above
    | some old =>
      rw [hp] at above
      exact float_le_trans
        (le_larger (bounded.lo old hp) (isNaN_closedLo number inclusive)).2 above
  | max bound inclusive =>
    obtain ⟨number, rfl⟩ := add_max h
    refine ⟨_, rfl, fun x finite below => holds_of_closedHi number finite ?_⟩
    cases hp : plan.hi with
    | none =>
      rw [hp] at below
      exact below
    | some old =>
      rw [hp] at below
      exact float_le_trans below
        (smaller_le (bounded.hi old hp) (isNaN_closedHi number inclusive)).2
  | integral =>
    cases h
    rfl
  | multipleOf step =>
    cases h
    exact List.mem_append_right _ (List.mem_singleton_self step)
  | finite => trivial

/-- A check that was covered stays so when others are added. -/
theorem Covers.add (covered : plan.Covers other) (bounded : plan.Bounded)
    (h : plan.add check = .ok plan') : plan'.Covers other := by
  cases check with
  | min bound inclusive =>
    obtain ⟨number, rfl⟩ := add_min h
    cases other with
    | min b i =>
      obtain ⟨lo, hlo, meets⟩ := covered
      refine ⟨_, rfl, fun x finite above => meets x finite ?_⟩
      rw [hlo, Option.elim_some] at above
      exact float_le_trans
        (le_larger (bounded.lo lo hlo) (isNaN_closedLo number inclusive)).1 above
    | _ => exact covered
  | max bound inclusive =>
    obtain ⟨number, rfl⟩ := add_max h
    cases other with
    | max b i =>
      obtain ⟨hi, hhi, meets⟩ := covered
      refine ⟨_, rfl, fun x finite below => meets x finite ?_⟩
      rw [hhi, Option.elim_some] at below
      exact float_le_trans below
        (smaller_le (bounded.hi hi hhi) (isNaN_closedHi number inclusive)).1
    | _ => exact covered
  | integral =>
    cases h
    cases other with
    | integral => rfl
    | _ => exact covered
  | multipleOf step =>
    cases h
    cases other with
    | multipleOf s => exact List.mem_append_left _ covered
    | _ => exact covered
  | finite =>
    cases h
    exact covered

/-- The plan of a list of checks covers them all, and its bounds are numbers. -/
theorem covers_ofChecks (h : ofChecks checks = .ok plan) :
    plan.Bounded ∧ ∀ check ∈ checks, plan.Covers check := by
  refine foldlM_induction
    (motive := fun seen plan => plan.Bounded ∧ ∀ check ∈ seen, plan.Covers check)
    ⟨⟨nofun, nofun⟩, by simp⟩ (fun seen plan check next => ?_) h
  rintro ⟨bounded, covered⟩ added
  refine ⟨bounded.add added, fun other member => ?_⟩
  rcases List.mem_append.mp member with member | member
  · exact (covered other member).add bounded added
  · rw [List.mem_singleton.mp member]
    exact covers_add bounded added

/-! ### Spans -/

/-- A plan that asks for neither integers nor multiples. -/
def Free (plan : NumberPlan) : Prop := plan.integral = false ∧ plan.steps = []

/-- Whatever lies between the bounds of a free plan and is finite meets the checks. -/
theorem Covers.holds (covered : plan.Covers check) (free : plan.Free) (finite : x.isFinite = true)
    (above : ∀ lo, plan.lo = some lo → lo ≤ x) (below : ∀ hi, plan.hi = some hi → x ≤ hi) :
    check.holds x = true := by
  cases check with
  | min bound inclusive =>
    obtain ⟨lo, hlo, meets⟩ := covered
    exact meets x finite (above lo hlo)
  | max bound inclusive =>
    obtain ⟨hi, hhi, meets⟩ := covered
    exact meets x finite (below hi hhi)
  | integral =>
    rw [Covers, free.1] at covered
    cases covered
  | multipleOf step =>
    rw [Covers, free.2] at covered
    cases covered
  | finite => exact finite

/-- A span that lies in another one. -/
def Inside (lo hi : Float) (span : Float × Float) : Prop :=
  lo ≤ span.1 ∧ span.1 ≤ span.2 ∧ span.2 ≤ hi

/-- All spans lie inside of the ends. -/
theorem inside_finiteSpans (h : lo ≤ hi) : ∀ span ∈ finiteSpans lo hi, Inside lo hi span := by
  obtain ⟨hlo, hhi⟩ := number_of_le h
  intro span member
  rw [finiteSpans] at member
  split at member
  · rename_i wide
    rw [Bool.and_eq_true, Bool.and_eq_true, decide_eq_true_eq, decide_eq_true_eq] at wide
    obtain ⟨⟨below, above⟩, -⟩ := wide
    simp only [List.mem_cons, List.not_mem_nil, or_false] at member
    rcases member with rfl | rfl
    · exact ⟨float_le_refl hlo, float_le_of_lt below, float_le_of_lt above⟩
    · exact ⟨float_le_of_lt below, float_le_of_lt above, float_le_refl hhi⟩
  · rw [List.mem_singleton] at member
    subst member
    exact ⟨float_le_refl hlo, h, float_le_refl hhi⟩

theorem number_maxFinite : maxFinite.isNaN = false := rfl

theorem number_neg_maxFinite : (-maxFinite).isNaN = false := rfl

/-- The spans to draw from lie in the finite part of the span. -/
theorem inside_spans (hlo : lo.isNaN = false) (hhi : hi.isNaN = false) :
    ∀ span ∈ spans lo hi, Inside lo hi span ∧ Inside (-maxFinite) maxFinite span := by
  intro span member
  have left := le_larger hlo number_neg_maxFinite
  have right := smaller_le hhi number_maxFinite
  rw [spans] at member
  simp only at member
  generalize larger lo (-maxFinite) = a at *
  generalize smaller hi maxFinite = b at *
  -- A span in the finite part lies in both.
  have both : ∀ span, Inside a b span → Inside lo hi span ∧ Inside (-maxFinite) maxFinite span := by
    rintro ⟨c, d⟩ ⟨above, order, below⟩
    exact ⟨⟨float_le_trans left.1 above, order, float_le_trans below right.1⟩,
      ⟨float_le_trans left.2 above, order, float_le_trans below right.2⟩⟩
  split at member
  · rename_i order
    rcases List.mem_append.mp member with member | member
    · exact both span (inside_finiteSpans order span member)
    · split at member
      · rename_i smallOrder
        rw [List.mem_singleton] at member
        subst member
        obtain ⟨ha, hb⟩ := number_of_le order
        have small : smallMagnitude.isNaN = false ∧ (-smallMagnitude).isNaN = false := ⟨rfl, rfl⟩
        exact both _ ⟨(le_larger ha small.2).1, smallOrder, (smaller_le hb small.1).1⟩
      · cases member
  · cases member

/-- What lies between finite floats is finite. -/
theorem isFinite_of_between (above : -maxFinite ≤ x) (below : x ≤ maxFinite) :
    x.isFinite = true := by
  obtain ⟨-, hx⟩ := number_of_le above
  have finite : maxFinite.isFinite = true := rfl
  have bounds := (isFinite_iff number_maxFinite).mp finite
  rw [abs_lt] at bounds
  rw [le_iff number_neg_maxFinite hx, value_neg] at above
  rw [le_iff hx number_maxFinite] at below
  rw [isFinite_iff hx, abs_lt]
  constructor <;> linarith

/-- Dropping repetitions adds nothing. -/
theorem mem_of_mem_dropRepeats {xs : List Float} (member : x ∈ dropRepeats xs) : x ∈ xs := by
  fun_induction dropRepeats xs with
  | case1 a b rest same ih =>
    rcases List.mem_cons.mp (ih member) with rfl | member
    · exact List.mem_cons_self
    · exact List.mem_cons_of_mem _ (List.mem_cons_of_mem _ member)
  | case2 a b rest different ih =>
    rcases List.mem_cons.mp member with rfl | member
    · exact List.mem_cons_self
    · exact List.mem_cons_of_mem _ (ih member)
  | case3 short => exact member

/-- The ends of a span and zero are numbers, and the checks admit those that are left. -/
theorem of_mem_edges (hlo : lo.isNaN = false) (hhi : hi.isNaN = false)
    (member : x ∈ plan.edges checks lo hi) :
    x.isNaN = false ∧ ∀ check ∈ checks, check.holds x = true := by
  obtain ⟨member, admitted⟩ := List.mem_filter.mp member
  have ends := List.mem_of_mem_filter (mem_of_mem_dropRepeats member)
  simp only [List.mem_cons, List.not_mem_nil, or_false] at ends
  refine ⟨?_, List.all_eq_true.mp admitted⟩
  rcases ends with rfl | rfl | rfl
  · exact hlo
  · exact hhi
  · rfl

/-- The weights of a list of options that all have a weight. -/
theorem total_pos {α : Type} {options : Weighted α} (nonempty : options ≠ [])
    (weights : ∀ option ∈ options, 0 < option.1) : 0 < options.total := by
  cases options with
  | nil => exact absurd rfl nonempty
  | cons option rest =>
    rw [Sampler.total_cons]
    have := weights option List.mem_cons_self
    omega

/-- The start of a span, minus infinity where a plan has no lower bound. -/
def openLo (plan : NumberPlan) : Float := plan.lo.getD negInfinity

/-- The end of a span, infinity where a plan has no upper bound. -/
def openHi (plan : NumberPlan) : Float := plan.hi.getD infinity

/-- The lower end of a plan is a number, and negative infinity without a minimum. -/
theorem number_openLo (bounded : plan.Bounded) : plan.openLo.isNaN = false := by
  rw [openLo]
  cases lower : plan.lo with
  | none => rfl
  | some lo => exact bounded.lo lo lower

/-- The upper end of a plan is a number, and infinity without a maximum. -/
theorem number_openHi (bounded : plan.Bounded) : plan.openHi.isNaN = false := by
  rw [openHi]
  cases upper : plan.hi with
  | none => rfl
  | some hi => exact bounded.hi hi upper

/-- The candidates in a span are numbers that meet the checks. -/
theorem spanCandidate_yields {c : Candidate} (bounded : plan.Bounded) (free : plan.Free)
    (covered : ∀ check ∈ checks, plan.Covers check) (h : plan.spanCandidate checks = .ok c) :
    c.sampler.Yields fun v =>
      ∃ x, v = .number x ∧ x.isNaN = false ∧ ∀ check ∈ checks, check.holds x = true := by
  rw [spanCandidate] at h
  split at h
  · rename_i unbounded
    rw [Bool.and_eq_true, Option.isNone_iff_eq_none, Option.isNone_iff_eq_none] at unbounded
    cases h
    refine Sampler.yields_finiteFloat.bind fun x finite => Sampler.yields_pure
      ⟨x, rfl, number_of_isFinite finite, fun check member =>
        (covered check member).holds free finite ?_ ?_⟩
    · rw [unbounded.1]
      exact nofun
    · rw [unbounded.2]
      exact nofun
  · have number_lo := number_openLo bounded
    have number_hi := number_openHi bounded
    simp only at h
    split at h
    · cases h
    · rename_i nonempty
      cases h
      refine (Sampler.yields_weighted_of_pos (total_pos (by simpa using nonempty) ?_) ?_).bind
        fun x hx => Sampler.yields_pure ⟨x, rfl, hx⟩
      · intro option member
        rcases List.mem_append.mp member with member | member <;>
          obtain ⟨_, -, rfl⟩ := List.mem_map.mp member
        · exact Nat.one_pos
        · exact Nat.succ_pos 7
      · intro option member
        rw [List.map_append, List.map_map, List.map_map] at member
        rcases List.mem_append.mp member with member | member <;>
          obtain ⟨source, from_there, rfl⟩ := List.mem_map.mp member
        · exact Sampler.yields_pure (of_mem_edges number_lo number_hi from_there)
        · obtain ⟨inside, finite_part⟩ := inside_spans number_lo number_hi source from_there
          refine (Sampler.yields_floatBetween inside.2.1).imp fun x hx => ?_
          have finite := isFinite_of_between (float_le_trans finite_part.1 hx.1)
            (float_le_trans hx.2 finite_part.2.2)
          refine ⟨number_of_isFinite finite, fun check there =>
            (covered check there).holds free finite (fun lo hlo => ?_) fun hi hhi => ?_⟩
          · have above := float_le_trans inside.1 hx.1
            rwa [openLo, hlo, Option.getD_some] at above
          · have below := float_le_trans hx.2 inside.2.2
            rwa [openHi, hhi, Option.getD_some] at below

end NumberPlan

end SchemaSampler
