import SchemaSampler.Proofs.Strategy.Breaker

namespace SchemaSampler

/-!
# How accurate breakers are — rounding delays a trip by less than one acceptance

A breaker compares the number of acceptances with the product of its rate and the number of trials,
both as floats.  Below `2 ^ 53` the two numbers are floats themselves and only the product is
rounded.  Rounding never carries the product past a number of acceptances, since that is a float, so
the comparison errs to one side only:

* `Breaker.not_tripped_of_le` — a ratio that is not too low trips no breaker.
* `Breaker.tripped_of_add_one_le` — a ratio that is too low by a whole acceptance trips it.
* `Breaker.seek_ending` — the tally that a search leaves trips the breaker exactly if the search was
  given up.
-/

open Binary64

/-- What counting leads to while the numbers are exact as floats. -/
structure Tally.Exact (t : Tally) : Prop where
  consistent : t.successes ≤ t.trials
  small : t.trials < 2 ^ 53

theorem Tally.Exact.value_trials {t : Tally} (h : t.Exact) :
    value (ofInt t.trials) = (t.trials : ℚ) := by
  have := h.small
  exact_mod_cast value_ofInt (n := (t.trials : ℤ)) (by omega)

theorem Tally.Exact.value_successes {t : Tally} (h : t.Exact) :
    value (ofInt t.successes) = (t.successes : ℚ) := by
  have := h.consistent
  have := h.small
  exact_mod_cast value_ofInt (n := (t.successes : ℤ)) (by omega)

/-- Counting a candidate accepts no more than it tries. -/
theorem Tally.successes_record_le (t : Tally) (consistent : t.successes ≤ t.trials)
    (accepted : Bool) : (t.record accepted).successes ≤ (t.record accepted).trials := by
  cases accepted
  · exact Nat.le_succ_of_le consistent
  · exact Nat.succ_le_succ consistent

namespace Breaker

variable {b : Breaker} {t : Tally}

/-- The product that a breaker compares with rounds the product of the rate and the number of
    trials. -/
theorem rounds_product (finite : b.minSuccessRate.isFinite = true) (exact_tally : t.Exact) :
    Rounds (value b.minSuccessRate * t.trials) (b.minSuccessRate * ofInt t.trials) := by
  have small : (t.trials : ℤ).natAbs ≤ 2 ^ 53 := exact_tally.small.le
  have finiteTrials : (ofInt t.trials).isFinite = true :=
    isFinite_of_small (rounds_ofInt _).number (value_ofInt small) small
  have rounded := rounds_mul finite finiteTrials
  rwa [exact_tally.value_trials] at rounded

/-- A ratio of acceptances that is not below the rate trips no breaker. -/
theorem not_tripped_of_le (finite : b.minSuccessRate.isFinite = true) (exact_tally : t.Exact)
    (enough : value b.minSuccessRate * t.trials ≤ t.successes) : b.tripped t = false := by
  have rounded := rounds_product finite exact_tally
  have number : (ofInt t.successes).isNaN = false := (rounds_ofInt _).number
  have steady : ¬ ofInt t.successes < b.minSuccessRate * ofInt t.trials := by
    rw [lt_iff number rounded.number, not_lt]
    exact rounded.le _ number (by rwa [exact_tally.value_successes])
  rw [tripped, decide_eq_false steady, Bool.and_false]

/-- Where a whole acceptance is missing for the rate, the breaker trips as soon as it may. -/
theorem tripped_of_add_one_le (finite : b.minSuccessRate.isFinite = true)
    (atMostOne : value b.minSuccessRate ≤ 1) (exact_tally : t.Exact)
    (late : b.minTrials ≤ t.trials)
    (missing : (t.successes : ℚ) + 1 ≤ value b.minSuccessRate * t.trials) :
    b.tripped t = true := by
  have rounded := rounds_product finite exact_tally
  -- One acceptance more is still a float, because it is no more than the number of trials.
  have next_small : t.successes + 1 ≤ t.trials := by
    have product : value b.minSuccessRate * t.trials ≤ t.trials :=
      mul_le_of_le_one_left (Nat.cast_nonneg _) atMostOne
    exact_mod_cast missing.trans product
  have next_exact : (⟨t.trials, t.successes + 1⟩ : Tally).Exact :=
    ⟨next_small, exact_tally.small⟩
  have next_value : value (ofInt (t.successes + 1 : ℕ)) = (t.successes : ℚ) + 1 := by
    rw [next_exact.value_successes]
    push_cast
    rfl
  have reached : (t.successes : ℚ) + 1 ≤ value (b.minSuccessRate * ofInt t.trials) := by
    rw [← next_value]
    exact rounded.ge _ (rounds_ofInt _).number (by rwa [next_value])
  refine tripped_iff.mpr ⟨late, (lt_iff (rounds_ofInt _).number rounded.number).mpr ?_⟩
  rw [exact_tally.value_successes]
  linarith

/-! ### Searches -/

section Searches

variable {σ ε β : Type} {next : σ → Except ε (Option β) × σ}

/-- A search counts each candidate once and accepts no more than it tries. -/
theorem seek_counts (next : σ → Except ε (Option β) × σ) (patience : Nat) {tally : Tally} (s : σ)
    (consistent : tally.successes ≤ tally.trials) :
    (b.seek next patience tally s).2.1.successes ≤ (b.seek next patience tally s).2.1.trials ∧
      (b.seek next patience tally s).2.1.trials ≤ tally.trials + patience := by
  induction patience generalizing tally s with
  | zero => exact ⟨consistent, Nat.le_refl _⟩
  | succ patience ih =>
    rw [seek]
    rcases next s with ⟨e | image, s'⟩
    · exact ⟨consistent, Nat.le_add_right _ _⟩
    · have kept := tally.successes_record_le consistent image.isSome
      have counted : (tally.record image.isSome).trials ≤ tally.trials + (patience + 1) :=
        Nat.add_le_add_left (Nat.le_add_left 1 patience) _
      dsimp only
      split
      · exact ⟨kept, counted⟩
      · cases image with
        | some v => exact ⟨kept, counted⟩
        | none =>
          have further := ih s' kept
          have later : (tally.record false).trials + patience = tally.trials + (patience + 1) :=
            Nat.add_right_comm _ _ _
          exact ⟨further.1, further.2.trans_eq later⟩

/-- **The end of a search.** A search that is given up leaves a tally at which the breaker trips.
    Any other search leaves one at which it does not, or tried no candidate. -/
theorem seek_ending (next : σ → Except ε (Option β) × σ) (patience : Nat) (tally : Tally) (s : σ) :
    (b.seek next patience tally s).1 = .tripped (b.seek next patience tally s).2.1 ∧
        b.tripped (b.seek next patience tally s).2.1 = true ∨
      (∀ t, (b.seek next patience tally s).1 ≠ .tripped t) ∧
        ((b.seek next patience tally s).2.1 = tally ∨
          b.tripped (b.seek next patience tally s).2.1 = false) := by
  induction patience generalizing tally s with
  | zero => exact .inr ⟨fun t => by rintro ⟨⟩, .inl rfl⟩
  | succ patience ih =>
    rw [seek]
    rcases next s with ⟨e | image, s'⟩
    · exact .inr ⟨fun t => by rintro ⟨⟩, .inl rfl⟩
    · dsimp only
      split
      · rename_i trips
        exact .inl ⟨rfl, trips⟩
      · rename_i waits
        have waits := Bool.eq_false_iff.mpr waits
        cases image with
        | some v => exact .inr ⟨fun t => by rintro ⟨⟩, .inr waits⟩
        | none =>
          rcases ih (tally.record false) s' with given_up | ⟨other, same | waits'⟩
          · exact .inl given_up
          · exact .inr ⟨other, .inr ((congrArg b.tripped same).trans waits)⟩
          · exact .inr ⟨other, .inr waits'⟩

/-- **Rounding delays a trip by less than one acceptance.** With a positive rate of at most one and
    numbers below `2 ^ 53`, a breaker does not trip before its least number of trials, nor while the
    ratio of acceptances is at least the rate, as exact numbers; from that number of trials on, it
    trips where a whole acceptance is missing.  So a search is given up only if the ratio is too
    low, and goes on, or accepts a candidate, only while less than one acceptance is missing. -/
theorem tripped_within_one (positive : 0 < b.minSuccessRate) (atMostOne : b.minSuccessRate ≤ 1) :
    (∀ t : Tally, t.Exact →
      (t.trials < b.minTrials ∨ value b.minSuccessRate * t.trials ≤ t.successes →
          b.tripped t = false) ∧
        (b.minTrials ≤ t.trials → (t.successes : ℚ) + 1 ≤ value b.minSuccessRate * t.trials →
          b.tripped t = true)) ∧
      ∀ (patience : Nat) (tally : Tally) (s : σ), tally.successes ≤ tally.trials →
        tally.trials + patience < 2 ^ 53 →
        (∀ t, (b.seek next patience tally s).1 = .tripped t →
          b.minTrials ≤ t.trials ∧ (t.successes : ℚ) < value b.minSuccessRate * t.trials) ∧
        ((∀ t, (b.seek next patience tally s).1 ≠ .tripped t) →
          ∀ t, (b.seek next patience tally s).2.1 = t → t ≠ tally → b.minTrials ≤ t.trials →
            value b.minSuccessRate * t.trials < (t.successes : ℚ) + 1) := by
  have number : b.minSuccessRate.isNaN = false := (number_of_pos positive).1
  have least : 0 < value b.minSuccessRate := (number_of_pos positive).2
  have most : value b.minSuccessRate ≤ 1 := by
    have := (le_iff number (number_of_le atMostOne).2).mp atMostOne
    rwa [value_literal_one] at this
  have finite : b.minSuccessRate.isFinite = true := by
    rw [isFinite_iff number, abs_of_pos least]
    exact most.trans_lt (one_lt_zpow₀ (by norm_num) (by norm_num))
  refine ⟨fun t exact_tally => ⟨?_, tripped_of_add_one_le finite most exact_tally⟩, ?_⟩
  · rintro (early | enough)
    · rw [tripped, decide_eq_false (by omega), Bool.false_and]
    · exact not_tripped_of_le finite exact_tally enough
  · intro patience tally s consistent small
    have counts := seek_counts (b := b) next patience s consistent
    have exact_tally : (b.seek next patience tally s).2.1.Exact :=
      ⟨counts.1, counts.2.trans_lt small⟩
    rcases seek_ending (b := b) next patience tally s with
      ⟨given_up, trips⟩ | ⟨other, same | waits⟩
    · refine ⟨fun t ending => ?_, fun other => absurd given_up (other _)⟩
      obtain rfl := Ending.tripped.inj (given_up.symm.trans ending)
      refine ⟨(tripped_iff.mp trips).1, not_le.mp fun enough => ?_⟩
      rw [not_tripped_of_le finite exact_tally enough] at trips
      cases trips
    · exact ⟨fun t ending => absurd ending (other t),
        fun _ t left changed => absurd (left.symm.trans same) changed⟩
    · refine ⟨fun t ending => absurd ending (other t), ?_⟩
      rintro _ _ rfl _ late
      refine not_le.mp fun missing => ?_
      rw [tripped_of_add_one_le finite most exact_tally late missing] at waits
      cases waits

/-- The float next to a tenth lies above it: with none of ten candidates accepted a whole acceptance
    is missing for it, and with two of nineteen there are enough. -/
theorem tripped_within_one_tenth :
    let b : Breaker := ⟨10, 0.1⟩
    let next : Unit → Except Unit (Option Bool) × Unit := fun s => (.ok none, s)
    0 < b.minSuccessRate ∧ b.minSuccessRate ≤ 1 ∧
      value b.minSuccessRate = 7205759403792794 / 2 ^ 56 ∧
      b.tripped ⟨9, 0⟩ = false ∧ b.tripped ⟨10, 0⟩ = true ∧ b.tripped ⟨19, 2⟩ = false ∧
      ∀ t, (b.seek next 20 .zero ()).1 = .tripped t →
        10 ≤ t.trials ∧ (t.successes : ℚ) < value b.minSuccessRate * t.trials := by
  intro b next
  have tenth : value b.minSuccessRate = 7205759403792794 / 2 ^ 56 := by
    have parts : form 0.1 = .finite .positive 7205759403792794 (-56) (by decide) := rfl
    show value 0.1 = _
    rw [value, parts, formValue, unit]
    norm_num
  have positive : 0 < b.minSuccessRate := by decide
  have atMostOne : b.minSuccessRate ≤ 1 := by decide
  obtain ⟨tallies, searches⟩ := @tripped_within_one b Unit Unit Bool next positive atMostOne
  have early := (tallies ⟨9, 0⟩ ⟨by decide, by decide⟩).1 (.inl (by decide))
  have missing := (tallies ⟨10, 0⟩ ⟨by decide, by decide⟩).2 (by decide) (by rw [tenth]; norm_num)
  have enough := (tallies ⟨19, 2⟩ ⟨by decide, by decide⟩).1 (.inr (by rw [tenth]; norm_num))
  have given_up := (searches 20 .zero () (by decide) (by decide)).1
  exact ⟨positive, atMostOne, tenth, early, missing, enough, given_up⟩

end Searches

end Breaker

end SchemaSampler
