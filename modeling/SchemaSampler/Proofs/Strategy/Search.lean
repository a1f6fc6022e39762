import SchemaSampler.Proofs.Strategy.Breaker
import SchemaSampler.Proofs.Strategy.Locality

namespace SchemaSampler

/-!
# Searches — what the draws from a monitored strategy come to

The draws from a monitored strategy share one tally, so they go through the candidates of its source
as one scan does that runs over all of them (`Breaker.emissions`): the scan hands out each accepted
candidate, trips where the ratio is too low by then, and passes on what the source refuses.

* `Breaker.seek_emits` — one search ends with the first thing that the scan hands out.
* `Draw.exists_tried_of_series` — a series of draws comes to all that it hands out, in order.
* `Breaker.decided_iff` — by when a search has ended.
-/

/-- What came of asking a source once: what an accepted candidate becomes, or nothing for one that
    is not accepted, or no candidate at all. -/
abbrev Attempt (ε β : Type) := Except ε (Option β)

namespace Attempt

variable {ε β : Type}

/-- Whether there was a candidate. -/
def isCandidate : Attempt ε β → Bool
  | .ok _ => true
  | .error _ => false

/-- What an accepted candidate becomes. -/
def accepted? : Attempt ε β → Option β
  | .ok image => image
  | .error _ => none

end Attempt

/-- The numbers of candidates and of accepted ones among attempts. -/
def Tally.of {ε β : Type} (attempts : List (Attempt ε β)) : Tally :=
  ⟨attempts.countP Attempt.isCandidate, attempts.countP fun a => a.accepted?.isSome⟩

/-- The value that a search ended with, if it found one. -/
def Ending.accepted? {ε β : Type} : Ending ε β → Option β
  | .accepted v => some v
  | _ => none

namespace Breaker

variable {σ ε β : Type} {b : Breaker}

/-- What a scan hands out at an attempt that comes after others. -/
def emission (b : Breaker) (before : List (Attempt ε β)) : Attempt ε β → Option (Ending ε β)
  | .error e => some (.refused e)
  | .ok image =>
    let tally := Tally.of (before ++ [.ok image])
    if b.tripped tally then some (.tripped tally) else image.map .accepted

/-- What a scan of attempts hands out, in order. -/
def emissions (b : Breaker) (attempts : List (Attempt ε β)) : List (Ending ε β) :=
  (List.range attempts.length).filterMap fun i => attempts[i]?.bind (b.emission (attempts.take i))

/-- The first attempts of a source. -/
def attempts (next : σ → Attempt ε β × σ) : (count : Nat) → σ → List (Attempt ε β)
  | 0, _ => []
  | count + 1, s => (next s).1 :: attempts next count (next s).2

/-- Each attempt is made in some state of the source. -/
theorem exists_of_mem_attempts {next : σ → Attempt ε β × σ} {n : Nat} {s : σ} {a : Attempt ε β}
    (member : a ∈ attempts next n s) : ∃ s', a = (next s').1 := by
  induction n generalizing s with
  | zero => cases member
  | succ n ih =>
    rcases List.mem_cons.mp member with rfl | member
    · exact ⟨s, rfl⟩
    · exact ih member

theorem emissions_concat (before : List (Attempt ε β)) (a : Attempt ε β) :
    b.emissions (before ++ [a]) = b.emissions before ++ (b.emission before a).toList := by
  have earlier : ∀ i ∈ List.range before.length,
      ((before ++ [a])[i]?.bind (b.emission ((before ++ [a]).take i))) =
        before[i]?.bind (b.emission (before.take i)) := by
    intro i member
    have inside := List.mem_range.mp member
    rw [List.getElem?_append_left inside, List.take_append_of_le_length inside.le]
  rw [emissions, List.length_append, List.length_singleton, List.range_succ,
    List.filterMap_append, List.filterMap_congr earlier]
  simp [emissions, List.filterMap_cons]
  cases b.emission before a <;> rfl

theorem of_concat_ok (before : List (Attempt ε β)) (image : Option β) :
    Tally.of (before ++ [.ok image]) = (Tally.of before).record image.isSome := by
  cases image <;> simp [Tally.of, Tally.record, Attempt.isCandidate, Attempt.accepted?]

theorem of_concat_error (before : List (Attempt ε β)) (e : ε) :
    Tally.of (before ++ [.error e]) = Tally.of before := by
  simp [Tally.of, Attempt.isCandidate, Attempt.accepted?]

/-- **One search.** A search that ends does so with what the scan hands out at its last attempt; the
    scan hands out nothing at the others, and the search leaves the tally of all attempts. -/
theorem seek_emits (next : σ → Attempt ε β × σ) (before : List (Attempt ε β)) (patience : Nat)
    (s : σ) (ended : (b.seek next patience (Tally.of before) s).1 ≠ .stalled) :
    ∃ n, b.emissions (before ++ attempts next (n + 1) s) =
        b.emissions before ++ [(b.seek next patience (Tally.of before) s).1] ∧
      (b.seek next patience (Tally.of before) s).2.1 =
        Tally.of (before ++ attempts next (n + 1) s) := by
  -- The attempts before grow along with the tally, so the induction is over all of them.
  induction patience generalizing before s with
  | zero => exact absurd rfl ended
  | succ patience ih =>
    rw [seek] at ended ⊢
    rcases asked : next s with ⟨e | image, s'⟩
    · refine ⟨0, ?_, ?_⟩
      · simp only [attempts, asked, emissions_concat]
        rfl
      · simp only [attempts, asked, of_concat_error]
    · rw [asked] at ended
      simp only [← of_concat_ok] at ended ⊢
      by_cases trips : b.tripped (Tally.of (before ++ [.ok image])) = true
      · rw [if_pos trips]
        refine ⟨0, ?_, ?_⟩
        · simp only [attempts, asked, emissions_concat, emission, trips, if_true,
            Option.toList_some]
        · simp only [attempts, asked]
      · rw [if_neg trips] at ended ⊢
        cases image with
        | some v =>
          refine ⟨0, ?_, ?_⟩
          · simp only [attempts, asked, emissions_concat, emission, if_neg trips, Option.map_some,
              Option.toList_some]
          · simp only [attempts, asked]
        | none =>
          obtain ⟨n, emits, left⟩ := ih _ s' ended
          have nothing : b.emissions (before ++ [.ok none]) = b.emissions before := by
            simp only [emissions_concat, emission, if_neg trips, Option.map_none,
              Option.toList_none, List.append_nil]
          have further : before ++ attempts next (n + 1 + 1) s =
              before ++ [.ok none] ++ attempts next (n + 1) s' := by
            rw [attempts, asked, List.append_assoc, List.singleton_append]
          refine ⟨n + 1, ?_, ?_⟩
          · rw [further, emits, nothing]
          · rw [further, left]

/-! ### What a scan hands out -/

variable {attempts : List (Attempt ε β)}

/-- A scan gives up no search before the least number of candidates. -/
theorem le_trials_of_tripped_mem {t : Tally} (member : .tripped t ∈ b.emissions attempts) :
    b.minTrials ≤ t.trials := by
  obtain ⟨i, _, handed⟩ := List.mem_filterMap.mp member
  obtain ⟨a, _, handed⟩ := Option.bind_eq_some_iff.mp handed
  cases a with
  | error e => cases handed
  | ok image =>
    rw [emission] at handed
    split at handed
    · rename_i trips
      cases handed
      exact (tripped_iff.mp trips).1
    · cases image <;> cases handed

theorem take_succ_of_getElem? {i : Nat} {a : Attempt ε β} (h : attempts[i]? = some a) :
    attempts.take (i + 1) = attempts.take i ++ [a] := by
  rw [List.take_add_one, h, Option.toList_some]

/-- A scan hands out each accepted candidate once, in order, except where it trips. -/
theorem accepted_emissions :
    (b.emissions attempts).filterMap Ending.accepted? =
      (List.range attempts.length).filterMap fun i =>
        if b.tripped (Tally.of (attempts.take (i + 1))) then none
        else attempts[i]?.bind Attempt.accepted? := by
  rw [emissions, List.filterMap_filterMap]
  refine List.filterMap_congr fun i _ => ?_
  cases found : attempts[i]? with
  | none => simp
  | some a =>
    rw [take_succ_of_getElem? found, Option.bind_some, Option.bind_some]
    cases a with
    | error e => simp [emission, Attempt.accepted?, Ending.accepted?]
    | ok image =>
      by_cases trips : b.tripped (Tally.of (attempts.take i ++ [.ok image])) = true
      · simp [emission, trips, Ending.accepted?]
      · cases image <;> simp [emission, trips, Ending.accepted?, Attempt.accepted?]

/-- What a scan hands out at an attempt that leaves `n` candidates tried and none accepted, if it
    trips as soon as it may. -/
def rejection (b : Breaker) (n : Nat) : Attempt ε β → Option (Ending ε β)
  | .error e => some (.refused e)
  | .ok _ => if max 1 b.minTrials ≤ n then some (.tripped ⟨n, 0⟩) else none

/-- Where nothing is accepted and the rate is positive, a scan trips at every candidate from the
    least number on. -/
theorem emissions_of_none_accepted (positive : 0 < b.minSuccessRate)
    (rejected : ∀ a ∈ attempts, a.accepted? = none) :
    b.emissions attempts = (List.range attempts.length).filterMap fun i =>
      attempts[i]?.bind (b.rejection (Tally.of (attempts.take (i + 1))).trials) := by
  refine List.filterMap_congr fun i _ => ?_
  cases found : attempts[i]? with
  | none => rfl
  | some a =>
    rw [Option.bind_some, Option.bind_some]
    cases a with
    | error e => rfl
    | ok image =>
      obtain rfl : image = none := rejected _ (List.mem_of_getElem? found)
      have without : (Tally.of (attempts.take (i + 1))).successes = 0 := by
        refine List.countP_eq_zero.mpr fun a member => ?_
        simp [rejected a (List.mem_of_mem_take member)]
      rw [take_succ_of_getElem? found] at without ⊢
      have some_trial : 0 < (Tally.of (attempts.take i ++ [.ok none])).trials := by
        rw [of_concat_ok]
        exact Nat.succ_pos _
      rw [emission, rejection]
      generalize Tally.of (attempts.take i ++ [.ok none]) = tally at without some_trial ⊢
      obtain ⟨trials, successes⟩ := tally
      obtain rfl : successes = 0 := without
      have trips := tripped_without_successes positive some_trial
      simp only [Option.map_none, trips, max_le_iff]
      simp only [show 1 ≤ trials from some_trial, true_and]

end Breaker

/-! ### Searches that end -/

/-- A search that ended with a candidate that was accepted, or because the breaker tripped. -/
def Ending.Decided {ε β : Type} (e : Ending ε β) : Prop :=
  (∃ v, e = .accepted v) ∨ ∃ t, e = .tripped t

namespace Breaker

variable {σ ε β : Type} {b : Breaker} {next : σ → Attempt ε β × σ}

/-- A search goes on after a candidate that is not accepted, unless the breaker trips. -/
theorem seek_rejected {s : σ} (rejected : (next s).1 = .ok none) {tally : Tally}
    (waits : b.tripped (tally.record false) = false) (patience : Nat) :
    b.seek next (patience + 1) tally s = b.seek next patience (tally.record false) (next s).2 := by
  obtain ⟨s', asked⟩ : ∃ s', next s = (.ok none, s') := ⟨_, Prod.ext rejected rfl⟩
  simp only [seek, asked, Option.isSome_none, waits, Bool.false_eq_true, if_false]

/-- One step of a search for which there is a candidate. -/
theorem seek_succ {s : σ} {image : Option β} (candidate : (next s).1 = .ok image) (patience : Nat)
    (tally : Tally) :
    (b.seek next (patience + 1) tally s).1.Decided ∨ image = none ∧
      b.tripped (tally.record false) = false ∧
      b.seek next (patience + 1) tally s =
        b.seek next patience (tally.record false) (next s).2 := by
  obtain ⟨s', asked⟩ : ∃ s', next s = (.ok image, s') := ⟨_, Prod.ext candidate rfl⟩
  by_cases trips : b.tripped (tally.record image.isSome) = true
  · simp only [seek, asked]
    rw [if_pos trips]
    exact .inl (.inr ⟨_, rfl⟩)
  · cases image with
    | some v =>
      simp only [seek, asked]
      rw [if_neg trips]
      exact .inl (.inl ⟨v, rfl⟩)
    | none =>
      have waits := Bool.eq_false_iff.mpr trips
      exact .inr ⟨rfl, waits, seek_rejected candidate waits patience⟩

/-- A search ends by any number of trials at which the breaker trips if none is accepted. -/
theorem decided_of_tripped (endless : ∀ s, ∃ image, (next s).1 = .ok image) {patience n : Nat}
    {tally : Tally} (later : tally.trials < n) (near : n ≤ tally.trials + patience)
    (trips : b.tripped ⟨n, tally.successes⟩ = true) (s : σ) :
    (b.seek next patience tally s).1.Decided := by
  induction patience generalizing tally s with
  | zero => omega
  | succ patience ih =>
    obtain ⟨image, candidate⟩ := endless s
    rcases seek_succ candidate patience tally with decided | ⟨_, waits, same⟩
    · exact decided
    · rw [same]
      -- The breaker did not trip at this candidate, so the trial at which it trips comes later.
      have further : (tally.record false).trials ≠ n := by
        rintro rfl
        rw [show tally.record false = ⟨(tally.record false).trials, tally.successes⟩ from rfl,
          trips] at waits
        cases waits
      have counted : (tally.record false).trials = tally.trials + 1 := rfl
      have still_later : (tally.record false).trials < n := by omega
      have still_near : n ≤ (tally.record false).trials + patience := by omega
      exact ih still_later still_near trips _

/-- A search ends by the first candidate that is accepted. -/
theorem decided_of_accepted (endless : ∀ s, ∃ image, (next s).1 = .ok image) {n : Nat} {s : σ}
    {a : Attempt ε β} (member : a ∈ attempts next n s) (accepted : a.accepted?.isSome = true)
    (tally : Tally) : (b.seek next n tally s).1.Decided := by
  induction n generalizing tally s with
  | zero => cases member
  | succ n ih =>
    obtain ⟨image, candidate⟩ := endless s
    rcases seek_succ candidate n tally with decided | ⟨rfl, _, same⟩
    · exact decided
    · rw [same]
      rcases List.mem_cons.mp member with rfl | member
      · rw [candidate] at accepted
        cases accepted
      · exact ih member _

/-- A search does not end while no candidate is accepted and the breaker does not trip. -/
theorem stalled_of_rejected (endless : ∀ s, ∃ image, (next s).1 = .ok image) {patience : Nat}
    {tally : Tally} {s : σ}
    (waits : ∀ n, tally.trials < n → n ≤ tally.trials + patience →
      b.tripped ⟨n, tally.successes⟩ = false)
    (rejected : ∀ a ∈ attempts next patience s, a.accepted? = none) :
    (b.seek next patience tally s).1 = .stalled := by
  induction patience generalizing tally s with
  | zero => rfl
  | succ patience ih =>
    obtain ⟨image, candidate⟩ := endless s
    obtain rfl : image = none := by
      have first := rejected _ List.mem_cons_self
      rwa [candidate] at first
    rw [seek_rejected candidate (waits _ (Nat.lt_succ_self _) (by omega))]
    refine ih (fun n later near => waits n ?_ ?_) fun a member =>
      rejected a (List.mem_cons_of_mem _ member)
    · exact Nat.lt_of_succ_lt later
    · rw [show (tally.record false).trials = tally.trials + 1 from rfl] at near
      omega

/-- **Which searches end by when.** A search has ended by a number of candidates exactly if one of
    them was accepted or the breaker trips at one of their trials for want of any acceptance. -/
theorem decided_iff (endless : ∀ s, ∃ image, (next s).1 = .ok image) (patience : Nat)
    (tally : Tally) (s : σ) :
    (b.seek next patience tally s).1.Decided ↔
      (∃ n, tally.trials < n ∧ n ≤ tally.trials + patience ∧
        b.tripped ⟨n, tally.successes⟩ = true) ∨
      ∃ a ∈ attempts next patience s, a.accepted?.isSome = true := by
  constructor
  · intro decided
    by_contra neither
    obtain ⟨untripped, none_accepted⟩ := not_or.mp neither
    have waits : ∀ n, tally.trials < n → n ≤ tally.trials + patience →
        b.tripped ⟨n, tally.successes⟩ = false := fun n later near =>
      Bool.eq_false_iff.mpr fun trips => untripped ⟨n, later, near, trips⟩
    have rejected : ∀ a ∈ attempts next patience s, a.accepted? = none := fun a member =>
      Option.not_isSome_iff_eq_none.mp fun accepted => none_accepted ⟨a, member, accepted⟩
    rw [stalled_of_rejected endless waits rejected] at decided
    rcases decided with ⟨_, ⟨⟩⟩ | ⟨_, ⟨⟩⟩
  · rintro (⟨n, later, near, trips⟩ | ⟨a, member, accepted⟩)
    · exact decided_of_tripped endless later near trips s
    · exact decided_of_accepted endless member accepted tally

end Breaker

namespace Config

open Binary64

variable {σ ε β : Type} {config : Config}

/-- A rate that settings may have is zero or positive. -/
theorem rate_of_valid (valid : config.fault? = none) :
    0 < config.minSuccessRate ∨
      value config.minSuccessRate = 0 ∧ config.minSuccessRate.isNaN = false := by
  have nonnegative : 0 ≤ config.minSuccessRate := by
    unfold fault? at valid
    split at valid
    · cases valid
    · split at valid
      · cases valid
      · rename_i inside
        simp only [Bool.not_eq_true, Bool.not_eq_false', Bool.and_eq_true,
          decide_eq_true_eq] at inside
        exact inside.1
  obtain ⟨numberZero, number⟩ := number_of_le nonnegative
  rw [lt_iff numberZero number, value_literal_zero]
  have := (le_iff numberZero number).mp nonnegative
  rw [value_literal_zero] at this
  exact this.lt_or_eq.imp_right fun same => ⟨same.symm, number⟩

/-- **Which searches end.** With settings that have no fault and a source that never runs out of
    candidates, a search has ended with an accepted candidate or a tripped breaker by a number of
    candidates exactly if one of them was accepted or the breaker trips at one of their trials with
    the earlier acceptances alone.  It ends at all exactly if the rate is positive or some candidate
    is accepted. -/
theorem seek_decided_iff (valid : config.fault? = none) {next : σ → Attempt ε β × σ}
    (endless : ∀ s, ∃ image, (next s).1 = .ok image) {tally : Tally}
    (small : tally.successes < 2 ^ 64) (s : σ) :
    (∀ patience, (config.breaker.seek next patience tally s).1.Decided ↔
        (∃ n, tally.trials < n ∧ n ≤ tally.trials + patience ∧
          config.breaker.tripped ⟨n, tally.successes⟩ = true) ∨
        ∃ a ∈ Breaker.attempts next patience s, a.accepted?.isSome = true) ∧
      ((∃ patience, (config.breaker.seek next patience tally s).1.Decided) ↔
        0 < config.minSuccessRate ∨
          ∃ n, ∃ a ∈ Breaker.attempts next n s, a.accepted?.isSome = true) := by
  have ends := fun patience => Breaker.decided_iff (b := config.breaker) endless patience tally s
  refine ⟨ends, ?_, ?_⟩
  · rintro ⟨patience, decided⟩
    rcases (ends patience).mp decided with ⟨n, _, _, trips⟩ | accepted
    · rcases rate_of_valid valid with positive | ⟨zero, number⟩
      · exact .inl positive
      · rw [Breaker.not_tripped_of_zero (b := config.breaker) zero number] at trips
        cases trips
    · exact .inr ⟨patience, accepted⟩
  · rintro (positive | ⟨patience, accepted⟩)
    · obtain ⟨n, later, trips⟩ :=
        Breaker.exists_tripped (b := config.breaker) positive small tally.trials
      have near : n ≤ tally.trials + (n - tally.trials) := by omega
      exact ⟨n - tally.trials, (ends _).mpr (.inl ⟨n, later, near, trips⟩)⟩
    · exact ⟨patience, (ends patience).mpr (.inr accepted)⟩

/-- With three trials before the breaker may trip, a search in which nothing is accepted ends by the
    third candidate. -/
theorem seek_decided_iff_rejecting :
    let config : Config := { standard with minTrials := 3 }
    let next : Unit → Attempt Unit Value × Unit := fun _ => (.ok none, ())
    config.fault? = none ∧ Tally.zero.successes < 2 ^ 64 ∧
      (∃ patience, (config.breaker.seek next patience .zero ()).1.Decided) ∧
      (config.breaker.seek next 3 .zero ()).1.Decided := by
  intro config next
  have valid : config.fault? = none := by decide
  have positive : 0 < config.minSuccessRate := by decide
  have endless : ∀ s, ∃ image, (next s).1 = .ok image := fun _ => ⟨none, rfl⟩
  have trips : config.breaker.tripped ⟨3, 0⟩ = true :=
    (Breaker.tripped_without_successes (b := config.breaker) positive (by decide)).mpr (by decide)
  have small : Tally.zero.successes < 2 ^ 64 := Nat.two_pow_pos 64
  obtain ⟨ends_by, ends⟩ := seek_decided_iff valid endless small ()
  have third := (ends_by 3).mpr (.inl ⟨3, by decide, by decide, trips⟩)
  exact ⟨valid, small, ends.mpr (.inl positive), third⟩

/-- The settings may have the rate zero, and then a schema that no value satisfies is searched for
    without end. -/
theorem exists_unending_search :
    let config : Config := { standard with minSuccessRate := 0 }
    let s : Schema := .node 1 (.effects (.node 0 .boolean) (.refinement (fun _ => false) "never"))
    config.fault? = none ∧
      ∃ monitor source,
        ((Compiler.withConfig config).inputOf s []).outcome = .ok (.monitored monitor source) ∧
        ∀ choices patience, ¬ (monitor.breaker.seek
          ((Draw.candidate monitor source.draw).run ⟨choices, fun _ => none, 2, patience⟩) patience
          .zero (.start 0)).1.Decided := by
  intro config s
  let monitor : Monitor := ⟨[], .root, config.breaker, .accepted s⟩
  let source : Strategy := .sample (.bool <$> Sampler.bool)
  refine ⟨by decide, monitor, source, rfl, fun choices patience => ?_⟩
  let around : Surroundings := ⟨choices, fun _ => none, 2, patience⟩
  have rejected : ∀ p, ((Draw.candidate monitor source.draw).run around p).1 = .ok none := by
    intro p
    obtain ⟨b, drawn⟩ : ∃ b, ((.bool <$> Sampler.bool : Sampler Value) choices p.question).1 =
      .bool b := ⟨_, rfl⟩
    rw [Draw.candidate, Draw.run_bind, Strategy.draw, Draw.run_sample]
    simp only [around, drawn, monitor, Draw.judge, Draw.run_bind, Draw.run_test]
    rfl
  have never : ∀ t, config.breaker.tripped t = false :=
    Breaker.not_tripped_of_zero (b := config.breaker) (by decide) (by decide)
  have none_accepted : ∀ a ∈ Breaker.attempts ((Draw.candidate monitor source.draw).run around)
      patience (.start 0), a.accepted? = none := by
    intro a member
    obtain ⟨p, rfl⟩ := Breaker.exists_of_mem_attempts member
    rw [rejected p]
    rfl
  rw [Breaker.stalled_of_rejected (fun p => ⟨none, rejected p⟩) (fun n _ _ => never _)
    none_accepted]
  rintro (⟨_, ⟨⟩⟩ | ⟨_, ⟨⟩⟩)

end Config

/-! ### Series of draws -/

namespace Draw

variable {monitor : Monitor} {source : Draw Value}

/-- Draws from a monitored strategy, each with its surroundings and the state that it starts in.
    What else is drawn in between is left open, but each draw finds the tally that the one before it
    left; the first finds the given one. -/
def Series (monitor : Monitor) (source : Draw Value) :
    Tally → List (Surroundings × Progress) → Prop
  | _, [] => True
  | tally, (around, p) :: rest =>
    p.memory.tally monitor.cell = tally ∧
      Series monitor source
        (((search monitor source).run around p).2.memory.tally monitor.cell) rest

/-- A series that goes on after other attempts comes to what a scan hands out after these. -/
theorem exists_tried_of_series {draws : List (Surroundings × Progress)}
    (before : List (Attempt Miss Value)) (series : Series monitor source (.of before) draws)
    (returned : ∀ d ∈ draws, ((search monitor source).run d.1 d.2).1 ≠ .error .stalled) :
    ∃ (tried : List (List (Attempt Miss Value))) (endings : List (Ending Miss Value)),
      List.Forall₂ (fun d attempts =>
        ∃ n, attempts = Breaker.attempts ((candidate monitor source).run d.1) (n + 1) d.2)
        draws tried ∧
      monitor.breaker.emissions (before ++ tried.flatten) =
        monitor.breaker.emissions before ++ endings ∧
      draws.map (fun d => ((search monitor source).run d.1 d.2).1) =
        endings.map (outcomeOf monitor.path) := by
  induction draws generalizing before with
  | nil => exact ⟨[], [], .nil, by simp, rfl⟩
  | cons d rest ih =>
    obtain ⟨around, p⟩ := d
    obtain ⟨start, series⟩ := series
    have here := returned (around, p) List.mem_cons_self
    simp only [run_search, start] at here series
    -- This draw hands out one ending, and the next one starts with the tally that it leaves.
    obtain ⟨n, emits, left⟩ := Breaker.seek_emits ((candidate monitor source).run around) before
      around.patience p fun stalled => here (congrArg (outcomeOf monitor.path) stalled)
    rw [Memory.tally_setTally, if_pos rfl, left] at series
    obtain ⟨tried, endings, each, further, results⟩ :=
      ih _ series fun d member => returned d (List.mem_cons_of_mem _ member)
    let ending := (monitor.breaker.seek ((candidate monitor source).run around) around.patience
      (.of before) p).1
    refine ⟨_ :: tried, ending :: endings, .cons ⟨n, rfl⟩ each, ?_, ?_⟩
    · rw [List.flatten_cons, ← List.append_assoc, further, emits, List.append_assoc,
        List.singleton_append]
    · rw [List.map_cons, List.map_cons, results, run_search, start]

/-- **The law of monitored strategies.** A series of draws that all return comes to what one scan of
    the candidates hands out, in order.  So no search is given up before the least number of
    candidates, each accepted candidate is handed out once unless the scan trips at it, and where
    nothing is accepted a positive rate has the scan trip at every candidate from that number on. -/
theorem series_emits {draws : List (Surroundings × Progress)}
    (series : Series monitor source .zero draws)
    (returned : ∀ d ∈ draws, ((search monitor source).run d.1 d.2).1 ≠ .error .stalled) :
    ∃ tried : List (List (Attempt Miss Value)),
      List.Forall₂ (fun d attempts =>
        ∃ n, attempts = Breaker.attempts ((candidate monitor source).run d.1) (n + 1) d.2)
        draws tried ∧
      let attempts := tried.flatten
      let emitted := monitor.breaker.emissions attempts
      draws.map (fun d => ((search monitor source).run d.1 d.2).1) =
        emitted.map (outcomeOf monitor.path) ∧
      (∀ t, .tripped t ∈ emitted → monitor.breaker.minTrials ≤ t.trials) ∧
      emitted.filterMap Ending.accepted? =
        ((List.range attempts.length).filterMap fun i =>
          if monitor.breaker.tripped (.of (attempts.take (i + 1))) then none
          else attempts[i]?.bind Attempt.accepted?) ∧
      (0 < monitor.breaker.minSuccessRate → (∀ a ∈ attempts, a.accepted? = none) →
        emitted = (List.range attempts.length).filterMap fun i =>
          attempts[i]?.bind
            (monitor.breaker.rejection (Tally.of (attempts.take (i + 1))).trials)) := by
  obtain ⟨tried, endings, each, emits, results⟩ := exists_tried_of_series [] series returned
  have all : monitor.breaker.emissions tried.flatten = endings := emits
  refine ⟨tried, each, ?_, fun t => Breaker.le_trials_of_tripped_mem, Breaker.accepted_emissions,
    Breaker.emissions_of_none_accepted⟩
  rw [results, all]

/-- Two draws from sets without elements where one element is asked for: a breaker that may trip at
    once does so at the first candidate and, in the second draw, at the second. -/
theorem series_emits_rejected :
    let monitor : Monitor := ⟨[], .root, ⟨1, 0.5⟩, .sized 1⟩
    let source : Draw Value := pure (.set [])
    let around : Surroundings := ⟨fun _ _ => 0, fun _ => none, 1, 1⟩
    let draws := [(around, .start 0), (around, ((search monitor source).run around (.start 0)).2)]
    let results := draws.map fun d => ((search monitor source).run d.1 d.2).1
    Series monitor source .zero draws ∧
      results =
        [.error (.refused (.infeasible .root 1 0)), .error (.refused (.infeasible .root 2 0))] ∧
      ∃ tried : List (List (Attempt Miss Value)),
        results = (monitor.breaker.emissions tried.flatten).map (outcomeOf .root) := by
  intro monitor source around draws results
  have series : Series monitor source .zero draws := ⟨rfl, rfl, trivial⟩
  have refused : ∀ p n, p.memory.tally [] = ⟨n, 0⟩ →
      ((search monitor source).run around p).1 = .error (.refused (.infeasible .root (n + 1) 0)) ∧
        ((search monitor source).run around p).2.memory.tally [] = ⟨n + 1, 0⟩ := by
    intro p n start
    have trips : monitor.breaker.tripped ⟨n + 1, 0⟩ = true :=
      (Breaker.tripped_without_successes (by decide) n.succ_pos).mpr n.succ_pos
    have found : monitor.breaker.seek ((candidate monitor source).run around) 1 ⟨n, 0⟩ p =
        (.tripped ⟨n + 1, 0⟩, ⟨n + 1, 0⟩, p) := Breaker.seek_of_tripped rfl trips 0
    rw [run_search, start, found]
    exact ⟨rfl, (Memory.tally_setTally _ _ _ _).trans (if_pos rfl)⟩
  have first := refused (.start 0) 0 rfl
  have same : results =
      [.error (.refused (.infeasible .root 1 0)), .error (.refused (.infeasible .root 2 0))] :=
    congrArg₂ (fun a b => [a, b]) first.1 (refused _ 1 first.2).1
  have returned : ∀ d ∈ draws, ((search monitor source).run d.1 d.2).1 ≠ .error .stalled := by
    intro d member stalled
    have listed : Except.error Miss.stalled ∈ results := List.mem_map.mpr ⟨d, member, stalled⟩
    rw [same] at listed
    simp at listed
  obtain ⟨tried, _, scanned, _⟩ := series_emits series returned
  exact ⟨series, same, tried, scanned⟩

end Draw

end SchemaSampler
