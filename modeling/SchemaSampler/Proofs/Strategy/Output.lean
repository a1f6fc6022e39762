import SchemaSampler.Proofs.Parse.Idempotence
import SchemaSampler.Proofs.Strategy.Accepted
import SchemaSampler.Proofs.Strategy.Breaker
import SchemaSampler.Proofs.Strategy.Locality

namespace SchemaSampler

/-!
# Outputs — what a schema makes of the values drawn for it

Outputs are drawn by testing drawn inputs, in a search of their own, except where the schema keeps
its input.  The memory of the search is none of the memory of the inputs (`Strategy.Within.local`),
so a run of draws of outputs replays a run of draws of inputs.

* `Draw.tries` — one candidate of the search is one draw of an input and its test.
* `Strategy.drawn_replays` — where no candidate is refused, the search ends with its first one.
* `Schema.Suits.parse_eq_self` — a schema that keeps its input makes each drawn value to itself.
-/

open Parsed

variable {around : Surroundings} {s : Schema}

/-! ### Runs -/

/-- The state after a number of draws, one after the other. -/
def Draw.after {α : Type} (d : Draw α) (around : Surroundings) (p : Progress) :
    (count : Nat) → Progress
  | 0 => p
  | count + 1 => (d.run around (d.after around p count)).2

/-- The outcome of one of the draws from a strategy that are made one after the other.  The first
    of them, with the number 0, is made without any memory and with the first free serial number. -/
def Strategy.drawn (strategy : Strategy) (around : Surroundings) (serial number : Nat) :
    Except Miss Value :=
  (strategy.draw.run around (strategy.draw.after around (.start serial) number)).1

/-! ### Candidates -/

/-- How a candidate for an output follows from the draw of an input. -/
inductive Tries (around : Surroundings) (s : Schema) (cell : Cell) :
    Except Miss Value → Except Miss (Option Value) → Prop where
  /-- There was no input. -/
  | missed (miss : Miss) : Tries around s cell (.error miss) (.error miss)
  /-- The schema made something of the input. -/
  | made {v w : Value} {n : Nat}
      (returns : s.parse around.definitions around.depth [.trial cell n] v = some (.ok w)) :
      Tries around s cell (.ok v) (.ok (some w))
  /-- The schema did not accept the input. -/
  | refused {v : Value} {n : Nat} {e : ParseError}
      (returns : s.parse around.definitions around.depth [.trial cell n] v = some (.error e)) :
      Tries around s cell (.ok v) (.ok none)
  /-- The test of the input did not come to an end. -/
  | untested {v : Value} {n : Nat}
      (unending : s.parse around.definitions around.depth [.trial cell n] v = none) :
      Tries around s cell (.ok v) (.error .stalled)

namespace Draw

variable {A : Cell → Prop} {source : Draw Value} {monitor : Monitor} {p q : Progress}

/-- A candidate for an output is a drawn input with its test. -/
theorem tries (lawful : source.Local A around) (foreign : ¬ A monitor.cell)
    (output : monitor.acceptance = .parsed s) (agree : p.AgreesOn A q) :
    Tries around s monitor.cell (source.run around p).1
        ((candidate monitor source).run around q).1 ∧
      (source.run around p).2.AgreesOn A ((candidate monitor source).run around q).2 := by
  obtain ⟨same, agree⟩ := lawful p q agree
  rw [candidate, output, run_bind]
  rcases hp : source.run around p with ⟨miss | v, p'⟩ <;>
    rcases hq : source.run around q with ⟨miss' | v', q'⟩ <;>
    rw [hp, hq] at same agree <;> cases same
  · exact ⟨.missed miss, agree⟩
  · show Tries around s monitor.cell (.ok v) (run (judge monitor.cell (.parsed s) v) around q').1 ∧
      Progress.AgreesOn A p' (run (judge monitor.cell (.parsed s) v) around q').2
    rw [judge, run_bind, run_test]
    have agree' := agree.setTurn_right foreign (q'.memory.turn monitor.cell + 1)
    cases tested : s.parse around.definitions around.depth
        [.trial monitor.cell (q'.memory.turn monitor.cell)] v with
    | none => exact ⟨.untested tested, agree'⟩
    | some outcome =>
      cases outcome with
      | ok w => exact ⟨.made tested, agree'⟩
      | error e => exact ⟨.refused tested, agree'⟩

end Draw

/-! ### Searches that never reject -/

/-- A tally without rejections. -/
def Tally.Full (t : Tally) : Prop := t.successes = t.trials

theorem Tally.Full.eq {t : Tally} (h : t.Full) : t = ⟨t.trials, t.trials⟩ := by
  obtain ⟨trials, successes⟩ := t
  exact congrArg (Tally.mk trials) h

theorem Tally.full_zero : Tally.zero.Full := rfl

theorem Tally.Full.record {t : Tally} (h : t.Full) : (t.record true).Full := congrArg (· + 1) h

/-- How a draw of an output goes along with the draw of an input: it fails alike, or it is what the
    test made of the input, or it stalls because the test did not come to an end. -/
inductive Replays (around : Surroundings) (s : Schema) (cell : Cell) :
    Except Miss Value → Except Miss Value → Prop where
  | missed (miss : Miss) : Replays around s cell (.error miss) (.error miss)
  | made {v w : Value} {n : Nat}
      (returns : s.parse around.definitions around.depth [.trial cell n] v = some (.ok w)) :
      Replays around s cell (.ok v) (.ok w)
  | untested {v : Value} {n : Nat}
      (unending : s.parse around.definitions around.depth [.trial cell n] v = none) :
      Replays around s cell (.ok v) (.error .stalled)

namespace Draw

variable {A : Cell → Prop} {source : Draw Value} {monitor : Monitor} {p q : Progress}

/-- Where all drawn inputs are accepted, an output is drawn by drawing one input. -/
theorem search_replays (lawful : source.Local A around) (foreign : ¬ A monitor.cell)
    (output : monitor.acceptance = .parsed s) (rate : monitor.breaker.minSuccessRate ≤ 1)
    (patient : 0 < around.patience)
    (accepted : source.Yields around fun v => ∀ n outcome,
      s.parse around.definitions around.depth [.trial monitor.cell n] v = some outcome →
        ∃ w, outcome = .ok w)
    (agree : p.AgreesOn A q) (full : (q.memory.tally monitor.cell).Full) :
    Replays around s monitor.cell (source.run around p).1
        ((search monitor source).run around q).1 ∧
      (source.run around p).2.AgreesOn A ((search monitor source).run around q).2 ∧
      (((search monitor source).run around q).2.memory.tally monitor.cell).Full := by
  obtain ⟨patience, enough⟩ : ∃ less, around.patience = less + 1 := ⟨around.patience - 1, by omega⟩
  obtain ⟨tried, agree'⟩ := tries lawful foreign output agree
  have given := accepted p
  rw [run_search, enough, Breaker.seek]
  rcases hp : source.run around p with ⟨drawn, p'⟩
  rcases hq : (candidate monitor source).run around q with ⟨candidate?, q'⟩
  rw [hp, hq] at tried agree'
  rw [hp] at given
  -- one candidate decides, and it adds no rejection to the tally
  have kept (log : List Event) {t : Tally} (ht : t.Full) :
      Progress.AgreesOn A p' { q' with memory := q'.memory.setTally monitor.cell t, log := log } ∧
        ((q'.memory.setTally monitor.cell t).tally monitor.cell).Full := by
    refine ⟨agree'.setTally_right foreign t log, ?_⟩
    rw [Memory.tally_setTally, if_pos rfl]
    exact ht
  cases tried with
  | missed miss => exact ⟨.missed miss, kept _ full⟩
  | untested unending => exact ⟨.untested unending, kept _ full⟩
  | refused returns =>
    obtain ⟨w, same⟩ := given _ rfl _ _ returns
    cases same
  | made returns =>
    have steady : monitor.breaker.tripped ((q.memory.tally monitor.cell).record true) = false := by
      have untripped := Breaker.not_tripped_of_full rate
        ((q.memory.tally monitor.cell).record true).trials
      rwa [← full.record.eq] at untripped
    simp only [Option.isSome_some, steady, Bool.false_eq_true, if_false]
    exact ⟨.made returns, kept _ full.record⟩

/-- A run of outputs goes along with the run of inputs, draw by draw. -/
theorem after_replays (lawful : source.Local A around) (foreign : ¬ A monitor.cell)
    (output : monitor.acceptance = .parsed s) (rate : monitor.breaker.minSuccessRate ≤ 1)
    (patient : 0 < around.patience)
    (accepted : source.Yields around fun v => ∀ n outcome,
      s.parse around.definitions around.depth [.trial monitor.cell n] v = some outcome →
        ∃ w, outcome = .ok w)
    (serial count : Nat) :
    (source.after around (.start serial) count).AgreesOn A
        ((search monitor source).after around (.start serial) count) ∧
      (((search monitor source).after around (.start serial) count).memory.tally
        monitor.cell).Full := by
  induction count with
  | zero => exact ⟨.refl A _, Tally.full_zero⟩
  | succ count ih =>
    exact (search_replays lawful foreign output rate patient accepted ih.1 ih.2).2

end Draw

/-- Where all drawn inputs are accepted, each draw of an output goes along with the draw of an input
    that has the same number. -/
theorem Strategy.drawn_replays {input : Strategy} (monitor : Monitor) {A : Cell → Prop}
    (within : input.Within A) (foreign : ¬ A monitor.cell) (output : monitor.acceptance = .parsed s)
    (rate : monitor.breaker.minSuccessRate ≤ 1) (patient : 0 < around.patience)
    (accepted : input.draw.Yields around fun v => ∀ n outcome,
      s.parse around.definitions around.depth [.trial monitor.cell n] v = some outcome →
        ∃ w, outcome = .ok w)
    (serial number : Nat) :
    Replays around s monitor.cell (input.drawn around serial number)
      ((Strategy.monitored monitor input).drawn around serial number) := by
  have lawful : input.draw.Local A around := within.local
  obtain ⟨agree, full⟩ :=
    Draw.after_replays lawful foreign output rate patient accepted serial number
  exact (Draw.search_replays lawful foreign output rate patient accepted agree full).1

/-- A test in the course of a search and one outside of it end alike. -/
theorem Schema.Suits.parse_eq_none_iff {site : Site} {v : Value}
    (suited : s.Suits around.definitions v) (fresh : s.FreshAt around.definitions site)
    (cell : Cell) (n depth : Nat) :
    s.parse around.definitions depth [.trial cell n] v = none ↔
      s.parse around.definitions depth site v = none := by
  obtain ⟨ρ, _, alike⟩ := fresh.trial_alike (suited.supported fresh) cell n
  have moved := alike depth
  unfold parse
  rw [Option.map_eq_none_iff, Option.map_eq_none_iff]
  generalize parseWithin around.definitions depth [.trial cell n] s v = inSearch at moved
  generalize parseWithin around.definitions depth site s v = outside at moved
  cases moved <;> simp

/-- What a test in the course of a search makes of a value, one outside of it makes, too, but for
    the identities of functions that it wraps. -/
theorem Schema.Suits.parse_outside {site : Site} {v w : Value}
    (suited : s.Suits around.definitions v) (fresh : s.FreshAt around.definitions site)
    {cell : Cell} {n depth : Nat}
    (returns : s.parse around.definitions depth [.trial cell n] v = some (.ok w)) :
    ∃ ρ : Renaming, (∀ i, Identity.Before site i → ρ.apply i = i) ∧
      s.parse around.definitions depth site v = some (.ok (w.rename ρ)) := by
  obtain ⟨ρ, keeps, alike⟩ := fresh.trial_alike (suited.supported fresh) cell n
  refine ⟨ρ, keeps, parse_eq_ok_iff.mpr ?_⟩
  exact (rel_alike_ok_iff (alike depth)).mpr ⟨w, parse_eq_ok_iff.mp returns, rfl⟩

/-- What the draw of an output comes to that goes along with the draw of an input. -/
theorem Replays.follows {site : Site} {cell : Cell} {input output : Except Miss Value}
    (h : Replays around s cell input output) (fresh : s.FreshAt around.definitions site)
    (suits : ∀ v, input = .ok v → s.Suits around.definitions v) :
    (∀ failure, output = .error (.refused failure) ↔ input = .error (.refused failure)) ∧
      (∀ v, input = .ok v →
        (∃ w ρ depth, output = .ok w ∧
          (∀ i, Identity.Before site i → Renaming.apply ρ i = i) ∧
          s.parse around.definitions depth site v = some (.ok (w.rename ρ))) ∨
        output = .error .stalled ∧ s.parse around.definitions around.depth site v = none) ∧
      (input = .error .stalled → output = .error .stalled) := by
  cases h with
  | missed miss =>
    refine ⟨fun _ => Iff.rfl, ?_, id⟩
    rintro v ⟨⟩
  | @made v w n returns =>
    refine ⟨fun _ => by simp, ?_, by simp⟩
    rintro _ ⟨⟩
    obtain ⟨ρ, keeps, result⟩ := (suits v rfl).parse_outside fresh returns
    exact .inl ⟨w, ρ, _, rfl, keeps, result⟩
  | @untested v n unending =>
    refine ⟨fun _ => by simp, ?_, fun _ => rfl⟩
    rintro _ ⟨⟩
    exact .inr ⟨rfl, ((suits v rfl).parse_eq_none_iff fresh cell n _).mp unending⟩

/-! ### Schemas that keep their input -/

namespace Schema

variable {definitions : Definitions} {depth : Nat} {site : Site} {v w : Value}

theorem scalar_of_keepsInput (keeps : s.keepsInput = true) : s.shape.Scalar ∧ s.shape.Stable := by
  obtain ⟨id, shape⟩ := s
  cases shape <;> first | exact ⟨trivial, trivial⟩ | cases keeps | skip
  case string checks =>
    refine ⟨trivial, fun check member => ?_⟩
    simpa using List.any_eq_false.mp (Bool.not_eq_true' _ ▸ keeps) check member

/-- A schema that keeps its input makes nothing else of it. -/
theorem eq_of_keepsInput (keeps : s.keepsInput = true)
    (returns : s.parse definitions depth site v = some (.ok w)) : w = v := by
  obtain ⟨scalar, stable⟩ := scalar_of_keepsInput keeps
  obtain ⟨id, shape⟩ := s
  cases depth with
  | zero => cases returns
  | succ depth => exact (Shape.step_scalar scalar stable (parse_eq_ok_iff.mp returns)).1

theorem children_of_keepsInput (keeps : s.keepsInput = true) : s.shape.children = [] := by
  obtain ⟨id, shape⟩ := s
  cases shape <;> first | rfl | cases keeps

/-- The tests against a schema that keeps its input end, unless a remainder overflows. -/
theorem ends_of_keepsInput (keeps : s.keepsInput = true) (overflowFree : s.shape.OverflowFree) :
    s.Ends definitions := by
  obtain ⟨id, shape⟩ := s
  have lazyFree : shape.LazyFree := by
    cases shape <;> trivial
  exact ends_of_children lazyFree overflowFree fun t child =>
    absurd child (children_of_keepsInput keeps ▸ List.not_mem_nil)

/-- A value is tested to the end against a schema that keeps its input, or breaks the tests off. -/
theorem answers_or_overflows (keeps : s.keepsInput = true) (site : Site) (v : Value) :
    (∃ depth out, parseWithin definitions depth site s v = some out) ∨ s.Overflows definitions v := by
  obtain ⟨id, shape⟩ := s
  cases shape
  case bigint checks =>
    exact (bigint_answers_or_overflows definitions id checks v).imp (fun answers => ⟨1, answers 0 site⟩)
      And.right
  all_goals exact .inl (ends_of_keepsInput keeps trivial site v)

/-- A value that suits a schema which keeps its input is made to itself, unless a remainder
    overflows. -/
theorem Suits.parse_eq_self (suited : s.Suits definitions v) (keeps : s.keepsInput = true)
    (fresh : s.FreshAt definitions site) :
    (∃ depth, s.parse definitions depth site v = some (.ok v)) ∨ s.Overflows definitions v := by
  refine (answers_or_overflows keeps site v).imp_left ?_
  rintro ⟨depth, out, returns⟩
  obtain ⟨w, rfl, _⟩ := suited.accepts site fresh depth out returns
  have result := parse_eq_ok_iff.mpr returns
  rw [eq_of_keepsInput keeps result] at result
  exact ⟨depth, result⟩

end Schema

/-! ### Compilers -/

namespace Compiler

open Bigint

variable {c : Compiler} {config : Config} {cell : Cell} {input output : Strategy} {calls : Nat}

/-- What the strategy of a schema's outputs is, given that of its inputs. -/
theorem outputs_eq (compiled : (c.compile (calls + 1) .input s cell).outcome = .ok input) :
    (c.compile (calls + 1) .output s cell).outcome = .ok (if s.keepsInput then input
      else c.config.monitor (0 :: cell) .root (.parsed s) input) := by
  obtain ⟨input', hinput, same⟩ := Compiled.bind_ok compiled
  cases same
  show (compileMode _ _ .output s cell .root).outcome = _
  rw [compileMode, Compiled.outcome_bind hinput]
  simp only
  split <;> rfl

/-- Outputs are drawn from inputs. -/
theorem exists_inputs (compiled : (c.compile (calls + 1) .output s cell).outcome = .ok output) :
    ∃ input, (c.compile (calls + 1) .input s cell).outcome = .ok input := by
  obtain ⟨input, hinput, _⟩ := Compiled.bind_ok compiled
  refine ⟨input, ?_⟩
  show (compileMode _ _ .input s cell .root).outcome = _
  rw [compileMode, Compiled.outcome_bind hinput]
  rfl

/-- **Outputs follow inputs.** Without overrides, and where breakers ask for a rate of at most one,
    the draw of an output is refused if and only if the draw of an input with the same number and
    the same choices is, and then alike.  Otherwise the output is what the schema makes of the
    input, but for the identities of functions wrapped in the test.  (It stalls if the draw of the
    input does, or if the test of the input is cut off by the bound on the depth or by an overflow.)
    Only where outputs are not tested, because the schema keeps what it accepts, a big integer comes
    out whose tests break off. -/
theorem outputOf_follows {site : Site} (rate : config.minSuccessRate ≤ 1)
    (compiled : ((withConfig config).outputOf s cell).outcome = .ok output)
    (regular : s.Everywhere (Shape.Regular around.definitions))
    (distinct : s.Everywhere Shape.DistinctNames) (fresh : s.FreshAt around.definitions site)
    (patient : 0 < around.patience) :
    ∃ input, ((withConfig config).inputOf s cell).outcome = .ok input ∧
      ∀ serial number,
        (∀ failure, output.drawn around serial number = .error (.refused failure) ↔
          input.drawn around serial number = .error (.refused failure)) ∧
        (∀ v, input.drawn around serial number = .ok v →
          (∃ w ρ depth, output.drawn around serial number = .ok w ∧
            (∀ i, Identity.Before site i → Renaming.apply ρ i = i) ∧
            s.parse around.definitions depth site v = some (.ok (w.rename ρ))) ∨
          output.drawn around serial number = .error .stalled ∧
            s.parse around.definitions around.depth site v = none ∨
          output.drawn around serial number = .ok v ∧ s.keepsInput ∧
            s.Overflows around.definitions v) ∧
        (input.drawn around serial number = .error .stalled →
          output.drawn around serial number = .error .stalled) := by
  obtain ⟨input, compiledInput⟩ : ∃ input, ((withConfig config).inputOf s cell).outcome = .ok input :=
    exists_inputs compiled
  refine ⟨input, compiledInput, fun serial number => ?_⟩
  replace compiled := (outputs_eq compiledInput).symm.trans compiled
  have suits : input.draw.Yields around (s.Suits around.definitions) :=
    (Schema.CompilesIn.of_inputOf compiledInput).yields_suits regular distinct
  split at compiled
  · rename_i keeps
    cases compiled
    refine ⟨fun failure => Iff.rfl, fun v drawn => ?_, id⟩
    have suited := suits _ v drawn
    rcases suited.parse_eq_self keeps fresh with ⟨depth, result⟩ | overflows
    · have unmoved : v.rename Renaming.refl = v := suited.supported fresh _ fun _ _ => rfl
      exact .inl ⟨v, Renaming.refl, depth, drawn, fun _ _ => rfl, by rw [unmoved, result]⟩
    · exact .inr (.inr ⟨drawn, keeps, overflows⟩)
  · cases compiled
    have own : (withConfig config).Within fun _ => False := fun _ _ found => by cases found
    have within := inputs_within own compiledInput
    have accepted : input.draw.Yields around fun v => ∀ n outcome,
        s.parse around.definitions around.depth [.trial (0 :: cell) n] v = some outcome →
          ∃ w, outcome = .ok w := by
      refine suits.imp fun v suited n outcome returns => ?_
      obtain ⟨out, within, rfl⟩ := Option.map_eq_some_iff.mp returns
      obtain ⟨w, rfl, _⟩ := suited.passes_trial fresh (0 :: cell) n _ out within
      exact ⟨w, rfl⟩
    have replays := Strategy.drawn_replays ⟨0 :: cell, .root, config.breaker, .parsed s⟩
      (within.mono fun _ own => own.resolve_right id) (Cell.not_owns_zero cell) rfl rate patient
      accepted serial number
    obtain ⟨refused, made, stalled⟩ := replays.follows fresh (suits _)
    exact ⟨refused, fun v drawn => (made v drawn).imp_right .inl, stalled⟩

/-- A schema that puts truth values into arrays: its outputs are the arrays of its inputs. -/
theorem outputOf_follows_singleton :
    let s : Schema := .node 1 (.effects (.node 0 .boolean) (.transform Mapping.singleton.apply))
    let around : Surroundings := ⟨fun _ _ => 0, fun _ => none, 2, 1⟩
    Config.standard.minSuccessRate ≤ 1 ∧
      ∃ input output, ((withConfig .standard).inputOf s []).outcome = .ok input ∧
        ((withConfig .standard).outputOf s []).outcome = .ok output ∧
        input.drawn around 0 1 = .ok (.bool false) ∧
        ∃ w ρ depth, output.drawn around 0 1 = .ok w ∧
          s.parse around.definitions depth [.branch 0] (.bool false) = some (.ok (w.rename ρ)) := by
  intro s around
  have rate : Config.standard.minSuccessRate ≤ 1 := by decide
  have everywhere : ∀ P : Shape Schema → Prop, P s.shape → P .boolean → s.Everywhere P := by
    intro P top bottom
    refine .node 1 top fun t child => ?_
    obtain rfl := List.mem_singleton.mp child
    exact .node 0 bottom fun t child => absurd child List.not_mem_nil
  have fresh : s.FreshAt around.definitions [.branch 0] := by
    refine ⟨⟨by simp, by simp⟩, (everywhere _ ?_ trivial).throughout (by simp [around])⟩
    exact fun ρ keeps v => Mapping.apply_rename (m := .singleton) trivial ρ keeps v
  have compiled : ((withConfig .standard).outputOf s []).outcome = .ok _ := rfl
  have patient : 0 < around.patience := Nat.one_pos
  obtain ⟨input, compiledInput, follows⟩ := outputOf_follows rate compiled
    (everywhere _ trivial trivial) (everywhere _ trivial trivial) fresh patient
  cases compiledInput
  refine ⟨rate, _, _, rfl, compiled, rfl, ?_⟩
  rcases (follows 0 1).2.1 (.bool false) rfl with
    ⟨w, ρ, depth, output, _, result⟩ | ⟨_, unending⟩ | ⟨_, keeps, _⟩
  · exact ⟨w, ρ, depth, output, result⟩
  · cases unending
  · cases keeps

/-- Two schemas have outputs that are not what they make of their inputs.  The least big integer comes
    out although its test breaks off under a step of minus one.  Of a member that is declared twice,
    inputs have the value that was drawn last, and the breaker of the outputs trips over them. -/
theorem exists_output_apart :
    let number : Schema :=
      .node 0 (.bigint [.min least true, .max (least + 1) true, .multipleOf (-1)])
    let twice : Schema := .node 2 (.object [("a", .node 0 .boolean), ("a", .node 1 .null)] .strip)
    let config : Config := { Config.standard with minTrials := 1 }
    let around : Surroundings := ⟨fun _ _ => 0, fun _ => none, 2, 1⟩
    (∃ input output, ((withConfig config).inputOf number []).outcome = .ok input ∧
      ((withConfig config).outputOf number []).outcome = .ok output ∧
      input.drawn around 0 0 = .ok (.bigint least) ∧
      output.drawn around 0 0 = .ok (.bigint least) ∧
      ∀ depth site w,
        number.parse around.definitions depth site (.bigint least) ≠ some (.ok w)) ∧
    ∃ input output, ((withConfig config).inputOf twice []).outcome = .ok input ∧
      ((withConfig config).outputOf twice []).outcome = .ok output ∧
      input.drawn around 0 0 = .ok (.object [("a", .null)]) ∧
      output.drawn around 0 0 = .error (.refused (.infeasible .root 1 0)) := by
  intro number twice config around
  have trips : config.breaker.tripped ⟨1, 0⟩ = true := by decide
  refine ⟨⟨_, _, rfl, rfl, rfl, rfl, ?_⟩, _, _, rfl, rfl, rfl, ?_⟩
  · rintro (_ | depth) site w ⟨⟩
  · -- The candidate with the last of the two members is rejected, and the breaker trips at it.
    let monitor : Monitor := ⟨[0], .root, config.breaker, .parsed twice⟩
    let source := (Strategy.object [("a", .sample (.bool <$> Sampler.bool)), ("a", .just .null)]).draw
    have rejected : ((Draw.candidate monitor source).run around (.start 0)).1 = .ok none := rfl
    have found : (config.breaker.seek ((Draw.candidate monitor source).run around) 1 .zero
        (.start 0)).1 = .tripped ⟨1, 0⟩ :=
      congrArg Prod.fst (Breaker.seek_of_tripped (Prod.ext rejected rfl) trips 0)
    show ((Draw.search monitor source).run around (.start 0)).1 = _
    rw [Draw.run_search]
    exact congrArg (Draw.outcomeOf .root) found

end Compiler

end SchemaSampler
