import SchemaSampler.Proofs.Strategy.Output

namespace SchemaSampler

/-!
# Origins — which inputs outputs are made of

Whatever overrides there are, a search for an output draws inputs one after the other, so what it
comes to was made of one of the inputs that are drawn with the same choices (`Draw.seek_origin`).  A
schema that keeps its input is not searched for: its outputs are its inputs, and they are accepted
only if they were built for the schema and not put in its place (`Schema.CompilesIn.yields_kept`).
-/

open Parsed

variable {around : Surroundings} {s : Schema}

/-! ### Searches -/

namespace Draw

variable {A : Cell → Prop} {source : Draw Value} {p q : Progress}

/-- A value is what a test in the course of a search made of one of the values that a source comes
    to when it is drawn from again and again. -/
def MadeOf (source : Draw Value) (around : Surroundings) (p : Progress) (s : Schema) (cell : Cell)
    (w : Value) : Prop :=
  ∃ k v n, (source.run around (source.after around p k)).1 = .ok v ∧
    s.parse around.definitions around.depth [.trial cell n] v = some (.ok w)

/-- A search goes through draws from its source, and what it comes to was made of one of them. -/
theorem seek_origin {monitor : Monitor} (lawful : source.Local A around)
    (foreign : ¬ A monitor.cell) (output : monitor.acceptance = .parsed s) (patience : Nat)
    (tally : Tally) {k : Nat} (agree : (source.after around p k).AgreesOn A q) :
    let found := monitor.breaker.seek (run (candidate monitor source) around) patience tally q
    (∃ k', (source.after around p k').AgreesOn A found.2.2) ∧
      ∀ w, found.1 = .accepted w → MadeOf source around p s monitor.cell w := by
  induction patience generalizing tally k q with
  | zero =>
    refine ⟨⟨k, agree⟩, ?_⟩
    rintro w ⟨⟩
  | succ patience ih =>
    -- A candidate of the search is the next draw from the source, whatever came of the others.
    obtain ⟨tried, agree'⟩ := tries lawful foreign output agree
    change (source.after around p (k + 1)).AgreesOn A _ at agree'
    unfold Breaker.seek
    rcases hq : run (candidate monitor source) around q with ⟨image? | image?, q'⟩ <;>
      rw [hq] at tried agree' <;> simp only
    · refine ⟨⟨k + 1, agree'⟩, ?_⟩
      rintro w ⟨⟩
    · split
      · refine ⟨⟨k + 1, agree'⟩, ?_⟩
        rintro w ⟨⟩
      · cases image? with
        | none => exact ih _ agree'
        | some image =>
          refine ⟨⟨k + 1, agree'⟩, ?_⟩
          rintro w ⟨⟩
          generalize drawn : (source.run around (source.after around p k)).1 = outcome at tried
          cases tried with
          | made returns => exact ⟨k, _, _, drawn, returns⟩

theorem search_origin {monitor : Monitor} (lawful : source.Local A around)
    (foreign : ¬ A monitor.cell) (output : monitor.acceptance = .parsed s) {k : Nat}
    (agree : (source.after around p k).AgreesOn A q) :
    (∃ k', (source.after around p k').AgreesOn A ((search monitor source).run around q).2) ∧
      ∀ w, ((search monitor source).run around q).1 = .ok w →
        MadeOf source around p s monitor.cell w := by
  obtain ⟨⟨k', agree'⟩, made⟩ := seek_origin lawful foreign output around.patience
    (q.memory.tally monitor.cell) agree
  rw [run_search]
  exact ⟨⟨k', agree'.setTally_right foreign _ _⟩,
    fun w drawn => made w (accepted_of_outcomeOf drawn)⟩

/-- The state after any number of searches is that after some number of draws from the source. -/
theorem after_origin (monitor : Monitor) (p : Progress) (lawful : source.Local A around)
    (foreign : ¬ A monitor.cell) (output : monitor.acceptance = .parsed s) (count : Nat) :
    ∃ k, (source.after around p k).AgreesOn A ((search monitor source).after around p count) := by
  induction count with
  | zero => exact ⟨0, .refl A _⟩
  | succ count ih =>
    obtain ⟨k, agree⟩ := ih
    exact (search_origin lawful foreign output agree).1

end Draw

/-! ### Schemas that keep their input -/

namespace Schema

variable {config : Config} {resolver : Resolver} {cell : Cell} {strategy : Strategy}
  {definitions : Definitions} {P : Shape Schema → Prop} {id : SchemaId} {shape : Shape Schema}

/-- A test against a schema that keeps its input comes to no other schema. -/
theorem eq_of_reaches_of_keepsInput {t : Schema} (keeps : s.keepsInput = true)
    (reached : Reaches definitions s t) : t = s := by
  induction reached with
  | self => rfl
  | @child id shape t reached child ih =>
    subst ih
    exact absurd child (children_of_keepsInput keeps ▸ List.not_mem_nil)
  | definition reached named ih =>
    subst ih
    cases keeps

theorem throughout_of_keepsInput (keeps : s.keepsInput = true) (here : P s.shape) :
    Throughout definitions P s := by
  intro id shape reached
  obtain rfl := eq_of_reaches_of_keepsInput keeps reached
  exact here

theorem everywhere_of_keepsInput (keeps : s.keepsInput = true) (here : P s.shape) :
    s.Everywhere P := by
  obtain ⟨id, shape⟩ := s
  exact .node id here fun t child =>
    absurd child (children_of_keepsInput keeps ▸ List.not_mem_nil)

/-- Overrides of other schemas make no difference to a schema that keeps its input. -/
theorem CompilesIn.without_overrides (keeps : s.keepsInput = true) (free : resolver s.id = none)
    (compiles : s.CompilesIn config resolver cell strategy) :
    s.CompilesIn config Resolver.empty cell strategy := by
  obtain ⟨path, compiled⟩ := compiles
  refine ⟨path, ?_⟩
  obtain ⟨id, shape⟩ := s
  rw [compileInput_free (show resolver id = none from free)] at compiled
  rw [compileInput_free (show Resolver.empty id = none from rfl)]
  cases shape <;> first | exact compiled | cases keeps

/-- What is drawn for a schema that keeps its input is made to itself by some test, or breaks the tests
    off.  Values written into the schema are accepted wherever they are tested; all others are free
    of functions. -/
theorem CompilesIn.yields_kept (keeps : s.keepsInput = true)
    (regular : s.shape.Regular around.definitions)
    (compiles : s.CompilesIn config Resolver.empty cell strategy) :
    strategy.draw.Yields around fun v =>
      (∃ site depth, s.parse around.definitions depth site v = some (.ok v)) ∨
        s.Overflows around.definitions v := by
  obtain ⟨id, shape⟩ := s
  -- Literals and members of enumerations may hold functions, so no site is fresh for their schemas.
  by_cases written : (∃ v, shape = .literal v) ∨ ∃ members, shape = .nativeEnum members
  · rcases written with ⟨v, rfl⟩ | ⟨members, rfl⟩
    · cases compiles.assembles
      refine Strategy.yields_just (.inl ⟨[], 1, parse_eq_ok_iff.mpr ?_⟩)
      exact congrArg some (if_pos (Value.beq_self v))
    · cases compiles.assembles with
      | nativeEnum among =>
        refine (yields_among among).imp fun v member => .inl ⟨[], 1, parse_eq_ok_iff.mpr ?_⟩
        obtain ⟨m, hm, rfl⟩ := List.mem_map.mp member
        exact congrArg some (if_pos (List.any_eq_true.mpr ⟨m, hm, Value.beq_self m.2⟩))
  · have supported : shape.SupportedBy (Identity.Before [.branch 0]) := by
      cases shape <;> first
        | trivial
        | exact absurd (.inl ⟨_, rfl⟩) written
        | exact absurd (.inr ⟨_, rfl⟩) written
    have distinct : shape.DistinctNames := by
      cases shape <;> trivial
    have fresh : FreshAt around.definitions [.branch 0] (.node id shape) :=
      ⟨⟨by simp, by simp⟩, throughout_of_keepsInput keeps supported⟩
    refine (compiles.yields_suits (everywhere_of_keepsInput keeps regular)
      (everywhere_of_keepsInput keeps distinct)).imp fun v suited => ?_
    exact (suited.parse_eq_self keeps fresh).imp_left fun made => ⟨_, made⟩

end Schema

/-! ### Compilers -/

namespace Compiler

variable {c : Compiler} {cell : Cell} {output : Strategy} {calls : Nat}

/-- **Outputs come from inputs.** Whatever overrides there are, every output that is drawn is what
    the schema makes of an input that is drawn with the same choices.  The outputs of a schema that
    keeps its input are not tested: it is excepted where it is overridden itself, where its latest
    date lies inside of a leap second, and for a big integer whose tests break off. -/
theorem outputOf_origin (compiled : (c.compile (calls + 1) .output s cell).outcome = .ok output)
    (private_cell : c.Within (· ≠ 0 :: cell))
    (built : s.keepsInput = true →
      c.overrides.resolve? s.id = none ∧ s.shape.Regular around.definitions) :
    ∃ input, (c.compile (calls + 1) .input s cell).outcome = .ok input ∧
      ∀ serial number w, output.drawn around serial number = .ok w →
        (∃ k v site depth, input.drawn around serial k = .ok v ∧
          s.parse around.definitions depth site v = some (.ok w)) ∨
        s.keepsInput ∧ s.Overflows around.definitions w := by
  obtain ⟨input, compiledInput⟩ := exists_inputs compiled
  refine ⟨input, compiledInput, fun serial number w drawn => ?_⟩
  rw [outputs_eq compiledInput] at compiled
  split at compiled
  · -- What is drawn is not tested here, so its origin is itself if a test would accept it.
    rename_i keeps
    cases compiled
    obtain ⟨free, regular⟩ := built keeps
    have compiles := (compilesIn_of_inputs compiledInput).without_overrides keeps
      (resolverWith_eq_none free _)
    refine (compiles.yields_kept keeps regular _ w drawn).imp ?_ fun overflows => ⟨keeps, overflows⟩
    rintro ⟨site, depth, result⟩
    exact ⟨number, w, site, depth, drawn, result⟩
  · cases compiled
    have lawful : input.draw.Local (· ≠ 0 :: cell) around := by
      refine ((inputs_within private_cell compiledInput).mono fun other own => ?_).local
      refine own.elim (fun owned same => ?_) id
      exact Cell.not_owns_zero cell (same ▸ owned)
    have foreign : ¬ (0 :: cell ≠ 0 :: cell) := fun differs => differs rfl
    obtain ⟨k, agree⟩ := Draw.after_origin ⟨0 :: cell, .root, c.config.breaker, .parsed s⟩
      (.start serial) lawful foreign rfl number
    obtain ⟨k', v, n, drawn', result⟩ := (Draw.search_origin lawful foreign rfl agree).2 w drawn
    exact .inl ⟨k', v, _, _, drawn', result⟩

/-- A schema that puts truth values into arrays, with an override for the truth values: the outputs
    are arrays of the override's values. -/
theorem outputOf_origin_singleton :
    let inner : Schema := .node 0 .boolean
    let s : Schema := .node 1 (.effects inner (.transform Mapping.singleton.apply))
    let c := (withConfig .standard).withOverride inner (.ready (.just (.bool true)))
    let around : Surroundings := ⟨fun _ _ => 0, fun _ => none, 2, 1⟩
    ∃ input output, (c.inputOf s []).outcome = .ok input ∧ (c.outputOf s []).outcome = .ok output ∧
      output.drawn around 0 1 = .ok (.array [.bool true]) ∧
      ∃ k v site depth, input.drawn around 0 k = .ok v ∧
        s.parse around.definitions depth site v = some (.ok (.array [.bool true])) := by
  intro inner s c around
  have private_cell : c.Within (· ≠ [0]) := by
    intro id replacement registered
    obtain ⟨entry, found, rfl⟩ := Option.map_eq_some_iff.mp registered
    obtain rfl := List.mem_singleton.mp (List.mem_of_find?_eq_some found)
    exact .ready (.sample _)
  have compiled : (c.outputOf s []).outcome = .ok _ := rfl
  obtain ⟨input, compiledInput, origin⟩ := outputOf_origin compiled private_cell (by rintro ⟨⟩)
  refine ⟨input, _, compiledInput, compiled, rfl, (origin 0 1 _ rfl).resolve_right ?_⟩
  exact fun ⟨keeps, _⟩ => nomatch keeps

/-- The outputs of a schema that keeps its input and is overridden are not tested: a text that is
    too short is an output, and the schema makes it of no value. -/
theorem exists_output_without_origin :
    let s : Schema := .node 0 (.string [.minLength 3])
    let c := (withConfig .standard).withOverride s (.ready (.just (.string "x")))
    let around : Surroundings := ⟨fun _ _ => 0, fun _ => none, 1, 1⟩
    ∃ output, (c.outputOf s []).outcome = .ok output ∧
      output.drawn around 0 0 = .ok (.string "x") ∧
      ∀ depth site v, s.parse around.definitions depth site v ≠ some (.ok (.string "x")) := by
  intro s c around
  refine ⟨_, rfl, rfl, fun depth site v result => ?_⟩
  obtain rfl := Schema.eq_of_keepsInput rfl result
  cases depth with
  | zero => cases result
  | succ depth => cases result

end Compiler

end SchemaSampler
