import SchemaSampler.Proofs.Lists
import SchemaSampler.Proofs.Strategy.Compiled

namespace SchemaSampler

/-!
# Cells — which memory a strategy has

A compiler names memory after its way through the schema: a node has the cell it is compiled in, its
inner schemas have those one step further in that are numbered from one, and the cell with the
number zero is left for the test of outputs.

* `Strategy.Within` — a strategy has no memory outside of a set of cells.
* `Override.Within` — an override brings no memory of its own from outside of a set of cells.
* `Schema.CompilesIn.within` — the strategy of a schema stays within the cells of the schema and
  those of overriding strategies.
* `Recipe.follow_within` — so does what a factory makes of strategies that do.
* `Compiler.inputs_within` — so does the strategy of inputs, with nested factories.
-/

/-! ### The cells of a node -/

/-- The cell of a node, or one of those of its inner schemas. -/
def Cell.Owns (cell other : Cell) : Prop := other = cell ∨ ∃ k, 0 < k ∧ (k :: cell) <:+ other

theorem Cell.owns_self (cell : Cell) : cell.Owns cell := Or.inl rfl

/-- The cells further in than that of an inner schema belong to the node. -/
theorem Cell.owns_of_suffix {cell other : Cell} {k : Nat} (positive : 0 < k)
    (h : (k :: cell) <:+ other) : cell.Owns other :=
  Or.inr ⟨k, positive, h⟩

/-- The cells of an inner schema belong to the node. -/
theorem Cell.Owns.of_child {cell other : Cell} {k : Nat} (positive : 0 < k)
    (h : Cell.Owns (k :: cell) other) : cell.Owns other := by
  refine Cell.owns_of_suffix positive ?_
  rcases h with rfl | ⟨j, _, inner⟩
  · exact List.suffix_refl _
  · exact (List.suffix_cons j (k :: cell)).trans inner

/-- The cells of a node lie behind its own. -/
theorem Cell.Owns.suffix {cell other : Cell} (h : cell.Owns other) : cell <:+ other := by
  rcases h with rfl | ⟨k, _, inner⟩
  · exact List.suffix_refl _
  · exact (List.suffix_cons k cell).trans inner

/-- The cell for the test of outputs does not belong to the node. -/
theorem Cell.not_owns_zero (cell : Cell) : ¬ cell.Owns (0 :: cell) := by
  rintro (same | ⟨k, positive, inner⟩)
  · exact absurd (congrArg List.length same) (by simp)
  · have same := inner.eq_of_length (by simp)
    have first := (List.cons.inj same).1
    omega

/-! ### Strategies -/

/-- All memory of a strategy lies in a set of cells. -/
inductive Strategy.Within (A : Cell → Prop) : Strategy → Prop where
  | sample (sampler : Sampler Value) : Within A (.sample sampler)
  | symbol : Within A .symbol
  | cycle {cell : Cell} {values : List Value} (own : A cell) : Within A (.cycle cell values)
  | array {item : Strategy} {min max : Nat} (h : Within A item) : Within A (.array item min max)
  | set {item : Strategy} {min max : Nat} (h : Within A item) : Within A (.set item min max)
  | object {fields : List (String × Strategy)} (h : ∀ f ∈ fields, Within A f.2) :
      Within A (.object fields)
  | tuple {slots : List Strategy} {rest : Option Strategy} {maxExtra : Nat}
      (h : ∀ slot ∈ slots, Within A slot) (h' : ∀ further, rest = some further → Within A further) :
      Within A (.tuple slots rest maxExtra)
  | record {key value : Strategy} {max : Nat} (h : Within A key) (h' : Within A value) :
      Within A (.record key value max)
  | map {key value : Strategy} {max : Nat} (h : Within A key) (h' : Within A value) :
      Within A (.map key value max)
  | function {result : Strategy} (h : Within A result) : Within A (.function result)
  | promise {inner : Strategy} (h : Within A inner) : Within A (.promise inner)
  | union {options : List (Nat × Strategy)} (h : ∀ option ∈ options, Within A option.2) :
      Within A (.union options)
  | monitored {monitor : Monitor} {source : Strategy} (own : A monitor.cell)
      (h : Within A source) : Within A (.monitored monitor source)
  | derived {source : Strategy} {next : Value → Strategy} (h : Within A source)
      (h' : ∀ v, Within A (next v)) : Within A (.derived source next)

namespace Strategy

variable {A B : Cell → Prop} {strategy : Strategy}

theorem Within.mono (h : strategy.Within A) (more : ∀ cell, A cell → B cell) :
    strategy.Within B := by
  induction h with
  | sample sampler => exact .sample sampler
  | symbol => exact .symbol
  | cycle own => exact .cycle (more _ own)
  | array _ ih => exact .array ih
  | set _ ih => exact .set ih
  | object _ ih => exact .object ih
  | tuple _ _ ih ih' => exact .tuple ih ih'
  | record _ _ ih ih' => exact .record ih ih'
  | map _ _ ih ih' => exact .map ih ih'
  | function _ ih => exact .function ih
  | promise _ ih => exact .promise ih
  | union _ ih => exact .union ih
  | monitored own _ ih => exact .monitored (more _ own) ih
  | derived _ _ ih ih' => exact .derived ih ih'

theorem within_oneOf {options : List Strategy} (h : ∀ option ∈ options, option.Within A) :
    (oneOf options).Within A := by
  refine .union fun option member => ?_
  obtain ⟨strategy, hstrategy, rfl⟩ := List.mem_map.mp member
  exact h strategy hstrategy

theorem within_among {kind : Kind} {values : List Value}
    (h : Strategy.among kind values = .ok strategy) : strategy.Within A := by
  cases values with
  | nil => cases h
  | cons first others =>
    cases h
    exact .sample _

end Strategy

section Settings

variable {A : Cell → Prop} {config : Config} {cell : Cell} {path : Path}

theorem within_settle {s : Schema} {c : Candidate} (own : A cell) :
    (config.settle cell path s c).Within A := by
  unfold Config.settle
  split
  · exact .sample _
  · exact .monitored own (.sample _)

theorem within_withAbsent {present : Strategy} {absent : Value} (h : present.Within A) :
    (config.withAbsent present absent).Within A := by
  unfold Config.withAbsent
  split
  · exact h
  · refine .union fun option member => ?_
    rcases List.mem_pair.mp member with rfl | rfl
    · exact h
    · exact .sample _

end Settings

/-! ### Compilation -/

/-- A builder gives strategies with no memory outside of the cells behind its own and a set. -/
def Builder.Within (A : Cell → Prop) (build : Builder) : Prop :=
  ∀ cell path strategy, (build cell path).outcome = .ok strategy →
    strategy.Within fun c => cell <:+ c ∨ A c

/-- The strategy of a schema has the memory of the schema and that of overriding strategies. -/
theorem Schema.CompilesIn.within {A : Cell → Prop} {config : Config} {resolver : Resolver}
    {cell : Cell} {s : Schema} {strategy : Strategy}
    (overriding : ∀ id build, resolver id = some build → build.Within A)
    (compiles : s.CompilesIn config resolver cell strategy) :
    strategy.Within fun c => cell.Owns c ∨ A c := by
  induction s using Schema.induction generalizing cell strategy with
  | node id shape ih =>
    have own : cell.Owns cell ∨ A cell := Or.inl (Cell.owns_self cell)
    have below : ∀ {t : Schema} {strategy : Strategy}, t ∈ shape.children →
        t.CompilesBelow config resolver cell strategy →
        strategy.Within fun c => cell.Owns c ∨ A c :=
      fun child ⟨k, positive, h⟩ =>
        (ih _ child h).mono fun _ => Or.imp_left (Cell.Owns.of_child positive)
    rcases compiles.node with ⟨build, overridden, k, path, positive, built⟩ | ⟨_, assembled⟩
    · refine (overriding id build overridden _ _ _ built).mono fun c => Or.imp_left ?_
      exact Cell.owns_of_suffix positive
    · cases assembled with
      | string | number | bigint | date => exact within_settle own
      | boolean | undefined | void | null | nan | any | unknown | literal => exact .sample _
      | symbol => exact .symbol
      | enumeration among | nativeEnum among => exact Strategy.within_among among
      | array inner => exact .array (below (by simp [Shape.children]) inner)
      | set inner => exact .set (below (by simp [Shape.children]) inner)
      | setAtLeast path inner =>
        exact .monitored own (.set (below (by simp [Shape.children]) inner))
      | object inner =>
        refine .object fun f member => ?_
        obtain ⟨field, hfield, _, h⟩ := exists_of_mem_right inner member
        exact below (List.mem_map_of_mem hfield) h
      | tuple inner others =>
        refine .tuple (fun slot member => ?_) fun further same => ?_
        · obtain ⟨t, ht, h⟩ := exists_of_mem_right inner member
          exact below (List.mem_append_left _ ht) h
        · subst same
          cases others with
          | some h => exact below (by simp [Shape.children]) h
      | record keys values =>
        exact .record (below (by simp [Shape.children]) keys)
          (below (by simp [Shape.children]) values)
      | map keys values =>
        exact .map (below (by simp [Shape.children]) keys) (below (by simp [Shape.children]) values)
      | union inner =>
        refine Strategy.within_oneOf fun option member => ?_
        obtain ⟨t, ht, h⟩ := exists_of_mem_right inner member
        exact below ht h
      | discriminatedUnion tags inner =>
        refine Strategy.within_oneOf fun option member => ?_
        obtain ⟨t, selected, h⟩ := exists_of_mem_right inner member
        obtain ⟨_, _, found⟩ := List.mem_filterMap.mp selected
        exact below (List.mem_of_getElem? found) h
      | function inner => exact .function (below (by simp [Shape.children]) inner)
      | promise inner => exact .promise (below (by simp [Shape.children]) inner)
      | optional inner | nullable inner | default inner =>
        exact within_withAbsent (below (by simp [Shape.children]) inner)
      | caught inner =>
        refine Strategy.within_oneOf fun option member => ?_
        rcases List.mem_pair.mp member with rfl | rfl
        · exact below (by simp [Shape.children]) inner
        · exact .sample _
      | effects path inner | pipeline path inner =>
        exact .monitored own (below (by simp [Shape.children]) inner)
      | branded inner | readonly inner => exact below (by simp [Shape.children]) inner

/-! ### Overrides -/

/-- What a recipe puts together has the memory of its parts, and else only some in a set of cells.  The
    overrides that it registers have a property `P`. -/
inductive Recipe.Within {O : Type} (P : O → Prop) (A : Cell → Prop) :
    {built : Nat} → Recipe O built → Prop where
  | give {built : Nat} {assemble : Vector Strategy built → Strategy}
      (h : ∀ B : Cell → Prop, (∀ cell, A cell → B cell) →
        ∀ strategies, (∀ strategy ∈ strategies, strategy.Within B) → (assemble strategies).Within B) :
      Within P A (.give assemble)
  | stop {built : Nat} (reason : Stop) : Within P A (.stop reason : Recipe O built)
  | inspect {built : Nat} {next : Config → Nat → Recipe O built}
      (h : ∀ config overridden, Within P A (next config overridden)) : Within P A (.inspect next)
  | compile {built : Nat} {settings : Option Config} {registrations : List (SchemaId × O)}
      {mode : Mode} {schema : Schema} {next : Recipe O (built + 1)}
      {otherwise : Failure → Recipe O built} (registered : ∀ entry ∈ registrations, P entry.2)
      (h : Within P A next) (h' : ∀ failure, Within P A (otherwise failure)) :
      Within P A (.compile settings registrations mode schema next otherwise)

/-- An override brings no memory of its own from outside of a set of cells. -/
inductive Override.Within (A : Cell → Prop) : Override → Prop where
  | ready {strategy : Strategy} (h : strategy.Within A) : Within A (.ready strategy)
  | factory {recipe : Recipe Override 0} (h : recipe.Within (Within A) A) :
      Within A (.factory recipe)

/-- A factory that has one schema compiled brings no memory of its own. -/
theorem Override.within_forward (A : Cell → Prop) (schema : Schema) (mode : Mode) :
    (Override.factory (.forward schema mode)).Within A :=
  .factory (.compile (by simp) (.give fun _ _ _ parts => parts _ (by simp)) fun _ => .stop _)

/-- No override of a compiler brings memory of its own from outside of a set of cells. -/
def Compiler.Within (A : Cell → Prop) (c : Compiler) : Prop :=
  ∀ id replacement, c.overrides.resolve? id = some replacement → replacement.Within A

/-- What a compiler resolves a schema to was registered when it was derived or before. -/
theorem Compiler.resolve?_derive {c : Compiler} {settings : Option Config}
    {registrations : List (SchemaId × Override)} {id : SchemaId} {replacement : Override}
    (found : (c.derive settings registrations).overrides.resolve? id = some replacement) :
    (∃ entry ∈ registrations, entry.2 = replacement) ∨
      c.overrides.resolve? id = some replacement := by
  obtain ⟨entry, first, same⟩ := Option.map_eq_some_iff.mp found
  obtain rfl := same
  change (registrations ++ _).find? _ = _ at first
  rw [List.find?_append, Option.or_eq_some_iff] at first
  rcases first with first | ⟨-, first⟩
  · exact .inl ⟨entry, List.mem_of_find?_eq_some first, rfl⟩
  · cases settings with
    | none => exact .inr (Option.map_eq_some_iff.mpr ⟨entry, first, rfl⟩)
    | some config => cases first

/-- Registrations that bring no memory of their own can be added. -/
theorem Compiler.Within.derive {A : Cell → Prop} {c : Compiler} (h : c.Within A)
    (settings : Option Config) {registrations : List (SchemaId × Override)}
    (registered : ∀ entry ∈ registrations, entry.2.Within A) :
    (c.derive settings registrations).Within A := by
  intro id replacement found
  rcases Compiler.resolve?_derive found with ⟨entry, member, rfl⟩ | found
  · exact registered entry member
  · exact h id replacement found

/-- What a compilation comes to has memory behind the given cell and in a set of cells only, if the
    overrides of the compiler bring no other. -/
def Compilation.Within (A : Cell → Prop) (compile : Compilation) : Prop :=
  ∀ c : Compiler, c.Within A → ∀ mode schema cell strategy,
    (compile c mode schema cell).outcome = .ok strategy →
    strategy.Within fun other => cell <:+ other ∨ A other

/-- Following a recipe, parts with memory behind a cell come to a strategy that has no other. -/
theorem Recipe.follow_within {A : Cell → Prop} {c : Compiler} {compile : Compilation}
    {cell : Cell} {built number : Nat} {recipe : Recipe Override built}
    {strategies : Vector Strategy built} {strategy : Strategy} (own : c.Within A)
    (compiles : compile.Within A) (within : recipe.Within (Override.Within A) A)
    (parts : ∀ part ∈ strategies, part.Within fun other => cell <:+ other ∨ A other)
    (followed : (recipe.follow c compile cell number strategies).outcome = .ok strategy) :
    strategy.Within fun other => cell <:+ other ∨ A other := by
  induction recipe generalizing number with
  | give assemble =>
    cases followed
    cases within with
    | give h => exact h _ (fun _ => Or.inr) strategies parts
  | stop reason => cases followed
  | inspect next ih =>
    cases within with
    | inspect h => exact ih _ _ (h _ _) parts followed
  | compile settings registrations mode schema next otherwise ih ih' =>
    cases within with
    | compile registered h h' =>
      rw [Recipe.follow] at followed
      obtain ⟨tried, compiled, followed⟩ := Compiled.bind_ok followed
      cases tried with
      | error failure => exact ih' failure (h' failure) parts followed
      | ok part =>
        refine ih h (fun other member => ?_) followed
        rcases Vector.mem_push.mp member with member | rfl
        · exact parts other member
        · refine (compiles _ (own.derive settings registered) _ _ _ _
            (Compiled.attempt_ok compiled)).mono fun other => Or.imp_left ?_
          exact (List.suffix_cons number cell).trans

namespace Compiler

variable {A : Cell → Prop} {c : Compiler} {cell : Cell} {strategy : Strategy} {s : Schema}

/-- Overrides are built with memory behind the cell or of their own. -/
theorem resolverWith_within {compile : Compilation} (own : c.Within A)
    (compiles : compile.Within A) :
    ∀ id build, c.resolverWith compile id = some build → build.Within A := by
  intro id build found
  obtain ⟨replacement, registered, rfl⟩ := Option.map_eq_some_iff.mp found
  intro cell path strategy built
  cases own id replacement registered with
  | ready h =>
    cases built
    exact h.mono fun _ => Or.inr
  | factory h => exact Recipe.follow_within own compiles h (by simp) built

/-- The strategy of a schema in either mode has its memory behind the cell it is built in. -/
theorem compileMode_within {config : Config} {resolver : Resolver} {mode : Mode}
    (overriding : ∀ id build, resolver id = some build → build.Within A)
    (built : (compileMode config resolver mode s cell .root).outcome = .ok strategy) :
    strategy.Within fun other => cell <:+ other ∨ A other := by
  obtain ⟨input, hinput, built⟩ := Compiled.bind_ok built
  have compiles : s.CompilesIn config resolver cell input := ⟨.root, hinput⟩
  have within : input.Within fun other => cell <:+ other ∨ A other :=
    (compiles.within overriding).mono fun _ => Or.imp_left Cell.Owns.suffix
  cases mode with
  | input =>
    cases built
    exact within
  | output =>
    simp only at built
    split at built
    · cases built
      exact within
    · cases built
      exact .monitored (Or.inl (List.suffix_cons 0 cell)) within

/-- Compilations stay within the cells behind the given one, however deep they are nested. -/
theorem compile_within (calls : Nat) : (compile calls).Within A := by
  induction calls with
  | zero =>
    intro c own mode s cell strategy compiled
    cases compiled
  | succ calls ih =>
    intro c own mode s cell strategy compiled
    exact compileMode_within (resolverWith_within own ih) compiled

/-- The strategy of a schema's inputs is compiled with the overrides of the compiler. -/
theorem compilesIn_of_inputs {calls : Nat}
    (h : (c.compile (calls + 1) .input s cell).outcome = .ok strategy) :
    s.CompilesIn c.config (c.resolverWith (compile calls)) cell strategy := by
  obtain ⟨input, hinput, h⟩ := Compiled.bind_ok h
  cases h
  exact ⟨.root, hinput⟩

/-- The strategy of a schema's inputs stays clear of the cell for the test of outputs. -/
theorem inputs_within {calls : Nat} (own : c.Within A)
    (compiled : (c.compile (calls + 1) .input s cell).outcome = .ok strategy) :
    strategy.Within fun other => cell.Owns other ∨ A other :=
  (compilesIn_of_inputs compiled).within (resolverWith_within own (compile_within calls))

end Compiler

end SchemaSampler
