import SchemaSampler.Strategy.Compile

namespace SchemaSampler

/-!
# Compilers — settings and overrides

A compiler is never changed: registering an override gives a new one.  A factory among the
overrides may have the compiler, or one derived from it, compile further schemas from their
outermost nodes.  Such compilations can nest without end, so their depth is bounded: whatever bound
a compilation ends with, it comes to the same with all greater ones.  Where no factory derives a
compiler, the number of registrations is bound enough.
-/

/-- The strategy of a schema in either mode.  What a schema makes of its input is drawn by testing
    drawn inputs, except where it is the input itself. -/
def compileMode (config : Config) (resolver : Resolver) (mode : Mode) (schema : Schema) : Builder :=
  fun cell path => do
    let input ← compileInput config resolver schema cell path
    match mode with
    | .input => pure input
    | .output =>
      if schema.keepsInput then pure input
      else pure (config.monitor (0 :: cell) path (.parsed schema) input)

/-- Settings and overrides. -/
structure Compiler where
  /-- The settings. -/
  config : Config
  /-- The overrides. -/
  overrides : Overrides

namespace Compiler

/-- A compiler without overrides. -/
def withConfig (config : Config) : Compiler := ⟨config, .empty⟩

/-- The compiler with one more override. -/
def withOverride (c : Compiler) (schema : Schema) (replacement : Override) : Compiler :=
  { c with overrides := c.overrides.register schema.id replacement }

/-- A compiler derived by further registrations, the latest first, from this one or, if there are
    settings, from a new one with these. -/
def derive (c : Compiler) (settings : Option Config) (registrations : List (SchemaId × Override)) :
    Compiler :=
  let start := settings.elim c withConfig
  { start with overrides := ⟨registrations ++ start.overrides.entries⟩ }

end Compiler

/-- Has a compiler compile a schema, whose node has a cell. -/
abbrev Compilation := Compiler → Mode → Schema → Cell → Compiled Strategy

/-- Follows a recipe that a compiler has got from a factory, with the compilations it asks for.  Each
    of these has cells of its own behind that of the overridden node: their numbers go on from
    `number`. -/
def Recipe.follow (c : Compiler) (compile : Compilation) (cell : Cell) :
    {built : Nat} → Recipe Override built → (number : Nat) → Vector Strategy built →
      Compiled Strategy
  | _, .give assemble, _, strategies => pure (assemble strategies)
  | _, .stop reason, _, _ => Compiled.stop reason
  | _, .inspect next, number, strategies =>
    follow c compile cell (next c.config c.overrides.count) number strategies
  | _, .compile settings registrations mode schema next otherwise, number, strategies => do
    match ← (compile (c.derive settings registrations) mode schema (number :: cell)).attempt with
    | .ok strategy => follow c compile cell next (number + 1) (strategies.push strategy)
    | .error failure => follow c compile cell (otherwise failure) (number + 1) strategies

namespace Compiler

/-- Builds the strategy of an override.  A factory is not told where the overridden node stands. -/
def build (c : Compiler) (compile : Compilation) : Override → Builder
  | .ready strategy => fun _ _ => pure strategy
  | .factory recipe => fun cell _ => recipe.follow c compile cell 0 #v[]

/-- The builders of overridden schemas. -/
def resolverWith (c : Compiler) (compile : Compilation) : Resolver :=
  fun id => (c.overrides.resolve? id).map (c.build compile)

/-- The strategy of a schema, with compilations nested at most `calls` deep. -/
def compile : (calls : Nat) → Compilation
  | 0 => fun _ _ _ _ => Compiled.stop .endless
  | calls + 1 => fun c mode schema cell =>
    compileMode c.config (c.resolverWith (compile calls)) mode schema cell .root

/-- The strategy of the values that a schema accepts or makes. -/
def strategyOf (c : Compiler) (mode : Mode) (schema : Schema) (cell : Cell) : Compiled Strategy :=
  compile (c.overrides.entries.length + 1) c mode schema cell

/-- The strategy of the values that a schema accepts. -/
def inputOf (c : Compiler) (schema : Schema) (cell : Cell) : Compiled Strategy :=
  c.strategyOf .input schema cell

/-- The strategy of the values that a schema makes of those it accepts. -/
def outputOf (c : Compiler) (schema : Schema) (cell : Cell) : Compiled Strategy :=
  c.strategyOf .output schema cell

/-- The structural text of a compiler. -/
def display (c : Compiler) : String :=
  "Compiler \x7b config: " ++ c.config.display ++ ", overrides: " ++
    toString c.overrides.count ++ " \x7d"

end Compiler

end SchemaSampler
