import SchemaSampler.Schema.Tags
import SchemaSampler.Strategy.AnyValue
import SchemaSampler.Strategy.BigintCandidate
import SchemaSampler.Strategy.Config
import SchemaSampler.Strategy.DateCandidate
import SchemaSampler.Strategy.Event
import SchemaSampler.Strategy.NumberCandidate
import SchemaSampler.Strategy.Override
import SchemaSampler.Strategy.TextCandidate

namespace SchemaSampler

/-!
# Compiling — the strategy of a schema

A `Compiler` walks a schema once.  At every node it first looks for an override; without one it
builds the strategy of the node from those of its inner schemas.  What cannot be built to fit is
filtered: the strategy is monitored against the schema.

The walk goes by recursion on the schema and takes the builders of overridden nodes from a
`Resolver`.
-/

/-! ### Results with a report -/

/-- A result or the reason why there is none, and the events reported on the way. -/
structure Compiled (α : Type) where
  /-- The events, in order. -/
  log : List Event
  /-- The result. -/
  outcome : Except Stop α

namespace Compiled

/-- A result without events. -/
protected def pure {α : Type} (a : α) : Compiled α := ⟨[], .ok a⟩

/-- Goes on with a result. -/
protected def bind {α β : Type} (x : Compiled α) (f : α → Compiled β) : Compiled β :=
  match x.outcome with
  | .ok a => ⟨x.log ++ (f a).log, (f a).outcome⟩
  | .error e => ⟨x.log, .error e⟩

instance : Monad Compiled where
  pure := Compiled.pure
  bind := Compiled.bind

/-- Reports an event. -/
def report (e : Event) : Compiled Unit := ⟨[e], .ok ()⟩

/-- No result. -/
def stop {α : Type} (s : Stop) : Compiled α := ⟨[], .error s⟩

/-- No result, because a schema contradicts itself. -/
def contradiction {α : Type} (path : Path) (reason : Contradiction) : Compiled α :=
  stop (.failed (.invalid path reason))

/-- No result if the program breaks off. -/
def abortIf (broken : Bool) : Compiled Unit := if broken then stop .aborted else pure ()

/-- A result or a failure, whichever a computation came to; its events stay reported. -/
def attempt {α : Type} (x : Compiled α) : Compiled (Except Failure α) :=
  match x.outcome with
  | .ok a => ⟨x.log, .ok (.ok a)⟩
  | .error (.failed failure) => ⟨x.log, .ok (.error failure)⟩
  | .error reason => ⟨x.log, .error reason⟩

/-- The result of a computation that may find a contradiction. -/
def lift {α : Type} (path : Path) : Except Contradiction α → Compiled α
  | .ok a => pure a
  | .error reason => contradiction path reason

end Compiled

/-! ### Parts of strategies -/

/-- Builds the strategy of a schema whose node has a cell and stands at a path. -/
abbrev Builder := Cell → Path → Compiled Strategy

/-- The builders of overridden schemas, by identity. -/
abbrev Resolver := SchemaId → Option Builder

namespace Config

/-- The breaker of all monitors. -/
def breaker (config : Config) : Breaker := ⟨config.minTrials, config.minSuccessRate⟩

/-- A strategy filtered by a monitor. -/
def monitor (config : Config) (cell : Cell) (path : Path) (acceptance : Acceptance)
    (source : Strategy) : Strategy :=
  .monitored ⟨cell, path, config.breaker, acceptance⟩ source

/-- The strategy of a candidate, filtered unless the candidate is exact. -/
def settle (config : Config) (cell : Cell) (path : Path) (schema : Schema) (c : Candidate) :
    Strategy :=
  if c.exact then .sample c.sampler
  else config.monitor cell path (.accepted schema) (.sample c.sampler)

/-- Whether a choice between present and absent values is refused: it takes positive weights with a
    sum of at most 32 bits. -/
def refusesWeights (config : Config) : Bool :=
  config.absentWeight ≠ 0 &&
    (config.presentWeight = 0 || config.presentWeight + config.absentWeight ≥ Nat.pow 2 32)

/-- A strategy that now and then gives a value for absence. -/
def withAbsent (config : Config) (present : Strategy) (absent : Value) : Strategy :=
  if config.absentWeight = 0 then present
  else .union [(config.presentWeight, present), (config.absentWeight, .just absent)]

/-- Whether the sum that stands in for a missing upper bound breaks the compilation off.  It is
    computed in any case. -/
def sizeOverflows (config : Config) (bounds : SizeBounds) : Bool :=
  config.checked && bounds.min.getD 0 + config.maxExtraLength ≥ wordSize

/-- The least and the greatest number of elements of a collection. -/
def sizeRange (config : Config) (bounds : SizeBounds) : Except Contradiction (Nat × Nat) :=
  let min := bounds.min.getD 0
  let max := bounds.max.getD ((min + config.maxExtraLength) % wordSize)
  if max < min then .error (.sizes max min) else .ok (min, max)

end Config

/-- A choice among values, which must not be empty. -/
def Strategy.among (kind : Kind) : List Value → Except Contradiction Strategy
  | [] => .error (.emptyChoice kind.typeName)
  | first :: others => .ok (.select first others)

/-- Whether what a schema makes of a value it accepts is always the value itself. -/
def Schema.keepsInput (schema : Schema) : Bool :=
  match schema.shape with
  | .string checks => !checks.any StringCheck.isTransform
  | .number _ | .bigint _ | .boolean | .date _ | .undefined | .null | .void | .literal _
  | .enumeration _ | .nativeEnum _ | .any | .unknown | .nan | .symbol => true
  | _ => false

/-- Builds the strategies of declared members, the first of which is child number `position`. -/
def buildFields : List (String × Builder) → (position : Nat) → Cell → Path →
    Compiled (List (String × Strategy))
  | [], _, _, _ => pure []
  | (name, build) :: rest, position, cell, path => do
    let first ← build (position :: cell) (path.into (.property name))
    let others ← buildFields rest (position + 1) cell path
    pure ((name, first) :: others)

/-- Builds the strategies of the positions of a tuple, counted from `position`. -/
def buildSlots : List Builder → (position : Nat) → Cell → Path → Compiled (List Strategy)
  | [], _, _, _ => pure []
  | build :: rest, position, cell, path => do
    let first ← build ((position + 1) :: cell) (path.into (.index position))
    let others ← buildSlots rest (position + 1) cell path
    pure (first :: others)

/-- Builds the strategies of options, the first of which is child number `position`. -/
def buildOptions : List Builder → (position : Nat) → Cell → Path → Compiled (List Strategy)
  | [], _, _, _ => pure []
  | build :: rest, position, cell, path => do
    let first ← build (position :: cell) path
    let others ← buildOptions rest (position + 1) cell path
    pure (first :: others)

/-- Builds the strategies of the options that the tags of a table select, one for each tag. -/
def buildTagged (builders : List Builder) : TagTable → (position : Nat) → Cell → Path →
    Compiled (List Strategy)
  | [], _, _, _ => pure []
  | (_, option) :: rest, position, cell, path => do
    match builders[option]? with
    | none => buildTagged builders rest position cell path
    | some build => do
      let first ← build (position :: cell) path
      let others ← buildTagged builders rest (position + 1) cell path
      pure (first :: others)

/-! ### The walk -/

mutual

/-- The strategy of the values that a schema accepts.  `cell` names the memory of the node, and
    its inner schemas get the cells one step further in, numbered from one. -/
def compileInput (config : Config) (resolver : Resolver) : Schema → Builder
  | .node id shape, cell, path =>
    match resolver id with
    | some build => do
      Compiled.report (.overriding shape.kind path)
      build (1 :: cell) path
    | none => do
      Compiled.report (.dispatching shape.kind path)
      compileShape config resolver id shape cell path
termination_by structural schema => schema

/-- The strategy of a node that is not overridden. -/
def compileShape (config : Config) (resolver : Resolver) (id : SchemaId) : Shape Schema → Builder
  | .string checks, cell, path => do
    let c ← Compiled.lift path (textCandidate checks config.maxExtraLength)
    Compiled.abortIf ((TextPlan.ofChecks checks).overflows config.maxExtraLength)
    pure (config.settle cell path (.node id (.string checks)) c)
  | .number checks, cell, path => do
    let (c, multiples) ← Compiled.lift path (numberCandidate checks)
    match multiples with
    | some m => Compiled.report (.narrowed checks.length m.step m.lo m.hi)
    | none => pure ()
    pure (config.settle cell path (.node id (.number checks)) c)
  | .bigint checks, cell, path => do
    let c ← Compiled.lift path (bigintCandidate checks)
    pure (config.settle cell path (.node id (.bigint checks)) c)
  | .date checks, cell, path => do
    let c ← Compiled.lift path (dateCandidate checks)
    pure (config.settle cell path (.node id (.date checks)) c)
  | .boolean, _, _ => pure (.sample (.bool <$> Sampler.bool))
  | .undefined, _, _ | .void, _, _ => pure (.just .undefined)
  | .null, _, _ => pure (.just .null)
  | .nan, _, _ => pure (.just (.number Binary64.nan))
  | .any, _, _ | .unknown, _, _ => pure (.sample (.anyValue config.anyDepth))
  | .symbol, _, _ => pure .symbol
  | .literal v, _, _ => pure (.just v)
  | .enumeration members, _, path =>
    Compiled.lift path (Strategy.among .enumeration (members.map .string))
  | .nativeEnum members, _, path =>
    Compiled.lift path (Strategy.among .nativeEnum (members.map (·.2)))
  | .array item bounds, cell, path => do
    let item ← compileInput config resolver item (1 :: cell) (path.into .element)
    Compiled.abortIf (config.sizeOverflows bounds)
    let (min, max) ← Compiled.lift path (config.sizeRange bounds)
    pure (.array item min max)
  | .set item bounds, cell, path => do
    let item ← compileInput config resolver item (1 :: cell) (path.into .element)
    Compiled.abortIf (config.sizeOverflows bounds)
    let (min, max) ← Compiled.lift path (config.sizeRange bounds)
    if min = 0 then pure (.set item min max)
    else pure (config.monitor cell path (.sized min) (.set item min max))
  | .object fields _, cell, path => do
    pure (.object (← buildFields (compileFields config resolver fields) 1 cell path))
  | .tuple slots rest, cell, path => do
    let slotStrategies ← buildSlots (compileAll config resolver slots) 0 cell path
    match compileRest config resolver rest with
    | none => pure (.tuple slotStrategies none config.maxExtraLength)
    | some build => do
      let further ← build ((slots.length + 1) :: cell) (path.into .element)
      pure (.tuple slotStrategies (some further) config.maxExtraLength)
  | .record key value, cell, path => do
    let key ← compileInput config resolver key (1 :: cell) (path.into .key)
    let value ← compileInput config resolver value (2 :: cell) (path.into .value)
    pure (.record key value config.maxExtraLength)
  | .map key value, cell, path => do
    let key ← compileInput config resolver key (1 :: cell) (path.into .key)
    let value ← compileInput config resolver value (2 :: cell) (path.into .value)
    pure (.map key value config.maxExtraLength)
  | .union options, cell, path =>
    if options.isEmpty then Compiled.contradiction path .emptyUnion
    else do
      pure (.oneOf (← buildOptions (compileAll config resolver options) 1 cell path))
  | .discriminatedUnion discriminator options, cell, path =>
    match tagTable discriminator options with
    | .error fault => Compiled.contradiction path (.tags fault)
    | .ok [] => Compiled.contradiction path .emptyTaggedUnion
    | .ok table => do
      pure (.oneOf (← buildTagged (compileAll config resolver options) table 1 cell path))
  | .intersection _ _, _, path =>
    Compiled.stop (.failed (.unsupported path Kind.intersection.typeName))
  | .lazy _, _, path => Compiled.stop (.failed (.unsupported path Kind.lazy.typeName))
  | .never, _, path => Compiled.stop (.failed (.unsupported path Kind.never.typeName))
  | .custom name _, _, path => Compiled.stop (.failed (.unsupported path name))
  | .function _ result, cell, path => do
    pure (.function (← compileInput config resolver result (1 :: cell) (path.into .returnType)))
  | .promise inner, cell, path => do
    pure (.promise (← compileInput config resolver inner (1 :: cell) (path.into .resolvedType)))
  | .optional inner, cell, path => do
    let present ← compileInput config resolver inner (1 :: cell) path
    Compiled.abortIf config.refusesWeights
    pure (config.withAbsent present .undefined)
  | .nullable inner, cell, path => do
    let present ← compileInput config resolver inner (1 :: cell) path
    Compiled.abortIf config.refusesWeights
    pure (config.withAbsent present .null)
  | .default inner _, cell, path => do
    let present ← compileInput config resolver inner (1 :: cell) path
    Compiled.abortIf config.refusesWeights
    pure (config.withAbsent present .undefined)
  | .caught inner _, cell, path => do
    let inner ← compileInput config resolver inner (1 :: cell) path
    pure (.oneOf [inner, .sample (.anyValue config.anyDepth)])
  | .effects inner effect, cell, path => do
    let source ← compileInput config resolver inner (1 :: cell) path
    pure (config.monitor cell path (.accepted (.node id (.effects inner effect))) source)
  | .pipeline first second, cell, path => do
    let source ← compileInput config resolver first (1 :: cell) path
    pure (config.monitor cell path (.accepted (.node id (.pipeline first second))) source)
  | .branded inner _, cell, path => compileInput config resolver inner (1 :: cell) path
  | .readonly inner, cell, path => compileInput config resolver inner (1 :: cell) path

/-- The builders of a list of schemas. -/
def compileAll (config : Config) (resolver : Resolver) : List Schema → List Builder
  | [] => []
  | schema :: rest => compileInput config resolver schema :: compileAll config resolver rest

/-- The builders of declared members. -/
def compileFields (config : Config) (resolver : Resolver) :
    List (String × Schema) → List (String × Builder)
  | [] => []
  | (name, field) :: rest =>
    (name, compileInput config resolver field) :: compileFields config resolver rest

/-- The builder of the further elements of a tuple. -/
def compileRest (config : Config) (resolver : Resolver) : Option Schema → Option Builder
  | none => none
  | some rest => some (compileInput config resolver rest)

end

end SchemaSampler
