import SchemaSampler.Schema.Call
import SchemaSampler.Strategy.Event
import SchemaSampler.Strategy.Memory
import SchemaSampler.Value.Collection

namespace SchemaSampler

/-!
# Drawing — values from strategies

A draw goes by recursion on the strategy.  It asks the choices for what is random, keeps the
memory of cycles and monitors, and hands out serial numbers to new symbols and functions.  A draw
ends with a value, is refused when a breaker trips, or stalls when a bound is reached: `patience`
bounds the candidates of one search, and `depth` the recursion of a test.  It stalls, too, when a
test breaks off under an overflow, where it has no outcome either.
-/

/-- What a draw depends on. -/
structure Surroundings where
  /-- The source of randomness. -/
  choices : Choices
  /-- The definitions that lazy schemas name. -/
  definitions : Definitions
  /-- The bound on the recursion of a test. -/
  depth : Nat
  /-- The bound on the candidates of one search. -/
  patience : Nat

/-- What a draw changes. -/
structure Progress where
  /-- The number of the next question to the choices. -/
  question : Nat
  /-- The next serial number. -/
  serial : Nat
  /-- What strategies remember. -/
  memory : Memory
  /-- The events reported, the last one first. -/
  log : List Event

/-- The state before the first draw, given the first serial number that is free. -/
def Progress.start (serial : Nat) : Progress := ⟨0, serial, .blank, []⟩

/-- Why a draw came to no value. -/
inductive Miss where
  /-- A breaker tripped. -/
  | refused (failure : Failure)
  /-- A bound was reached, or a test broke off. -/
  | stalled

/-- A computation that draws. -/
abbrev Draw := ReaderT Surroundings (ExceptT Miss (StateM Progress))

namespace Draw

/-- Asks the choices. -/
def sample {α : Type} (sampler : Sampler α) : Draw α := fun around => do
  let p ← get
  let (a, question) := (sampler around.choices).run p.question
  set { p with question }
  pure a

/-- A serial number that was not handed out before. -/
def fresh : Draw Nat := do
  let p ← get
  set { p with serial := p.serial + 1 }
  pure p.serial

/-- A number of draws, one after the other. -/
def replicate {α : Type} (draw : Draw α) : Nat → Draw (List α)
  | 0 => pure []
  | n + 1 => do
    let head ← draw
    let tail ← replicate draw n
    pure (head :: tail)

/-- A key and then a value. -/
def pair (key value : Draw Value) : Draw (Value × Value) := do
  let k ← key
  let v ← value
  pure (k, v)

/-- Takes a turn of a cell; gives the number of turns before. -/
def turn (cell : Cell) : Draw Nat := do
  let p ← get
  let n := p.memory.turn cell
  set { p with memory := p.memory.setTurn cell (n + 1) }
  pure n

/-- The next value of a cycle. -/
def next (cell : Cell) (values : List Value) : Draw Value := do
  let n ← turn cell
  pure (values.getD (n % values.length) .undefined)

/-- Tests a value against a schema, at a place that no other test has. -/
def test (cell : Cell) (schema : Schema) (v : Value) : Draw (Except ParseError Value) :=
  fun around => do
    let n ← turn cell around
    match schema.parse around.definitions around.depth [.trial cell n] v with
    | some outcome => pure outcome
    | none => throw .stalled

/-- What a candidate becomes, or nothing if it is not accepted. -/
def judge (cell : Cell) (acceptance : Acceptance) (v : Value) : Draw (Option Value) :=
  match acceptance with
  | .accepted schema => do
    match ← test cell schema v with
    | .ok _ => pure (some v)
    | .error _ => pure none
  | .parsed schema => do
    match ← test cell schema v with
    | .ok result => pure (some result)
    | .error _ => pure none
  | .sized min =>
    match v with
    | .set elements => pure (if min ≤ elements.length then some v else none)
    | _ => pure none

/-- One search of a monitor. -/
def search (monitor : Monitor) (source : Draw Value) : Draw Value := fun around => do
  let p ← get
  let candidate : Progress → Except Miss (Option Value) × Progress := fun p =>
    (do judge monitor.cell monitor.acceptance (← source) : Draw (Option Value)) around p
  let (ending, tally, p) :=
    monitor.breaker.seek candidate around.patience (p.memory.tally monitor.cell) p
  set { p with memory := p.memory.setTally monitor.cell tally }
  match ending with
  | .accepted v => pure v
  | .tripped t => do
    let failure := Failure.infeasible monitor.path t.trials t.successes
    modify fun p => { p with log := .tripped failure :: p.log }
    throw (.refused failure)
  | .refused miss => throw miss
  | .stalled => throw .stalled

end Draw

/-- The members of an object from pairs of keys and values; keys that are no texts drop out. -/
def textMembers (pairs : List (Value × Value)) : List (String × Value) :=
  pairs.filterMap fun (key, v) => key.asString?.map fun name => (name, v)

mutual

/-- Draws one value. -/
def Strategy.draw : Strategy → Draw Value
  | .sample sampler => Draw.sample sampler
  | .symbol => do pure (.symbol ⟨← Draw.fresh, none⟩)
  | .cycle cell values => Draw.next cell values
  | .array item min max => do
    let n ← Draw.sample (.between min max)
    pure (.array (← Draw.replicate (Strategy.draw item) n))
  | .set item min max => do
    let n ← Draw.sample (.between min max)
    pure (Value.setOfItems (← Draw.replicate (Strategy.draw item) n))
  | .object fields => do pure (Value.objectOf (← Strategy.drawMembers fields))
  | .tuple slots rest maxExtra => do
    let items ← Strategy.drawAll slots
    let further ← Strategy.drawFurther rest maxExtra
    pure (.array (items ++ further))
  | .record key value max => do
    let n ← Draw.sample (.between 0 max)
    let pairs ← Draw.replicate (Draw.pair (Strategy.draw key) (Strategy.draw value)) n
    pure (Value.objectOf (textMembers pairs))
  | .map key value max => do
    let n ← Draw.sample (.between 0 max)
    let entry := Draw.pair (Strategy.draw key) (Strategy.draw value)
    pure (Value.mapOfPairs (← Draw.replicate entry n))
  | .function result => do
    let v ← Strategy.draw result
    pure (.function ⟨.made (← Draw.fresh), .constant v, []⟩)
  | .promise inner => do pure (.promise (← Strategy.draw inner))
  | .union options => do
    let ticket ← Draw.sample (.upTo (Weighted.total options - 1))
    Strategy.drawAt options ticket
  | .monitored monitor source => Draw.search monitor (Strategy.draw source)
  | .derived source next => do Strategy.draw (next (← Strategy.draw source))
termination_by structural strategy => strategy

/-- Draws the members of an object in order. -/
def Strategy.drawMembers : List (String × Strategy) → Draw (List (String × Value))
  | [] => pure []
  | (name, strategy) :: rest => do
    let v ← Strategy.draw strategy
    let others ← Strategy.drawMembers rest
    pure ((name, v) :: others)

/-- Draws from several strategies in order. -/
def Strategy.drawAll : List Strategy → Draw (List Value)
  | [] => pure []
  | strategy :: rest => do
    let v ← Strategy.draw strategy
    let others ← Strategy.drawAll rest
    pure (v :: others)

/-- Draws the further elements of a tuple. -/
def Strategy.drawFurther : Option Strategy → (maxExtra : Nat) → Draw (List Value)
  | none, _ => pure []
  | some rest, maxExtra => do
    let n ← Draw.sample (.between 0 maxExtra)
    Draw.replicate (Strategy.draw rest) n

/-- Draws from the option that a ticket falls to. -/
def Strategy.drawAt : List (Nat × Strategy) → (ticket : Nat) → Draw Value
  | [], _ => throw .stalled
  | (weight, option) :: rest, ticket =>
    if ticket < weight then Strategy.draw option else Strategy.drawAt rest (ticket - weight)

end

end SchemaSampler
