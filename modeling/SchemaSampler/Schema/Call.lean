import SchemaSampler.Schema.Parse

namespace SchemaSampler

/-!
# Calls — what a function returns

A function that schemas accepted tests every call: the number of arguments and each argument
against the schemas of the outermost guard, then the call passes on to the next guard, and the
result is tested on the way back.  The first problem ends the call.
-/

/-- What schemas and functions mean that are only named: the definitions of lazy schemas, the
    argument and result schemas of guards, and the functions supplied from outside. -/
structure Context where
  /-- The definitions that lazy schemas name. -/
  definitions : Definitions
  /-- The argument schemas and the result schema of a function schema. -/
  signature : SchemaId → Option (List Schema × Schema)
  /-- What a function from outside makes of its arguments. -/
  external : Nat → List Value → Except ParseError Value

namespace Context

/-- The outcome of a test of a whole value. -/
def parse (ctx : Context) (depth : Nat) (site : Site) (schema : Schema) (v : Value) :
    Option (Except ParseError Value) :=
  schema.parse ctx.definitions depth site v

/-- Tests arguments in order, up to the first that is refused; `position` numbers them. -/
def parseArguments (ctx : Context) (depth : Nat) (site : Site) :
    (position : Nat) → List (Schema × Value) → Option (Except ParseError (List Value))
  | _, [] => some (.ok [])
  | position, (schema, v) :: rest => do
    match ← ctx.parse depth (.branch position :: site) schema v with
    | .error e => some (.error e)
    | .ok first =>
      match ← parseArguments ctx depth site (position + 1) rest with
      | .error e => some (.error e)
      | .ok others => some (.ok (first :: others))

/-- What a function does once no guard is left. -/
def behave (ctx : Context) (args : List Value) : Behaviour Value → Except ParseError Value
  | .constant result => .ok result
  | .external number => ctx.external number args

/-- A call that passes through guards; `none` when a test has no outcome or a guard is unknown. -/
def callGuarded (ctx : Context) (depth : Nat) (behaviour : Behaviour Value) :
    (guards : List SchemaId) → Site → List Value → Option (Except ParseError Value)
  | [], _, args => some (ctx.behave args behaviour)
  | guard :: inner, site, args => do
    let (schemas, result) ← ctx.signature guard
    if args.length ≠ schemas.length then
      some (.error (.ofProblem (.argumentCount schemas.length args.length)))
    else
      match ← ctx.parseArguments depth site 2 (schemas.zip args) with
      | .error e => some (.error e)
      | .ok parsed =>
        match ← callGuarded ctx depth behaviour inner (.branch 0 :: site) parsed with
        | .error e => some (.error e)
        | .ok returned => ctx.parse depth (.branch 1 :: site) result returned

/-- Calls a function. -/
def call (ctx : Context) (depth : Nat) (site : Site) (f : Callable Value) (args : List Value) :
    Option (Except ParseError Value) :=
  ctx.callGuarded depth f.behaviour f.guards site args

end Context

end SchemaSampler
