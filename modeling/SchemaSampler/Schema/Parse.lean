import SchemaSampler.Schema.Tags
import SchemaSampler.Value.Merge

namespace SchemaSampler

/-!
# Parsing — testing a value against a schema

`Schema.parseWithin` tests a value: it gives back the result that the schema makes of it, or the
issues it found.  A schema that refers to itself need not come to an end, so the depth of the
recursion is bounded, and the remainder of a big integer may overflow, which breaks the test off.
In both cases there is no outcome, and the outcome is `none`; `Schema.runWithin` is the same test
with the reason for that.  `Shape.step` is one level of the recursion.  It takes the test of inner
schemas as a parameter, and is written once for both forms of test.

Issues come in a fixed order: those of a collection as a whole before those of its elements,
those of declared members before those about undeclared ones.
-/

/-- What a schema says to a value: its result or the issues found. -/
abbrev Parsed := Except (List Issue) Value

/-- The definitions that lazy schemas name. -/
abbrev Definitions := String → Option Schema

/-- Why a test has no outcome. -/
inductive Halt where
  /-- The bound on the recursion was reached. -/
  | bound
  /-- A remainder overflowed. -/
  | overflow
deriving DecidableEq, Repr

/-- Computations that can break off. -/
class Aborts (m : Type → Type) where
  /-- Breaks off. -/
  abort {α : Type} : m α

instance : Aborts Option := ⟨none⟩

instance : Aborts (Except Halt) := ⟨.error .overflow⟩

/-- The test of inner schemas at a place. -/
abbrev Recur (m : Type → Type := Option) := Site → Schema → Value → m Parsed

namespace Parsed

/-- A refusal for one reason. -/
def refuse (site : Site) (p : Problem) : Parsed := .error [⟨site.path, p⟩]

/-- A refusal because the value is of another kind. -/
def mismatch (site : Site) (expected : String) (v : Value) : Parsed :=
  refuse site (.unexpectedKind expected v.typeName)

/-- The issues found, none if the value was accepted. -/
def issues : Parsed → List Issue
  | .ok _ => []
  | .error found => found

/-- The result, if the value was accepted. -/
def result? : Parsed → Option Value
  | .ok v => some v
  | .error _ => none

/-- The result unless issues were found. -/
def finish (v : Value) (found : List Issue) : Parsed :=
  if found.isEmpty then .ok v else .error found

/-- The outcome of checks that all look at the same place. -/
def ofProblems (site : Site) (v : Value) (problems : List Problem) : Parsed :=
  finish v (problems.map fun p => ⟨site.path, p⟩)

end Parsed

/-! ### Collections -/

variable {m : Type → Type} [Monad m]

/-- The problems of a number of elements with its bounds. -/
def SizeBounds.problems (c : Collection) (b : SizeBounds) (size : Nat) : List Problem :=
  (match b.min with
    | some min => if size < min then [.fewerElements c min] else []
    | .none => []) ++
  (match b.max with
    | some max => if size > max then [.moreElements c max] else []
    | .none => [])

/-- Tests the elements of a list in order, each at its position. -/
def parseItems (recur : Recur m) (site : Site) (items : List (Schema × Value)) :
    m (List Parsed) :=
  items.zipIdx.mapM fun ((schema, v), i) => recur (.index i :: site) schema v

/-- Tests the elements of a bounded collection, which `build` makes of the results. -/
def parseCollection (recur : Recur m) (site : Site) (c : Collection) (item : Schema)
    (bounds : SizeBounds) (items : List Value) (build : List Value → Value) : m Parsed := do
  let parts ← parseItems recur site (items.map fun v => (item, v))
  let sizeIssues := (bounds.problems c items.length).map fun p => ⟨site.path, p⟩
  pure (.finish (build (parts.filterMap Parsed.result?))
    (sizeIssues ++ parts.flatMap Parsed.issues))

/-- The schemas of the elements of a tuple with a number of elements, if it can have as many. -/
def tupleSlots? (slots : List Schema) (rest : Option Schema) (count : Nat) :
    Option (List Schema) :=
  match rest with
  | some rest =>
    if slots.length ≤ count then some (slots ++ List.replicate (count - slots.length) rest)
    else none
  | none => if slots.length = count then some slots else none

/-- Tests the elements of a tuple. -/
def parseTuple (recur : Recur m) (site : Site) (slots : List Schema) (rest : Option Schema)
    (items : List Value) : m Parsed :=
  match tupleSlots? slots rest items.length with
  | none => pure (.refuse site (.wrongArity slots.length items.length))
  | some schemas => do
    let parts ← parseItems recur site (schemas.zip items)
    pure (.finish (.array (parts.filterMap Parsed.result?)) (parts.flatMap Parsed.issues))

/-! ### Objects -/

/-- The outcome for one declared member: its name, whether the object has it, and what the schema
    says to it. -/
structure FieldOutcome where
  /-- The name. -/
  name : String
  /-- Whether the object has the member. -/
  present : Bool
  /-- What the schema says. -/
  outcome : Parsed

/-- Tests a declared member; one that the object lacks is tested as the absent value. -/
def parseField (recur : Recur m) (site : Site) (input : List (String × Value))
    (field : String × Schema) : m FieldOutcome := do
  let present := findMember? field.1 input
  let outcome ← recur (.key field.1 :: site) field.2 (present.getD .undefined)
  pure ⟨field.1, present.isSome, outcome⟩

/-- Enters the result for a declared member into the output.  A member that the object lacks stays
    away unless the schema made something of it. -/
def FieldOutcome.enter (output : List (String × Value)) (f : FieldOutcome) :
    List (String × Value) :=
  match f.outcome with
  | .ok v => if f.present || !v.isUndefined then insertMember f.name v output else output
  | .error _ => output

/-- The members of an object that no field declares. -/
def undeclared (fields : List (String × Schema)) (input : List (String × Value)) :
    List (String × Value) :=
  input.filter fun (key, _) => !fields.any (·.1 == key)

/-- Tests an object against declared members and the rule for the others. -/
def parseObject (recur : Recur m) (site : Site) (fields : List (String × Schema))
    (unknownKeys : UnknownKeys) (input : List (String × Value)) : m Parsed := do
  let parts ← fields.mapM (parseField recur site input)
  let found := parts.flatMap fun f => f.outcome.issues
  let output := parts.foldl FieldOutcome.enter []
  let extra := undeclared fields input
  match unknownKeys with
  | .strip => pure (.finish (.object output) found)
  | .strict =>
    pure (.finish (.object output)
      (found ++ extra.map fun (key, _) => ⟨site.path, .unrecognizedKey key⟩))
  | .passthrough =>
    pure (.finish (.object (extra.foldl (fun out (key, v) => insertMember key v out) output)) found)

/-! ### Records and maps -/

/-- What a record makes of one member: its new key and value, or issues. -/
def recordMember (site : Site) (key value : Parsed) : Except (List Issue) (String × Value) :=
  match key, value with
  | .ok (.string key), .ok value => .ok (key, value)
  | .ok (.string _), .error found => .error found
  | .ok other, value => .error (⟨site.path, .keyNotText other.typeName⟩ :: value.issues)
  | .error found, value => .error (found ++ value.issues)

/-- Tests the members of a record, key and value at the place of the member. -/
def parseRecord (recur : Recur m) (site : Site) (key value : Schema)
    (input : List (String × Value)) : m Parsed := do
  let parts ← input.mapM fun (name, v) => do
    let here := Step.key name :: site
    let parsedKey ← recur (.branch 0 :: here) key (.string name)
    let parsedValue ← recur (.branch 1 :: here) value v
    pure (recordMember here parsedKey parsedValue)
  let members := parts.filterMap fun
    | .ok member => some member
    | .error _ => none
  let found := parts.flatMap fun
    | .ok _ => []
    | .error found => found
  pure (.finish (Value.objectOf members) found)

/-- Tests the entries of a map, key and value at the position of the entry. -/
def parseMap (recur : Recur m) (site : Site) (key value : Schema)
    (entries : List (Value × Value)) : m Parsed := do
  let parts ← entries.zipIdx.mapM fun ((k, v), i) => do
    let here := Step.index i :: site
    let parsedKey ← recur (.branch 0 :: here) key k
    let parsedValue ← recur (.branch 1 :: here) value v
    pure (parsedKey, parsedValue)
  let pairs := parts.filterMap fun
    | (.ok k, .ok v) => some (k, v)
    | _ => none
  pure (.finish (Value.mapOfPairs pairs) (parts.flatMap fun (k, v) => k.issues ++ v.issues))

/-! ### Alternatives and combinations -/

/-- The result of the first option that accepts the value. -/
def firstAccepted (recur : Recur m) (site : Site) (v : Value) : List Schema → m Parsed
  | [] => pure (.refuse site .noOption)
  | option :: rest => do
    match ← recur site option v with
    | .ok result => pure (.ok result)
    | .error _ => firstAccepted recur site v rest

/-- Tests an object against the option that its tag selects. -/
def parseTagged (recur : Recur m) (site : Site) (discriminator : String) (options : List Schema)
    (input : List (String × Value)) : m Parsed :=
  match tagTable discriminator options with
  | .error fault => pure (.refuse site (.contradictoryTags fault))
  | .ok table =>
    let unknown := Parsed.refuse (.key discriminator :: site) .unknownTag
    match findMember? discriminator input with
    | some (.string tag) =>
      match (findMember? tag table).bind (options[·]?) with
      | some option => recur site option (.object input)
      | none => pure unknown
    | _ => pure unknown

/-- The outcome of an intersection from those of its two sides. -/
def intersect (site : Site) : Parsed → Parsed → Parsed
  | .ok left, .ok right =>
    match left.merge right with
    | some merged => .ok merged
    | none => .refuse site .unmergeable
  | left, right => .error (left.issues ++ right.issues)

/-- Tests a value against a schema with an effect. -/
def parseEffect (recur : Recur m) (site : Site) (inner : Schema) (effect : Effect) (v : Value) :
    m Parsed :=
  match effect with
  | .refinement check reason => do
    match ← recur site inner v with
    | .ok result =>
      pure (if check result then .ok result else .refuse site (.stated reason))
    | refused => pure refused
  | .transform map => do
    match ← recur site inner v with
    | .ok result =>
      match map result with
      | .ok mapped => pure (.ok mapped)
      | .error reason => pure (.refuse site (.stated reason))
    | refused => pure refused
  | .preprocess map => recur site inner (map v)

/-! ### One level -/

/-- Accepts a value as it is, or refuses it as one of another kind. -/
def Parsed.check (site : Site) (expected : String) (v : Value) (accepted : Bool) : Parsed :=
  if accepted then .ok v else .mismatch site expected v

/-- Tests a big integer; where a check has no answer, the test breaks off. -/
def parseBigint [Aborts m] (site : Site) (checks : List BigintCheck) (n : Int) : m Parsed :=
  match BigintCheck.runAll? checks n with
  | some problems => pure (.ofProblems site (.bigint n) problems)
  | none => Aborts.abort

/-- Tests a value against a shape, and inner schemas by `recur`. -/
def Shape.step [Aborts m] (definitions : Definitions) (recur : Recur m) (site : Site)
    (id : SchemaId) (shape : Shape Schema) (v : Value) : m Parsed :=
  match shape with
  | .string checks =>
    match v with
    | .string s =>
      let (problems, result) := StringCheck.runAll checks s
      pure (.ofProblems site (.string result) problems)
    | _ => pure (.mismatch site "string" v)
  | .number checks =>
    match v with
    | .number x =>
      if x.isNaN then pure (.mismatch site "number" v)
      else pure (.ofProblems site v (checks.filterMap (·.violation? x)))
    | _ => pure (.mismatch site "number" v)
  | .bigint checks =>
    match v with
    | .bigint n => parseBigint site checks n
    | _ => pure (.mismatch site "bigint" v)
  | .boolean => pure (.check site "boolean" v (v matches .bool _))
  | .date checks =>
    match v with
    | .date t => pure (.ofProblems site v (checks.filterMap (·.violation? t)))
    | _ => pure (.mismatch site "date" v)
  | .undefined | .void => pure (.check site "undefined" v v.isUndefined)
  | .null => pure (.check site "null" v (v matches .null))
  | .any | .unknown => pure (.ok v)
  | .never => pure (.mismatch site "never" v)
  | .nan => pure (.check site "nan" v (v.asNumber?.any Float.isNaN))
  | .symbol => pure (.check site "symbol" v (v matches .symbol _))
  | .literal expected =>
    pure (if v == expected then .ok v else .refuse site (.notLiteral expected))
  | .enumeration members =>
    pure (if v.asString?.any members.contains then .ok v else .refuse site (.notMember members))
  | .nativeEnum members =>
    pure (if members.any (·.2 == v) then .ok v else .refuse site .notNativeMember)
  | .array item bounds =>
    match v with
    | .array items => parseCollection recur site .array item bounds items .array
    | _ => pure (.mismatch site "array" v)
  | .set item bounds =>
    match v with
    | .set items => parseCollection recur site .set item bounds items Value.setOfItems
    | _ => pure (.mismatch site "set" v)
  | .object fields unknownKeys =>
    match v with
    | .object input => parseObject recur site fields unknownKeys input
    | _ => pure (.mismatch site "object" v)
  | .tuple slots rest =>
    match v with
    | .array items => parseTuple recur site slots rest items
    | _ => pure (.mismatch site "array" v)
  | .record key value =>
    match v with
    | .object input => parseRecord recur site key value input
    | _ => pure (.mismatch site "object" v)
  | .map key value =>
    match v with
    | .map entries => parseMap recur site key value entries
    | _ => pure (.mismatch site "map" v)
  | .union options => firstAccepted recur site v options
  | .discriminatedUnion discriminator options =>
    match v with
    | .object input => parseTagged recur site discriminator options input
    | _ => pure (.mismatch site "object" v)
  | .intersection left right => do
    let l ← recur (.branch 0 :: site) left v
    let r ← recur (.branch 1 :: site) right v
    pure (intersect site l r)
  | .function _ _ =>
    match v with
    | .function f =>
      pure (.ok (.function { f with identity := .wrapped site, guards := id :: f.guards }))
    | _ => pure (.mismatch site "function" v)
  | .promise inner =>
    match v with
    | .promise settled => do
      match ← recur site inner settled with
      | .ok result => pure (.ok (.promise result))
      | refused => pure refused
    | _ => pure (.mismatch site "promise" v)
  | .lazy name =>
    match definitions name with
    | some schema => recur site schema v
    | none => pure (.mismatch site "never" v)
  | .optional inner =>
    match v with
    | .undefined => pure (.ok .undefined)
    | _ => recur site inner v
  | .nullable inner =>
    match v with
    | .null => pure (.ok .null)
    | _ => recur site inner v
  | .default inner value =>
    match v with
    | .undefined => recur site inner value
    | _ => recur site inner v
  | .caught inner fallback => do
    match ← recur site inner v with
    | .ok result => pure (.ok result)
    | .error _ => pure (.ok fallback)
  | .effects inner effect => parseEffect recur site inner effect v
  | .pipeline first second => do
    match ← recur (.branch 0 :: site) first v with
    | .ok result => recur (.branch 1 :: site) second result
    | refused => pure refused
  | .branded inner _ => recur site inner v
  | .readonly inner => recur site inner v
  | .custom name check =>
    pure (if check v then .ok v else .refuse site (.notCustom name))

/-! ### All levels -/

namespace Schema

/-- Tests a value against a schema, within a bound on the depth of the recursion. -/
def parseWithin (definitions : Definitions) : (depth : Nat) → Recur
  | 0, _, _, _ => none
  | depth + 1, site, schema, v =>
    schema.shape.step definitions (parseWithin definitions depth) site schema.id v

/-- The same test, with the reason why it has no outcome. -/
def runWithin (definitions : Definitions) : (depth : Nat) → Recur (Except Halt)
  | 0, _, _, _ => .error .bound
  | depth + 1, site, schema, v =>
    schema.shape.step definitions (runWithin definitions depth) site schema.id v

/-- The outcome of a test of a whole value: its result, or an error with all issues. -/
def parse (definitions : Definitions) (depth : Nat) (site : Site) (schema : Schema) (v : Value) :
    Option (Except ParseError Value) :=
  (parseWithin definitions depth site schema v).map fun
    | .ok result => .ok result
    | .error found => .error (.ofIssues found)

end Schema

end SchemaSampler
