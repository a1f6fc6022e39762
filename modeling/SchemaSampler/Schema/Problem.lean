import SchemaSampler.Value.Display

namespace SchemaSampler

open Calendar (Instant)

/-!
# Problems — why a value is refused

A `Problem` is one reason why a schema refuses a value; its wording is `Problem.message`.  An
`Issue` adds the place in the value, and a `ParseError` is a list of issues that is not empty.
-/

/-- What makes the options of a discriminated union contradictory. -/
inductive TagFault where
  /-- An option is of a kind that has no members. -/
  | notObject (typeName : String)
  /-- An option does not declare the discriminator. -/
  | undeclared (discriminator : String)
  /-- An option declares the discriminator as something else than texts. -/
  | notTextual (discriminator typeName : String)
  /-- A tag is declared a second time. -/
  | repeated (tag : String)
deriving DecidableEq, Repr

/-- The wording of a fault. -/
def TagFault.message : TagFault → String
  | notObject name => "discriminated union option must be an object, got " ++ name
  | undeclared d => "discriminated union option is missing discriminator '" ++ d ++ "'"
  | notTextual d name =>
    "discriminator '" ++ d ++ "' must be a string literal or enum, got " ++ name
  | repeated tag => "discriminator value '" ++ tag ++ "' is declared twice"

/-- The kinds of collections whose number of elements is bounded. -/
inductive Collection where
  | array | set
deriving DecidableEq, Repr

/-- The name of a kind of collection. -/
def Collection.name : Collection → String
  | array => "array"
  | set => "set"

/-- One reason why a schema refuses a value. -/
inductive Problem where
  /-- The value is of another kind. -/
  | unexpectedKind (expected received : String)
  /-- A text is too short. -/
  | shorterThan (min : Nat)
  /-- A text is too long. -/
  | longerThan (max : Nat)
  /-- A text is not of the only length allowed. -/
  | notOfLength (exact : Nat)
  /-- A text does not have a format. -/
  | notInFormat (format : String)
  /-- A text matches no pattern. -/
  | notMatching (pattern : String)
  /-- A text starts otherwise. -/
  | notStartingWith (start : String)
  /-- A text ends otherwise. -/
  | notEndingWith (ending : String)
  /-- A text lacks a piece. -/
  | notIncluding (piece : String)
  /-- A number is too small. -/
  | numberBelow (min : Float) (inclusive : Bool)
  /-- A number is too large. -/
  | numberAbove (max : Float) (inclusive : Bool)
  /-- A number is not integral. -/
  | notIntegral
  /-- A number is not a multiple. -/
  | notMultiple (step : Float)
  /-- A number is infinite. -/
  | notFinite
  /-- A big integer is too small. -/
  | bigintBelow (min : Int)
  /-- A big integer is too large. -/
  | bigintAbove (max : Int)
  /-- A big integer is not a multiple. -/
  | notBigintMultiple (step : Int)
  /-- A date is too early. -/
  | dateBefore (min : Instant)
  /-- A date is too late. -/
  | dateAfter (max : Instant)
  /-- The value is not the only one allowed. -/
  | notLiteral (expected : Value)
  /-- The value is none of the texts allowed. -/
  | notMember (members : List String)
  /-- The value is none of those allowed. -/
  | notNativeMember
  /-- A collection has too few elements. -/
  | fewerElements (collection : Collection) (min : Nat)
  /-- A collection has too many elements. -/
  | moreElements (collection : Collection) (max : Nat)
  /-- An object has a member that is not declared. -/
  | unrecognizedKey (key : String)
  /-- A tuple has a wrong number of elements. -/
  | wrongArity (expected received : Nat)
  /-- The key of a record became something else than a text. -/
  | keyNotText (received : String)
  /-- No option of a union accepts the value. -/
  | noOption
  /-- The options of a discriminated union contradict each other. -/
  | contradictoryTags (fault : TagFault)
  /-- The discriminator names no option. -/
  | unknownTag
  /-- The two results of an intersection cannot be merged. -/
  | unmergeable
  /-- A function is called with a wrong number of arguments. -/
  | argumentCount (expected received : Nat)
  /-- A schema of a kind from outside refuses the value. -/
  | notCustom (name : String)
  /-- A refinement, a mapping or a function gives its own reason. -/
  | stated (reason : String)
  /-- No reason is known. -/
  | unspecified

/-- The wording of a problem. -/
def Problem.message : Problem → String
  | unexpectedKind expected received => "expected " ++ expected ++ ", received " ++ received
  | shorterThan min => "string must contain at least " ++ toString min ++ " character(s)"
  | longerThan max => "string must contain at most " ++ toString max ++ " character(s)"
  | notOfLength exact => "string must contain exactly " ++ toString exact ++ " character(s)"
  | notInFormat format => "invalid " ++ format
  | notMatching pattern => "string must match pattern " ++ pattern
  | notStartingWith start => "string must start with \"" ++ start ++ "\""
  | notEndingWith ending => "string must end with \"" ++ ending ++ "\""
  | notIncluding piece => "string must include \"" ++ piece ++ "\""
  | numberBelow min inclusive =>
    "number must be " ++ (if inclusive then "greater than or equal to " else "greater than ") ++
      Decimal.plain min
  | numberAbove max inclusive =>
    "number must be " ++ (if inclusive then "less than or equal to " else "less than ") ++
      Decimal.plain max
  | notIntegral => "expected integer, received float"
  | notMultiple step => "number must be a multiple of " ++ Decimal.plain step
  | notFinite => "number must be finite"
  | bigintBelow min => "bigint must be greater than " ++ toString min
  | bigintAbove max => "bigint must be less than " ++ toString max
  | notBigintMultiple step => "bigint must be a multiple of " ++ toString step
  | dateBefore min => "date must be greater than or equal to " ++ min.offsetText
  | dateAfter max => "date must be less than or equal to " ++ max.offsetText
  | notLiteral expected => "invalid literal value, expected " ++ expected.display
  | notMember members =>
    "invalid enum value, expected one of [" ++ ", ".intercalate (members.map Text.quoted) ++ "]"
  | notNativeMember => "invalid enum value"
  | fewerElements c min =>
    c.name ++ " must contain at least " ++ toString min ++ " element(s)"
  | moreElements c max => c.name ++ " must contain at most " ++ toString max ++ " element(s)"
  | unrecognizedKey key => "unrecognized key '" ++ key ++ "'"
  | wrongArity expected received =>
    "expected tuple of " ++ toString expected ++ " element(s), received " ++ toString received
  | keyNotText received => "record key must parse to a string, got " ++ received
  | noOption => "invalid input: no union member matched"
  | contradictoryTags fault => fault.message
  | unknownTag => "invalid discriminator value"
  | unmergeable => "intersection results could not be merged"
  | argumentCount expected received =>
    "expected " ++ toString expected ++ " argument(s), received " ++ toString received
  | notCustom name => "invalid " ++ name
  | stated reason => reason
  | unspecified => "invalid input"

/-! ### Places in a value -/

/-- One step into a value. -/
inductive Segment where
  /-- The member under a key. -/
  | key (name : String)
  /-- The element at a position. -/
  | index (position : Nat)
deriving DecidableEq, Repr

/-- The text of a step: `.name` or `[position]`. -/
def Segment.text : Segment → String
  | key name => "." ++ name
  | index position => "[" ++ toString position ++ "]"

/-- The step into the value that a step of a test takes, if it takes one. -/
def Step.segment? : Step → Option Segment
  | key name => some (.key name)
  | index position => some (.index position)
  | branch _ | trial _ _ => none

/-- The place in the value where a test has come to, the first step first. -/
def Site.path (site : Site) : List Segment := site.reverse.filterMap Step.segment?

/-! ### Issues -/

/-- A problem and the place in the value where it was found. -/
structure Issue where
  /-- The place. -/
  path : List Segment
  /-- The problem. -/
  problem : Problem

/-- The text of an issue: its place, a point for the whole value, and the wording. -/
def Issue.text (i : Issue) : String :=
  (if i.path.isEmpty then "." else "".intercalate (i.path.map Segment.text)) ++ ": " ++
    i.problem.message

/-- The issues that made a schema refuse a value, at least one. -/
structure ParseError where
  /-- The first issue. -/
  head : Issue
  /-- The other issues. -/
  tail : List Issue

namespace ParseError

/-- The error of a single problem with the whole value. -/
def ofProblem (p : Problem) : ParseError := ⟨⟨[], p⟩, []⟩

/-- The error of a list of issues. -/
def ofIssues : List Issue → ParseError
  | [] => ofProblem .unspecified
  | i :: rest => ⟨i, rest⟩

/-- The issues of an error. -/
def issues (e : ParseError) : List Issue := e.head :: e.tail

/-- The text of an error. -/
def text (e : ParseError) : String :=
  "validation failed: " ++ "; ".intercalate (e.issues.map Issue.text)

end ParseError

end SchemaSampler
