import SchemaSampler.Pattern.Basic
import SchemaSampler.Pattern.Class

namespace SchemaSampler.Pattern

/-!
# Pattern text — reading regular expressions

The notation has literals, `.`, classes, escapes, the anchors `^` and `$`, which may also be
written `\A` and `\z`, groups, which may have a name, alternatives and the repetitions `*`, `+`,
`?`, `{m}`, `{m,}` and `{m,n}`.

Every reader takes the rest of the text and returns what it read with what is left, or `none` if
the text is no pattern.
-/

/-! ### Repetitions -/

/-- Reads a number, around which there may be blanks. -/
def readNumber (cs : List Char) : Option (Nat × List Char) :=
  let (ds, rest) := Text.takeDigits Text.decimalValue? (Text.trimStart cs)
  if ds.isEmpty then none else some (Text.ofDigits 10 ds, Text.trimStart rest)

/-- Reads the bounds of a counted repetition after its opening brace. -/
def readBounds (cs : List Char) : Option ((Nat × Option Nat) × List Char) := do
  let (min, cs) ← readNumber cs
  match cs with
  | '\x7d' :: rest => some ((min, some min), rest)
  | ',' :: '\x7d' :: rest => some ((min, none), rest)
  | ',' :: rest =>
    let (max, rest) ← readNumber rest
    match rest with
    | '\x7d' :: rest => if min ≤ max then some ((min, some max), rest) else none
    | _ => none
  | _ => none

/-- Reads the repetitions that follow a piece.  A question mark after a repetition changes which
    match is preferred, not which texts match. -/
def readRepeats : (fuel : Nat) → Pattern → List Char → Option (Pattern × List Char)
  | 0, p, cs => some (p, cs)
  | fuel + 1, p, cs =>
    let again (min : Nat) (max : Option Nat) (rest : List Char) :=
      readRepeats fuel (.times p min max) (match rest with | '?' :: rest => rest | rest => rest)
    match cs with
    | '*' :: rest => again 0 none rest
    | '+' :: rest => again 1 none rest
    | '?' :: rest => again 0 (some 1) rest
    | '\x7b' :: rest => do
      let ((min, max), rest) ← readBounds rest
      again min max rest
    | cs => some (p, cs)

/-! ### Sequences and alternatives -/

/-- Reads what may follow the parenthesis that opens a group: `?:`, or a name as in `?<year>` and
    `?P<year>`.  Neither changes which texts match. -/
def readOpening (cs : List Char) : Option (List Char) :=
  let readName (cs : List Char) : Option (List Char) :=
    let name := cs.takeWhile (· ≠ '>')
    if name.isEmpty || !name.all (CharSet.word.union (.ofList ['.', '[', ']'])).has then none
    else (cs.drop name.length).tail?
  match cs with
  | '?' :: ':' :: rest => some rest
  | '?' :: '<' :: rest => readName rest
  | '?' :: 'P' :: '<' :: rest => readName rest
  | '?' :: _ => none
  | cs => some cs

mutual

/-- Reads alternatives up to the end or a closing parenthesis. -/
def readAlternatives : (fuel : Nat) → List Char → Option (Pattern × List Char)
  | 0, _ => none
  | fuel + 1, cs => do
    let (first, rest) ← readSequence fuel cs
    match rest with
    | '|' :: rest =>
      let (others, rest) ← readAlternatives fuel rest
      some (.alt first others, rest)
    | rest => some (first, rest)

/-- Reads pieces one after the other. -/
def readSequence : (fuel : Nat) → List Char → Option (Pattern × List Char)
  | 0, _ => none
  | fuel + 1, cs =>
    match cs with
    | [] | '|' :: _ | ')' :: _ => some (.empty, cs)
    | _ => do
      let (piece, rest) ← readPiece fuel cs
      let (piece, rest) ← readRepeats rest.length piece rest
      let (others, rest) ← readSequence fuel rest
      some (.seq piece others, rest)

/-- Reads a group, a class, an anchor or a character. -/
def readPiece : (fuel : Nat) → List Char → Option (Pattern × List Char)
  | 0, _ => none
  | fuel + 1, cs =>
    match cs with
    | '(' :: rest => do
      let (inner, rest) ← readAlternatives fuel (← readOpening rest)
      match rest with
      | ')' :: rest => some (inner, rest)
      | _ => none
    | '[' :: rest => do
      let (set, rest) ← readClass (2 * rest.length + 1) rest
      some (.one set, rest)
    | '.' :: rest => some (.one (CharSet.single '\n').complement, rest)
    | '^' :: rest => some (.atStart, rest)
    | '$' :: rest => some (.atEnd, rest)
    | '\\' :: 'A' :: rest => some (.atStart, rest)
    | '\\' :: 'z' :: rest => some (.atEnd, rest)
    | '\\' :: rest => do
      let (item, rest) ← readEscape rest
      some (.one item.toSet, rest)
    | c :: rest => if "*+?\x7b".toList.contains c then none else some (.one (.single c), rest)
    | [] => none

end

/-- The pattern written by a text. -/
def ofString? (s : String) : Option Pattern :=
  let cs := s.toList
  match readAlternatives (3 * cs.length + 3) cs with
  | some (p, []) => some p
  | _ => none

end SchemaSampler.Pattern
