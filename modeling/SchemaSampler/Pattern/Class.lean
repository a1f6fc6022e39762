import SchemaSampler.Pattern.Escape

namespace SchemaSampler.Pattern

/-!
# Classes — sets of characters between brackets

A class such as `[^a-z0-9_]` lists characters, ranges, escapes, named sets such as `[:alpha:]` and
other classes; a circumflex at its front turns it into its complement.  `&&`, `--` and `~~` between
two lists stand for what both have, what only the left one has, and what exactly one of them has.
They bind alike and group to the left, and the circumflex applies to the result.

A hyphen is a character of its own at the front of a class, before its closing bracket and after a
range; so is a closing bracket at the front.
-/

/-- Reads a character or an escape. -/
def readItem : List Char → Option (Item × List Char)
  | [] => none
  | '\\' :: rest => readEscape rest
  | c :: rest => some (.char c, rest)

/-- Reads a character, an escape or a range.  A hyphen makes a range unless a closing bracket or
    another hyphen follows it; both ends of a range are characters, in ascending order. -/
def readRange (cs : List Char) : Option (CharSet × List Char) := do
  let (low, rest) ← readItem cs
  match rest with
  | '-' :: ends =>
    if ends.head? = some ']' ∨ ends.head? = some '-' then some (low.toSet, rest)
    else
      let (high, rest) ← readItem ends
      match low, high with
      | .char first, .char last => if first ≤ last then some (.between first last, rest) else none
      | _, _ => none
  | rest => some (low.toSet, rest)

/-- Reads a named set after its opening bracket, as in `[:alpha:]` or, for its complement,
    `[:^alpha:]`. -/
def readNamed : List Char → Option (CharSet × List Char)
  | ':' :: cs => do
    let (negated, cs) := match cs with
      | '^' :: cs => (true, cs)
      | cs => (false, cs)
    let name := cs.takeWhile (· ≠ ':')
    match cs.drop name.length with
    | ':' :: ']' :: rest =>
      let set ← CharSet.ascii? (String.ofList name)
      some (if negated then set.complement else set, rest)
    | _ => none
  | _ => none

/-- Reads the characters that stand for themselves only at the front of a class: any number of
    hyphens or else one closing bracket. -/
def readFront (cs : List Char) : CharSet × List Char :=
  match cs with
  | '-' :: rest => (.single '-', rest.dropWhile (· = '-'))
  | ']' :: rest => (.single ']', rest)
  | cs => (.empty, cs)

mutual

/-- Reads a class after its opening bracket. -/
def readClass : (fuel : Nat) → List Char → Option (CharSet × List Char)
  | 0, _ => none
  | fuel + 1, cs => do
    let (negated, cs) := match cs with
      | '^' :: cs => (true, cs)
      | cs => (false, cs)
    let (front, cs) := readFront cs
    let (set, rest) ← readMembers fuel id front cs
    some (if negated then set.complement else set, rest)

/-- Reads the members of a class up to its closing bracket.  `set` holds those of the present list
    so far and `combine` what the lists before it and their operators make of it. -/
def readMembers : (fuel : Nat) → (combine : CharSet → CharSet) → (set : CharSet) → List Char →
    Option (CharSet × List Char)
  | 0, _, _, _ => none
  | fuel + 1, combine, set, cs =>
    match cs with
    | ']' :: rest => some (combine set, rest)
    | '&' :: '&' :: rest => readMembers fuel (combine set).inter .empty rest
    | '-' :: '-' :: rest => readMembers fuel (combine set).remove .empty rest
    | '~' :: '~' :: rest => readMembers fuel (combine set).symmDiff .empty rest
    | '[' :: rest => do
      let (inner, rest) ← match readNamed rest with
        | some named => some named
        | none => readClass fuel rest
      readMembers fuel combine (set.union inner) rest
    | cs => do
      let (item, rest) ← readRange cs
      readMembers fuel combine (set.union item) rest

end

end SchemaSampler.Pattern
