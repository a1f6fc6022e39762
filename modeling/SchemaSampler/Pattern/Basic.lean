import SchemaSampler.Pattern.CharSet

namespace SchemaSampler

/-!
# Patterns — regular expressions over characters

A pattern describes pieces of a text.  Besides the usual operators there are two anchors, which
take no characters and hold only at the very start and the very end of the text.
-/

/-- A regular expression. -/
inductive Pattern where
  /-- The empty piece. -/
  | empty
  /-- The empty piece at the start of the text. -/
  | atStart
  /-- The empty piece at the end of the text. -/
  | atEnd
  /-- One character of a set. -/
  | one (set : CharSet)
  /-- A piece of the first pattern followed by one of the second. -/
  | seq (first second : Pattern)
  /-- A piece of either pattern. -/
  | alt (left right : Pattern)
  /-- At least `min` and at most `max` pieces of the pattern in a row. -/
  | times (inner : Pattern) (min : Nat) (max : Option Nat)
deriving DecidableEq, Repr

namespace Pattern

/-- A given text. -/
def text (s : String) : Pattern :=
  s.toList.foldr (fun c rest => seq (one (.single c)) rest) empty

/-- Patterns in a row. -/
def chain (ps : List Pattern) : Pattern := ps.foldr seq empty

/-- Exactly `n` pieces. -/
def exactly (n : Nat) (p : Pattern) : Pattern := times p n (some n)

/-- From `min` to `max` pieces. -/
def between (min max : Nat) (p : Pattern) : Pattern := times p min (some max)

/-- `min` pieces or more. -/
def atLeast (min : Nat) (p : Pattern) : Pattern := times p min none

/-- One piece or none. -/
def optional (p : Pattern) : Pattern := times p 0 (some 1)

/-- A pattern that has to cover the whole text. -/
def whole (p : Pattern) : Pattern := chain [atStart, p, atEnd]

/-! ### Matching

A set of patterns is followed through the text: those that the rest may still have to match.
-/

/-- Whether the pattern has an empty piece at a place of the text, of which is known whether it is
    the start and whether it is the end. -/
def nullable (start stop : Bool) : Pattern → Bool
  | empty => true
  | atStart => start
  | atEnd => stop
  | one _ => false
  | seq p q => nullable start stop p && nullable start stop q
  | alt p q => nullable start stop p || nullable start stop q
  | times p min _ => min == 0 || nullable start stop p

/-- What may follow in the text when a piece of the pattern begins with the given character.  A
    repetition whose piece may be empty here can use up its minimum on empty pieces. -/
def after (start : Bool) (c : Char) : Pattern → List Pattern
  | empty | atStart | atEnd => []
  | one set => if set.has c then [empty] else []
  | seq p q =>
    (after start c p).map (fun p' => if p' = empty then q else seq p' q) ++
      (if nullable start false p then after start c q else [])
  | alt p q => after start c p ++ after start c q
  | times p min max =>
    if max = some 0 then []
    else
      let rest := times p (if nullable start false p then 0 else min - 1) (max.map (· - 1))
      (after start c p).map (fun p' => if p' = empty then rest else seq p' rest)

/-- Whether the text begins with a piece of one of the patterns. -/
def begins (start : Bool) (ps : List Pattern) : List Char → Bool
  | [] => ps.any (nullable start true)
  | c :: rest =>
    ps.any (nullable start false) ||
      (!ps.isEmpty && begins false (ps.flatMap (after start c)).eraseDups rest)

/-- Whether a piece of the pattern begins somewhere in the text. -/
def search (start : Bool) (p : Pattern) : List Char → Bool
  | [] => begins start [p] []
  | c :: rest => begins start [p] (c :: rest) || search false p rest

/-- Whether a piece of the text matches the pattern. -/
def isMatch (p : Pattern) (s : String) : Bool := search true p s.toList

end Pattern

end SchemaSampler
