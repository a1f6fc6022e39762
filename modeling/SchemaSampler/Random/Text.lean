import SchemaSampler.Pattern.Basic
import SchemaSampler.Random.Choice

namespace SchemaSampler.Sampler

/-!
# Random text — characters and texts of a pattern
-/

/-- The character with a code point, counted without the surrogates. -/
def scalar (n : Nat) : Char := Char.ofNat (if n < 0xd800 then n else n + 0x800)

/-- Characters that programs are prone to mistreat: marks of quoting and of paths, controls, and
    characters whose forms differ in length or direction. -/
def awkward : List Char :=
  ['\\', '$', '.', '*', '\x7b', '\'', '"', '\x60', ':', '?', '%', '=', '&', '<', '\x00', '\t', '\r',
    '\n', '\x0b', '\x1b', '\x7f', '¥', 'Ѩ', 'Ⱥ', '\ufeff', '\ufffd', '🕴', '\u202e']

/-- Any character; half of the time an awkward one, a quarter of the time one of the printable
    ones of ASCII. -/
def char : Sampler Char := do
  match ← upTo 3 with
  | 0 | 1 => element '/' awkward
  | 2 => pure (Char.ofNat (← between 0x20 0x7e))
  | _ => pure (scalar (← upTo (0x110000 - 0x800 - 1)))

/-- A character of a set: each of its ranges comes up equally often. -/
def ofSet (set : CharSet) : Sampler Char := do
  let (first, last) ← match set.ranges with
    | [] => pure (0x20, 0x20)
    | range :: ranges => element range ranges
  pure (Char.ofNat (← between first last))

/-- The number of alternatives of a pattern. -/
def alternatives : Pattern → Nat
  | .alt p q => alternatives p + alternatives q
  | _ => 1

/-- How often a repetition without an upper bound comes at most beyond its minimum. -/
def unboundedExtra : Nat := 32

/-- A text of a pattern: alternatives, characters of a set and counts come up equally often.
    Anchors contribute nothing. -/
def ofPattern : Pattern → Sampler (List Char)
  | .empty | .atStart | .atEnd => pure []
  | .one set => do pure [← ofSet set]
  | .seq p q => do
    let first ← ofPattern p
    let second ← ofPattern q
    pure (first ++ second)
  | .alt p q => do
    if (← upTo (alternatives p + alternatives q - 1)) < alternatives p then ofPattern p
    else ofPattern q
  | .times p min max => do
    let pieces ← list (ofPattern p) min (max.getD (min + unboundedExtra))
    pure pieces.flatten

end SchemaSampler.Sampler
