import SchemaSampler.Pattern.CharSet
import SchemaSampler.Text.Numeral

namespace SchemaSampler.Pattern

/-!
# Escapes — characters and sets written with a backslash

* `\d`, `\s` and `\w` are the decimal digits, the blanks and the characters of words; the capital
  stands for all other characters.
* `\a`, `\f`, `\n`, `\r`, `\t` and `\v` are controls.
* `\x`, `\u` and `\U` give a character by two, four or eight hexadecimal digits, or by any number
  of them between braces.
* Every other ASCII character that is neither a letter nor a digit stands for itself.

Every reader takes the rest of the text and returns what it read with what is left, or `none` if
that is not in the notation.
-/

/-- What is written for one character of the text: that character, or a set to which it has to
    belong. -/
inductive Item where
  /-- The character itself. -/
  | char (c : Char)
  /-- The members of a set. -/
  | set (s : CharSet)
deriving DecidableEq, Repr

/-- The characters that an item stands for. -/
def Item.toSet : Item → CharSet
  | char c => .single c
  | set s => s

/-- The character with a code point. -/
def ofCodePoint? (n : Nat) : Option Char :=
  if n.isValidChar then some (Char.ofNat n) else none

/-- The character written by hexadecimal digits, of which there has to be one. -/
def ofHexadecimal? (cs : List Char) : Option Item := do
  if cs.isEmpty then none
  else some (.char (← ofCodePoint? (Text.ofDigits 16 (← cs.mapM Text.hexValue?))))

/-- Reads hexadecimal digits: those between braces, or else as many as `width` says. -/
def readHexadecimal (width : Nat) (cs : List Char) : Option (Item × List Char) := do
  match cs with
  | '\x7b' :: rest =>
    let digits := rest.takeWhile (· ≠ '\x7d')
    if digits.length < rest.length then
      some (← ofHexadecimal? digits, rest.drop (digits.length + 1))
    else none
  | cs => if cs.length < width then none else some (← ofHexadecimal? (cs.take width), cs.drop width)

/-- Whether a backslash makes a character stand for itself.  The angle brackets are kept for the
    edges of words. -/
def isSelfEscape (c : Char) : Bool := c.toNat < 128 && !c.isAlphanum && c ≠ '<' && c ≠ '>'

/-- Reads an escape after its backslash. -/
def readEscape : List Char → Option (Item × List Char)
  | [] => none
  | c :: rest =>
    match c with
    | 'd' => some (.set .decimal, rest)
    | 'D' => some (.set (.complement .decimal), rest)
    | 's' => some (.set .blank, rest)
    | 'S' => some (.set (.complement .blank), rest)
    | 'w' => some (.set .word, rest)
    | 'W' => some (.set (.complement .word), rest)
    | 'a' => some (.char '\x07', rest)
    | 'f' => some (.char '\x0c', rest)
    | 'n' => some (.char '\n', rest)
    | 'r' => some (.char '\r', rest)
    | 't' => some (.char '\t', rest)
    | 'v' => some (.char '\x0b', rest)
    | 'x' => readHexadecimal 2 rest
    | 'u' => readHexadecimal 4 rest
    | 'U' => readHexadecimal 8 rest
    | c => if isSelfEscape c then some (.char c, rest) else none

end SchemaSampler.Pattern
