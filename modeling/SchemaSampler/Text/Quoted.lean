import SchemaSampler.Text.Unprintable

namespace SchemaSampler.Text

/-!
# Quoted text — a text between double quotes

A quoted text shows the double quote, the backslash and the common controls by an escape, every
other unprintable character by its number in hexadecimal, and all else as it is.
-/

/-- The hexadecimal digits of a natural number, in lower case. -/
def hexDigits (n : Nat) : List Char := Nat.toDigits 16 n

/-- One character inside a quoted text. -/
def quoteChar (c : Char) : List Char :=
  match c with
  | '\x00' => ['\\', '0']
  | '\t' => ['\\', 't']
  | '\n' => ['\\', 'n']
  | '\r' => ['\\', 'r']
  | '"' => ['\\', '"']
  | '\\' => ['\\', '\\']
  | c => if isUnprintable c then ['\\', 'u', '\x7b'] ++ hexDigits c.toNat ++ ['\x7d'] else [c]

/-- A text between double quotes, with escapes. -/
def quoted (text : String) : String :=
  String.ofList ('"' :: text.toList.flatMap quoteChar ++ ['"'])

end SchemaSampler.Text
