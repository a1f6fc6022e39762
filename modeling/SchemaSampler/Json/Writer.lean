import SchemaSampler.Json.Basic
import SchemaSampler.Decimal.Text

namespace SchemaSampler.Json

/-!
# Writing JSON

The compact form has no white space.  With `ascii` set every character beyond ASCII is written by
its UTF-16 code units.
-/

/-- Four hexadecimal digits of a code unit after `\u`. -/
def unitText (unit : Nat) : List Char :=
  let ds := Nat.toDigits 16 unit
  '\\' :: 'u' :: List.replicate (4 - ds.length) '0' ++ ds

/-- One character inside a string. -/
def charText (ascii : Bool) (c : Char) : List Char :=
  match c with
  | '"' => ['\\', '"']
  | '\\' => ['\\', '\\']
  | '\x08' => ['\\', 'b']
  | '\x0c' => ['\\', 'f']
  | '\n' => ['\\', 'n']
  | '\r' => ['\\', 'r']
  | '\t' => ['\\', 't']
  | c =>
    if c.toNat < 0x20 then unitText c.toNat
    else if ascii ∧ 0x7f ≤ c.toNat then
      if c.toNat < 0x10000 then unitText c.toNat
      else
        let offset := c.toNat - 0x10000
        unitText (0xd800 + offset / 0x400) ++ unitText (0xdc00 + offset % 0x400)
    else [c]

/-- A string between quotes. -/
def stringText (ascii : Bool) (s : String) : String :=
  String.ofList ('"' :: s.toList.flatMap (charText ascii) ++ ['"'])

/-- The text of a number. -/
def numberText : JsonNumber → String
  | .int n => toString n
  | .float x => Decimal.compact x

mutual

/-- The compact text of a document. -/
def compact (ascii : Bool) : Json → String
  | null => "null"
  | bool b => if b then "true" else "false"
  | number n => numberText n
  | string s => stringText ascii s
  | array items => "[" ++ ",".intercalate (compactItems ascii items) ++ "]"
  | object members => "\x7b" ++ ",".intercalate (compactMembers ascii members) ++ "\x7d"

/-- The compact texts of several documents. -/
def compactItems (ascii : Bool) : List Json → List String
  | [] => []
  | item :: rest => compact ascii item :: compactItems ascii rest

/-- The compact texts of members: key, colon and document. -/
def compactMembers (ascii : Bool) : List (String × Json) → List String
  | [] => []
  | (key, value) :: rest =>
    (stringText ascii key ++ ":" ++ compact ascii value) :: compactMembers ascii rest

end

end SchemaSampler.Json
