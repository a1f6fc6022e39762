import SchemaSampler.Json.Basic
import SchemaSampler.Members
import SchemaSampler.Text.Numeral

namespace SchemaSampler.Json

/-!
# Reading JSON

Every reader takes the rest of the text and returns what it read with what is left, or `none` if
the text is no JSON there.  `fuel` bounds the depth of the recursion; the length of the text is
always enough, since every step takes at least one character.
-/

/-- Drops the white space that JSON allows between tokens. -/
def skipSpace : List Char → List Char
  | c :: rest => if c = ' ' ∨ c = '\n' ∨ c = '\t' ∨ c = '\r' then skipSpace rest else c :: rest
  | [] => []

/-! ### Strings -/

/-- The code unit written by four hexadecimal digits. -/
def codeUnit? (a b c d : Char) : Option Nat := do
  some (Text.ofDigits 16 (← [a, b, c, d].mapM Text.hexValue?))

/-- The character after a backslash that is no code unit. -/
def simpleEscape? : Char → Option Char
  | '"' => some '"'
  | '\\' => some '\\'
  | '/' => some '/'
  | 'b' => some '\x08'
  | 'f' => some '\x0c'
  | 'n' => some '\n'
  | 'r' => some '\r'
  | 't' => some '\t'
  | _ => none

/-- Reads a string after its opening quote; `read` holds its characters so far, in reverse.  Two
    code units of a surrogate pair make one character. -/
def readString (read : List Char) : List Char → Option (String × List Char)
  | '"' :: rest => some (String.ofList read.reverse, rest)
  | '\\' :: 'u' :: a :: b :: c :: d :: '\\' :: 'u' :: e :: f :: g :: h :: rest =>
    match codeUnit? a b c d with
    | none => none
    | some high =>
      if 0xd800 ≤ high ∧ high < 0xdc00 then
        match codeUnit? e f g h with
        | some low =>
          if 0xdc00 ≤ low ∧ low < 0xe000 then
            let code := 0x10000 + (high - 0xd800) * 0x400 + (low - 0xdc00)
            readString (Char.ofNat code :: read) rest
          else none
        | none => none
      else readString (Char.ofNat high :: read) ('\\' :: 'u' :: e :: f :: g :: h :: rest)
  | '\\' :: 'u' :: a :: b :: c :: d :: rest =>
    match codeUnit? a b c d with
    | some unit => readString (Char.ofNat unit :: read) rest
    | none => none
  | '\\' :: c :: rest =>
    match simpleEscape? c with
    | some c => readString (c :: read) rest
    | none => none
  | c :: rest => readString (c :: read) rest
  | [] => none

/-! ### Numbers -/

/-- The longest prefix of decimal digits and the rest. -/
def takeDigits (cs : List Char) : List Char × List Char :=
  cs.span fun c => '0' ≤ c && c ≤ '9'

/-- The number written by decimal digits. -/
def ofDigits (ds : List Char) : Nat := ds.foldl (fun n c => 10 * n + (c.toNat - 48)) 0

/-- The exponent of ten at the front of a text, none if there is none. -/
def readExponent (cs : List Char) : Option (Option Int × List Char) :=
  match cs with
  | e :: rest =>
    if e = 'e' ∨ e = 'E' then
      let (negative, rest) := match rest with
        | '-' :: rest => (true, rest)
        | '+' :: rest => (false, rest)
        | rest => (false, rest)
      let (ds, rest) := takeDigits rest
      if ds.isEmpty then none
      else some (some (if negative then -(ofDigits ds : Int) else ofDigits ds), rest)
    else some (none, cs)
  | [] => some (none, [])

/-- The number nearest to `mantissa · 10 ^ exponent`, with a sign. -/
def nearestDecimal (negative : Bool) (mantissa : Nat) (exponent : Int) : Float :=
  let x :=
    if exponent < 0 then Float.ofScientific mantissa true (-exponent).toNat
    else Float.ofScientific mantissa false exponent.toNat
  if negative then -x else x

/-- Reads a number. -/
def readNumber (cs : List Char) : Option (JsonNumber × List Char) := do
  let (negative, cs) := match cs with
    | '-' :: rest => (true, rest)
    | cs => (false, cs)
  let (whole, cs) := takeDigits cs
  if whole.isEmpty then none
  else
    let (places, cs) ← match cs with
      | '.' :: rest =>
        let (ds, rest) := takeDigits rest
        if ds.isEmpty then none else some (some ds, rest)
      | cs => some (none, cs)
    let (exponent, cs) ← readExponent cs
    let n : Int := if negative then -(ofDigits whole : Int) else ofDigits whole
    if places = none ∧ exponent = none ∧ ¬ (negative ∧ n = 0) ∧ -(Nat.pow 2 63 : Nat) ≤ n ∧
        n < (Nat.pow 2 64 : Nat) then
      some (.int n, cs)
    else
      let ds := places.getD []
      let power : Int := exponent.getD 0 - ds.length
      some (.float (nearestDecimal negative (ofDigits (whole ++ ds)) power), cs)

/-! ### Documents -/

/-- Reads a given word. -/
def readWord : List Char → List Char → Option (List Char)
  | [], cs => some cs
  | w :: word, c :: cs => if w = c then readWord word cs else none
  | _ :: _, [] => none

mutual

/-- Reads a document. -/
def readValue : (fuel : Nat) → List Char → Option (Json × List Char)
  | 0, _ => none
  | fuel + 1, cs =>
    match skipSpace cs with
    | '"' :: rest => (readString [] rest).map fun (s, rest) => (.string s, rest)
    | '[' :: rest =>
      match skipSpace rest with
      | ']' :: rest => some (.array [], rest)
      | rest => (readItems fuel rest).map fun (items, rest) => (.array items, rest)
    | '\x7b' :: rest =>
      match skipSpace rest with
      | '\x7d' :: rest => some (.object [], rest)
      | rest => (readMembers fuel rest).map fun (ms, rest) => (.object (sortMembers ms), rest)
    | 'n' :: rest => (readWord ['u', 'l', 'l'] rest).map fun rest => (.null, rest)
    | 't' :: rest => (readWord ['r', 'u', 'e'] rest).map fun rest => (.bool true, rest)
    | 'f' :: rest => (readWord ['a', 'l', 's', 'e'] rest).map fun rest => (.bool false, rest)
    | rest => (readNumber rest).map fun (n, rest) => (.number n, rest)

/-- Reads the items of an array that is not empty, after its opening bracket. -/
def readItems : (fuel : Nat) → List Char → Option (List Json × List Char)
  | 0, _ => none
  | fuel + 1, cs => do
    let (item, rest) ← readValue fuel cs
    match skipSpace rest with
    | ',' :: rest =>
      let (items, rest) ← readItems fuel rest
      some (item :: items, rest)
    | ']' :: rest => some ([item], rest)
    | _ => none

/-- Reads the members of an object that is not empty, after its opening brace. -/
def readMembers : (fuel : Nat) → List Char → Option (List (String × Json) × List Char)
  | 0, _ => none
  | fuel + 1, cs => do
    match skipSpace cs with
    | '"' :: rest =>
      let (key, rest) ← readString [] rest
      match skipSpace rest with
      | ':' :: rest =>
        let (value, rest) ← readValue fuel rest
        match skipSpace rest with
        | ',' :: rest =>
          let (members, rest) ← readMembers fuel rest
          some ((key, value) :: members, rest)
        | '\x7d' :: rest => some ([(key, value)], rest)
        | _ => none
      | _ => none
    | _ => none

end

/-- The document written by a text. -/
def ofString? (s : String) : Option Json :=
  let cs := s.toList
  match readValue (cs.length + 1) cs with
  | some (document, rest) => if (skipSpace rest).isEmpty then some document else none
  | none => none

end SchemaSampler.Json
