import SchemaSampler.Decimal.Text
import SchemaSampler.Text.Numeral

namespace SchemaSampler.Net

/-!
# Internet addresses — reading and writing

* Version 4: four decimal numbers up to 255, without leading zeros, joined by points.
* Version 6: eight groups of one to four hexadecimal digits joined by colons.  One run of zero
  groups may be left out as `::`, and the last two groups may be written as a version 4 address.

A reader takes a text and returns what it read with the rest of the text.
-/

open Text (hexValue? decimalValue? takeDigits ofDigits)

/-- Reads a character. -/
def readMark (mark : Char) : List Char → Option (List Char)
  | c :: rest => if c = mark then some rest else none
  | [] => none

/-! ### Version 4 -/

/-- Reads one part of a version 4 address. -/
def readOctet (text : List Char) : Option (Nat × List Char) :=
  let (ds, rest) := takeDigits decimalValue? text
  let n := ofDigits 10 ds
  if ds.isEmpty || ds.length > 3 || n > 255 || (ds.length > 1 && ds.head? == some 0) then none
  else some (n, rest)

/-- Reads a version 4 address. -/
def readV4 (text : List Char) : Option (List Nat × List Char) := do
  let (a, text) ← readOctet text
  let (b, text) ← readOctet (← readMark '.' text)
  let (c, text) ← readOctet (← readMark '.' text)
  let (d, text) ← readOctet (← readMark '.' text)
  some ([a, b, c, d], text)

/-- Whether a text is a version 4 address. -/
def isV4 (text : List Char) : Bool :=
  match readV4 text with
  | some (_, rest) => rest.isEmpty
  | none => false

/-- The text of a version 4 address. -/
def textV4 (a b c d : Nat) : List Char :=
  let part := Decimal.digits
  part a ++ '.' :: part b ++ '.' :: part c ++ '.' :: part d

/-! ### Version 6 -/

/-- Reads one group of hexadecimal digits. -/
def readGroup (text : List Char) : Option (Nat × List Char) :=
  let (ds, rest) := takeDigits hexValue? text
  if ds.isEmpty || ds.length > 4 then none else some (ofDigits 16 ds, rest)

/-- Reads a separator in front of every group but the first. -/
def readSeparated (first : Bool) (text : List Char) : Option (List Char) :=
  if first then some text else readMark ':' text

/-- Reads groups while they come, at most `limit`, of which a version 4 address fills two.
    Returns their number, whether a version 4 address ended them, and the rest. -/
def readGroups : (limit : Nat) → (first : Bool) → List Char → Nat × Bool × List Char
  | 0, _, text => (0, false, text)
  | limit + 1, first, text =>
    match readSeparated first text with
    | none => (0, false, text)
    | some inner =>
      match if limit = 0 then none else readV4 inner with
      | some (_, rest) => (2, true, rest)
      | none =>
        match readGroup inner with
        | some (_, rest) =>
          let (count, v4, rest) := readGroups limit false rest
          (count + 1, v4, rest)
        | none => (0, false, text)

/-- Whether a text is a version 6 address. -/
def isV6 (text : List Char) : Bool :=
  let (front, v4, rest) := readGroups 8 true text
  if front = 8 then rest.isEmpty
  else if v4 then false
  else
    match rest with
    | ':' :: ':' :: back =>
      let (_, _, rest) := readGroups (7 - front) true back
      rest.isEmpty
    | _ => false

/-- The text of a group. -/
def groupText (n : Nat) : List Char := Nat.toDigits 16 n

/-- Groups joined by colons. -/
def joinGroups : List Nat → List Char
  | [] => []
  | [g] => groupText g
  | g :: rest => groupText g ++ ':' :: joinGroups rest

/-- The length of the run of zeros at the front. -/
def zeroRun (groups : List Nat) : Nat := (groups.takeWhile (· == 0)).length

/-- Start and length of the longest run of zero groups, the first of equally long ones. -/
def longestZeroRun : (start : Nat) → List Nat → Nat × Nat
  | start, [] => (start, 0)
  | start, g :: rest =>
    let here := zeroRun (g :: rest)
    let (later, length) := longestZeroRun (start + 1) rest
    if length ≤ here then (start, here) else (later, length)

/-- Groups joined by colons, where the longest run of at least two zero groups is left out. -/
def joinShort (groups : List Nat) : List Char :=
  let (start, length) := longestZeroRun 0 groups
  if length > 1 then
    joinGroups (groups.take start) ++ "::".toList ++ joinGroups (groups.drop (start + length))
  else joinGroups groups

/-- The text of a version 6 address: an address that stands for one of version 4 shows it. -/
def textV6 (groups : List Nat) : List Char :=
  match groups with
  | [a, b, c, d, e, f, high, low] =>
    if [a, b, c, d, e, f] = [0, 0, 0, 0, 0, 0xffff] then
      "::ffff:".toList ++ textV4 (high / 256) (high % 256) (low / 256) (low % 256)
    else joinShort groups
  | _ => joinShort groups

end SchemaSampler.Net
