import SchemaSampler.Text.CaseTable

namespace SchemaSampler.Text

/-!
# Casing — a text in lower or upper case

Each character is mapped on its own by the case table, with one exception: a capital sigma
at the end of a word becomes a final sigma.
-/

/-- The image of one character under a case mapping given by runs and expansions. -/
def mapCase (runs : Array CaseRun) (expansions : Array (Nat × List Nat)) (c : Char) : List Char :=
  match expansions.find? (·.1 == c.toNat) with
  | some (_, image) => image.map Char.ofNat
  | none =>
    match runs.find? fun r =>
        r.first ≤ c.toNat && c.toNat ≤ r.last && (c.toNat - r.first) % r.stride == 0 with
    | some r => [Char.ofNat (c.toNat + r.offset).toNat]
    | none => [c]

/-- Whether the first character that is not case-ignorable is a cased one. -/
def startsCased (text : List Char) : Bool :=
  match text.dropWhile caseIgnorableRanges.has with
  | c :: _ => casedRanges.has c
  | [] => false

/-- Lower case of the rest of a text, given the characters before it in reverse: a capital
    sigma after a cased letter and not before one is final. -/
def lowerAfter (before : List Char) : List Char → List Char
  | [] => []
  | c :: rest =>
    let image :=
      if c = 'Σ' then [if startsCased before && !startsCased rest then 'ς' else 'σ']
      else mapCase lowerRuns lowerExpansions c
    image ++ lowerAfter (c :: before) rest

/-- A text in lower case. -/
def lower (text : List Char) : List Char := lowerAfter [] text

/-- A text in upper case. -/
def upper (text : List Char) : List Char := text.flatMap (mapCase upperRuns upperExpansions)

end SchemaSampler.Text
