import SchemaSampler.Text.Blank
import SchemaSampler.Text.Casing

namespace SchemaSampler.Text

/-!
# Lengths of changed texts — trimming shortens, other cases lengthen

Trimming only removes characters (`length_trim_le`).  A case mapping makes one character or several
of each one, so that no text gets shorter in lower or upper case (`length_le_lower`,
`length_le_upper`).
-/

/-! ### Trimming -/

/-- Skipping blanks makes no text longer. -/
theorem length_trimStart_le (text : List Char) : (trimStart text).length ≤ text.length :=
  (List.dropWhile_suffix isBlank).length_le

/-- A trimmed text is not longer. -/
theorem length_trim_le (text : List Char) : (trim text).length ≤ text.length := by
  rw [trim, List.length_reverse]
  calc (trimStart (trimStart text).reverse).length
      ≤ (trimStart text).reverse.length := length_trimStart_le _
    _ = (trimStart text).length := List.length_reverse
    _ ≤ text.length := length_trimStart_le text

/-! ### Case mappings -/

/-- Whether an expansion table maps no character to the empty text. -/
def keepsSome (expansions : Array (Nat × List Nat)) : Bool :=
  expansions.toList.all fun (_, image) => 0 < image.length

theorem keepsSome_lowerExpansions : keepsSome lowerExpansions = true := by decide

theorem keepsSome_upperExpansions : keepsSome upperExpansions = true := by decide

/-- A character is mapped to one character or to several. -/
theorem length_mapCase_pos {expansions : Array (Nat × List Nat)}
    (keeps : keepsSome expansions = true) (runs : Array CaseRun) (c : Char) :
    0 < (mapCase runs expansions c).length := by
  rw [mapCase]
  split
  · rename_i code image found
    rw [List.length_map]
    have member := (Array.mem_of_find?_eq_some found).val
    exact of_decide_eq_true (List.all_eq_true.mp keeps _ member)
  · split <;> exact Nat.one_pos

/-- A text in upper case is not shorter. -/
theorem length_le_upper (text : List Char) : text.length ≤ (upper text).length := by
  rw [upper]
  induction text with
  | nil => exact Nat.le_refl 0
  | cons c rest ih =>
    have image := length_mapCase_pos keepsSome_upperExpansions upperRuns c
    rw [List.flatMap_cons, List.length_append, List.length_cons]
    omega

/-- A text in small letters is no shorter, whatever stood before it. -/
theorem length_le_lowerAfter (before text : List Char) :
    text.length ≤ (lowerAfter before text).length := by
  induction text generalizing before with
  | nil => exact Nat.le_refl 0
  | cons c rest ih =>
    have others := ih (c :: before)
    rw [lowerAfter, List.length_append, List.length_cons]
    split
    · rw [List.length_singleton]
      omega
    · have image := length_mapCase_pos keepsSome_lowerExpansions lowerRuns c
      omega

/-- A text in lower case is not shorter. -/
theorem length_le_lower (text : List Char) : text.length ≤ (lower text).length :=
  length_le_lowerAfter [] text

end SchemaSampler.Text
