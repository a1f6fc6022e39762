import SchemaSampler.Text.Ranges

namespace SchemaSampler.Text

/-!
# Blanks — the characters that trimming removes

The characters with the property `White_Space`, with which a text is trimmed and which the class
`\s` of a pattern stands for.
-/

/-- The code points with the property `White_Space`. -/
def blankRanges : Ranges := #[
  (9, 13), (32, 32), (133, 133), (160, 160), (5760, 5760), (8192, 8202), (8232, 8233),
  (8239, 8239), (8287, 8287), (12288, 12288)]

/-- Whether a character is a blank. -/
def isBlank (c : Char) : Bool := blankRanges.has c

/-- Removes the blanks at the front. -/
def trimStart (text : List Char) : List Char := text.dropWhile isBlank

/-- Removes the blanks at both ends. -/
def trim (text : List Char) : List Char := (trimStart (trimStart text).reverse).reverse

end SchemaSampler.Text
