import SchemaSampler.Text.Blank
import SchemaSampler.Text.Word

namespace SchemaSampler

/-!
# Sets of characters

A set of characters is a list of ranges of code points.  `has_union`, `has_remove`, `has_inter`,
`has_symmDiff` and `has_complement` say which characters the operations on sets leave.
-/

/-- A set of characters, as closed ranges of code points. -/
structure CharSet where
  /-- The ranges, in any order. -/
  ranges : List (Nat × Nat)
deriving DecidableEq, Repr

namespace CharSet

/-- Whether a code point lies in a range. -/
def covers (range : Nat × Nat) (n : Nat) : Bool := range.1 ≤ n && n ≤ range.2

/-- Whether a character belongs to the set. -/
def has (s : CharSet) (c : Char) : Bool := s.ranges.any (covers · c.toNat)

/-! ### Sets by their members -/

/-- The set without members. -/
def empty : CharSet := ⟨[]⟩

/-- The set of a single character. -/
def single (c : Char) : CharSet := ⟨[(c.toNat, c.toNat)]⟩

/-- The set of the characters from one to another. -/
def between (first last : Char) : CharSet := ⟨[(first.toNat, last.toNat)]⟩

/-- The characters of a list. -/
def ofList (cs : List Char) : CharSet := ⟨cs.map fun c => (c.toNat, c.toNat)⟩

/-- All characters: the code points without the surrogates. -/
def all : CharSet := ⟨[(0, 0xd7ff), (0xe000, 0x10ffff)]⟩

/-! ### Operations -/

/-- The characters of either set. -/
def union (s t : CharSet) : CharSet := ⟨s.ranges ++ t.ranges⟩

/-- What is left of a range when another one is taken out of it. -/
def cut (taken range : Nat × Nat) : List (Nat × Nat) :=
  if taken.2 < range.1 ∨ range.2 < taken.1 then [range]
  else
    (if range.1 < taken.1 then [(range.1, taken.1 - 1)] else []) ++
      (if taken.2 < range.2 then [(taken.2 + 1, range.2)] else [])

/-- The characters of the first set that are not in the second. -/
def remove (s t : CharSet) : CharSet :=
  ⟨t.ranges.foldl (fun left taken => left.flatMap (cut taken)) s.ranges⟩

/-- The characters that are in both sets. -/
def inter (s t : CharSet) : CharSet := s.remove (s.remove t)

/-- The characters that are in exactly one of the sets. -/
def symmDiff (s t : CharSet) : CharSet := (s.remove t).union (t.remove s)

/-- The characters that do not belong to the set. -/
def complement (s : CharSet) : CharSet := all.remove s

/-! ### Members of the results -/

theorem has_union (s t : CharSet) (c : Char) : (s.union t).has c = (s.has c || t.has c) := by
  simp [has, union]

/-- Taking a range out of another one leaves the code points of the other alone. -/
theorem any_covers_cut (taken range : Nat × Nat) (n : Nat) :
    (cut taken range).any (covers · n) = (covers range n && !covers taken n) := by
  simp only [cut, covers]
  grind

theorem any_covers_flatMap_cut (taken : Nat × Nat) (ranges : List (Nat × Nat)) (n : Nat) :
    (ranges.flatMap (cut taken)).any (covers · n) =
      (ranges.any (covers · n) && !covers taken n) := by
  induction ranges with
  | nil => rfl
  | cons r ranges ih =>
    rw [List.flatMap_cons, List.any_append, ih, any_covers_cut, List.any_cons,
      Bool.and_or_distrib_right]

/-- Taking ranges out of others, one after the other. -/
theorem any_covers_foldl_cut (taken ranges : List (Nat × Nat)) (n : Nat) :
    (taken.foldl (fun left t => left.flatMap (cut t)) ranges).any (covers · n) =
      (ranges.any (covers · n) && !taken.any (covers · n)) := by
  induction taken generalizing ranges with
  | nil => simp
  | cons t taken ih =>
    rw [List.foldl_cons, ih, any_covers_flatMap_cut, List.any_cons, Bool.not_or, Bool.and_assoc]

theorem has_remove (s t : CharSet) (c : Char) :
    (s.remove t).has c = (s.has c && !t.has c) :=
  any_covers_foldl_cut t.ranges s.ranges c.toNat

theorem has_inter (s t : CharSet) (c : Char) : (s.inter t).has c = (s.has c && t.has c) := by
  simp only [inter, has_remove]
  cases s.has c <;> simp

theorem has_symmDiff (s t : CharSet) (c : Char) :
    (s.symmDiff t).has c = (s.has c != t.has c) := by
  simp only [symmDiff, has_union, has_remove]
  cases s.has c <;> cases t.has c <;> rfl

theorem has_all (c : Char) : all.has c = true := by
  have h : c.toNat < 0xd800 ∨ 0xdfff < c.toNat ∧ c.toNat < 0x110000 := c.valid
  simp only [has, all, covers, List.any_cons, List.any_nil]
  grind

theorem has_complement (s : CharSet) (c : Char) : s.complement.has c = !s.has c := by
  simp [complement, has_remove, has_all]

/-! ### Named sets -/

/-- The blanks. -/
def blank : CharSet := ⟨Text.blankRanges.toList⟩

/-- The decimal digits of all scripts. -/
def decimal : CharSet := ⟨Text.decimalRanges.toList⟩

/-- The characters of words. -/
def word : CharSet := ⟨Text.wordRanges.toList⟩

/-- The ASCII digits. -/
def digit : CharSet := between '0' '9'

/-- The small ASCII letters. -/
def small : CharSet := between 'a' 'z'

/-- The capital ASCII letters. -/
def capital : CharSet := between 'A' 'Z'

/-- The ASCII letters. -/
def letter : CharSet := capital.union small

/-- The ASCII letters and digits. -/
def alphanumeric : CharSet := letter.union digit

/-- The ASCII characters that leave a mark on paper. -/
def graphic : CharSet := between '!' '~'

/-- The hexadecimal digits of either case. -/
def hexadecimal : CharSet := (digit.union (between 'a' 'f')).union (between 'A' 'F')

/-- The sets of ASCII characters that have a name of their own inside a class. -/
def ascii? : (name : String) → Option CharSet
  | "alnum" => some alphanumeric
  | "alpha" => some letter
  | "ascii" => some (between '\x00' '\x7f')
  | "blank" => some (ofList ['\t', ' '])
  | "cntrl" => some ((between '\x00' '\x1f').union (single '\x7f'))
  | "digit" => some digit
  | "graph" => some graphic
  | "lower" => some small
  | "print" => some (graphic.union (single ' '))
  | "punct" => some (graphic.remove alphanumeric)
  | "space" => some ((between '\t' '\r').union (single ' '))
  | "upper" => some capital
  | "word" => some (alphanumeric.union (single '_'))
  | "xdigit" => some hexadecimal
  | _ => none

end CharSet

end SchemaSampler
