import SchemaSampler.Strategy.Basic

namespace SchemaSampler

/-!
# Memory — what strategies remember between draws
-/

/-- Contents by cell. -/
structure CellMap (α : Type) where
  /-- The cells with contents. -/
  entries : List (Cell × α)

namespace CellMap

variable {α : Type}

/-- No contents. -/
def empty : CellMap α := ⟨[]⟩

/-- The contents of a cell. -/
def find? (m : CellMap α) (cell : Cell) : Option α := m.entries.lookup cell

/-- Puts contents into a cell. -/
def put (m : CellMap α) (cell : Cell) (a : α) : CellMap α := ⟨go m.entries⟩
where
  /-- Replaces the contents of the cell in a list, or adds it at the end. -/
  go : List (Cell × α) → List (Cell × α)
    | [] => [(cell, a)]
    | (c, b) :: rest => if cell == c then (c, a) :: rest else (c, b) :: go rest

theorem lookup_put_go_self (cell : Cell) (a : α) (entries : List (Cell × α)) :
    (put.go cell a entries).lookup cell = some a := by
  induction entries with
  | nil => simp [put.go]
  | cons entry rest ih =>
    obtain ⟨c, b⟩ := entry
    simp only [put.go]
    split
    · rename_i h
      simp [List.lookup_cons, h]
    · rename_i h
      simp [List.lookup_cons, h, ih]

theorem lookup_put_go_of_ne {cell other : Cell} (h : other ≠ cell) (a : α)
    (entries : List (Cell × α)) :
    (put.go cell a entries).lookup other = entries.lookup other := by
  have differs : (other == cell) = false := by simpa using h
  induction entries with
  | nil => simp [put.go, List.lookup_cons, differs]
  | cons entry rest ih =>
    obtain ⟨c, b⟩ := entry
    simp only [put.go]
    split
    · rename_i hc
      obtain rfl : cell = c := by simpa using hc
      simp [List.lookup_cons, differs]
    · simp [List.lookup_cons, ih]

/-- The contents just put into a cell are found there. -/
@[simp] theorem find?_put_self (m : CellMap α) (cell : Cell) (a : α) :
    (m.put cell a).find? cell = some a :=
  lookup_put_go_self cell a m.entries

/-- The contents of all other cells stay as they were. -/
theorem find?_put_of_ne (m : CellMap α) {cell other : Cell} (h : other ≠ cell) (a : α) :
    (m.put cell a).find? other = m.find? other :=
  lookup_put_go_of_ne h a m.entries

end CellMap

/-- What strategies remember. -/
structure Memory where
  /-- The tallies of monitors. -/
  tallies : CellMap Tally
  /-- How often cycles and monitors took a turn. -/
  turns : CellMap Nat

namespace Memory

/-- The memory before the first draw. -/
def blank : Memory := ⟨.empty, .empty⟩

/-- The tally of a monitor. -/
def tally (m : Memory) (cell : Cell) : Tally := (m.tallies.find? cell).getD .zero

/-- The memory with a new tally of a monitor. -/
def setTally (m : Memory) (cell : Cell) (t : Tally) : Memory :=
  { m with tallies := m.tallies.put cell t }

/-- How often a cycle gave a value or a monitor tested one. -/
def turn (m : Memory) (cell : Cell) : Nat := (m.turns.find? cell).getD 0

/-- The memory with a new number of turns. -/
def setTurn (m : Memory) (cell : Cell) (n : Nat) : Memory :=
  { m with turns := m.turns.put cell n }

end Memory

end SchemaSampler
