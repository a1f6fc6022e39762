import SchemaSampler.Decimal.Text
import SchemaSampler.Text.Numeral

namespace SchemaSampler.Text

/-!
# Laws of numerals — reading back written digits

A number is written by digits below the base (`exists_digits`), and a reader takes exactly the
digits that were written if something else follows (`takeDigits_append`).
-/

variable {base n : Nat}

/-- A further digit shifts the others by one place. -/
theorem ofDigits_concat (ds : List Nat) (d : Nat) :
    ofDigits base (ds ++ [d]) = ofDigits base ds * base + d := by
  simp [ofDigits]

/-- The digits that a number is written with. -/
theorem exists_digits (large : 1 < base) (n : Nat) :
    ∃ ds : List Nat, Nat.toDigits base n = ds.map Nat.digitChar ∧ (∀ d ∈ ds, d < base) ∧
      ofDigits base ds = n := by
  induction n using Nat.strongRecOn with
  | ind n ih =>
    rw [Nat.toDigits_eq_if large]
    by_cases below : n < base
    · rw [if_pos below]
      exact ⟨[n], rfl, by simpa using below, by simp [ofDigits]⟩
    · rw [if_neg below]
      obtain ⟨ds, written, each, value⟩ := ih (n / base) (Nat.div_lt_self (by omega) large)
      refine ⟨ds ++ [n % base], by simp [written], fun d member => ?_, ?_⟩
      · rcases List.mem_append.mp member with member | member
        · exact each d member
        · rw [List.mem_singleton.mp member]
          exact Nat.mod_lt n (by omega)
      · rw [ofDigits_concat, value, Nat.mul_comm, Nat.div_add_mod]

/-- A hexadecimal digit is read as what was written. -/
theorem hexValue?_digitChar {d : Nat} (h : d < 16) : hexValue? d.digitChar = some d := by
  have all : ∀ d < 16, hexValue? (Nat.digitChar d) = some d := by decide
  exact all d h

/-- So is a decimal one. -/
theorem decimalValue?_digitChar {d : Nat} (h : d < 10) : decimalValue? d.digitChar = some d := by
  have all : ∀ d < 10, decimalValue? (Nat.digitChar d) = some d := by decide
  exact all d h

/-- A reader takes the digits up to something else. -/
theorem takeDigits_append {value? : Char → Option Nat} {ds : List Nat} {rest : List Char}
    (digits : ∀ d ∈ ds, value? d.digitChar = some d)
    (stop : ∀ c, rest.head? = some c → value? c = none) :
    takeDigits value? (ds.map Nat.digitChar ++ rest) = (ds, rest) := by
  induction ds with
  | nil =>
    cases rest with
    | nil => rfl
    | cons c rest => simp [takeDigits, stop c rfl]
  | cons d ds ih =>
    rw [List.map_cons, List.cons_append, takeDigits, digits d (by simp)]
    simp only
    rw [ih fun d member => digits d (by simp [member])]

end SchemaSampler.Text
