import Mathlib.Data.List.Basic
import SchemaSampler.Proofs.Calendar.Timestamp

namespace SchemaSampler.Calendar

open Text

/-!
# The outline of timestamps — which texts the tests and readers take

The test of the outline counts bytes, and the reader of the parts skips blanks.  What each of them
says about a text:

* `withoutZone?_eq_some_iff` — the text ends with a zone.
* `fractionLength?_eq_some_iff` — it has four digits in front, a `T` after ten bytes, and a fraction
  or nothing after nineteen.
* `readNumber_append`, `exists_of_readNumber` — a reader of numbers takes blanks and digits, and
  nothing else; of two places that is a field (`readNumber_field`, `exists_field`).
-/

/-! ### Digits and blanks -/

/-- A run of ASCII digits. -/
def IsDigits (ds : List Char) : Prop := ∀ c ∈ ds, isDigit c = true

/-- What follows does not go on with a digit. -/
def Stops (rest : List Char) : Prop := ∀ c, rest.head? = some c → isDigit c = false

/-- A digit is written for a number below ten. -/
theorem exists_digitChar {c : Char} (h : isDigit c = true) : ∃ d < 10, c = Nat.digitChar d := by
  simp only [isDigit, Bool.and_eq_true, decide_eq_true_eq] at h
  have least : 48 ≤ c.toNat := h.1
  have most : c.toNat ≤ 57 := h.2
  have all : ∀ d < 10, Char.ofNat (48 + d) = Nat.digitChar d := by decide
  refine ⟨c.toNat - 48, by omega, ?_⟩
  rw [← all (c.toNat - 48) (by omega), Nat.add_sub_cancel' least, Char.ofNat_toNat]

/-- Digits are no blanks. -/
theorem isBlank_of_isDigit {c : Char} (h : isDigit c = true) : isBlank c = false := by
  obtain ⟨d, small, rfl⟩ := exists_digitChar h
  exact isBlank_digitChar small

/-- A digit takes one byte. -/
theorem IsDigits.singleBytes {ds : List Char} (h : IsDigits ds) : SingleBytes ds := by
  have all : ∀ d < 10, (Nat.digitChar d).utf8Size = 1 := by decide
  intro c member
  obtain ⟨d, small, rfl⟩ := exists_digitChar (h c member)
  exact all d small

/-- No other characters are among digits. -/
theorem IsDigits.not_mem {ds : List Char} (h : IsDigits ds) {c : Char}
    (other : isDigit c = false) : c ∉ ds := by
  intro member
  rw [h c member] at other
  cases other

/-- A number stops at what is no digit. -/
theorem stops_cons {c : Char} (other : isDigit c = false) (rest : List Char) :
    Stops (c :: rest) := by
  rintro _ ⟨⟩
  exact other

/-! ### Bytes -/

/-- The bytes of two texts add up. -/
theorem byteCount_append (front back : List Char) :
    byteCount (front ++ back) = byteCount front + byteCount back := by
  -- The count of the front is what the count of the back starts from.
  have from_start : ∀ (text : List Char) (n : Nat),
      text.foldl (fun n c => n + c.utf8Size) n = n + byteCount text := by
    intro text
    induction text with
    | nil => exact fun n => rfl
    | cons c text ih =>
      intro n
      rw [byteCount, List.foldl_cons, List.foldl_cons, ih, ih (0 + c.utf8Size)]
      omega
  rw [byteCount, List.foldl_append, from_start]
  rfl

/-- A character adds its bytes. -/
theorem byteCount_cons (c : Char) (text : List Char) :
    byteCount (c :: text) = c.utf8Size + byteCount text := by
  have := byteCount_append [c] text
  rwa [List.singleton_append, show byteCount [c] = c.utf8Size from Nat.zero_add _] at this

/-- A text without bytes is empty, as a character takes a byte or more. -/
theorem byteCount_eq_zero_iff {text : List Char} : byteCount text = 0 ↔ text = [] := by
  cases text with
  | nil => exact ⟨fun _ => rfl, fun _ => rfl⟩
  | cons c rest =>
    have positive := c.utf8Size_pos
    rw [byteCount_cons]
    exact ⟨fun h => by omega, nofun⟩

/-- Nothing is split off for no bytes. -/
theorem splitBytes_zero (text : List Char) : splitBytes 0 text = some ([], text) := by
  cases text <;> rfl

/-- A text is split where the bytes in front are as many as wanted. -/
theorem splitBytes_eq_some_iff {count : Nat} {text front back : List Char} :
    splitBytes count text = some (front, back) ↔
      text = front ++ back ∧ byteCount front = count := by
  have at_once (text front : List Char) : splitBytes 0 text = some (front, back) ↔
      text = front ++ back ∧ byteCount front = 0 := by
    rw [splitBytes_zero, byteCount_eq_zero_iff, Option.some.injEq, Prod.mk.injEq]
    constructor
    · rintro ⟨rfl, rfl⟩
      exact ⟨rfl, rfl⟩
    · rintro ⟨rfl, rfl⟩
      exact ⟨rfl, rfl⟩
  induction text generalizing count front with
  | nil =>
    cases count with
    | zero => exact at_once _ _
    | succ count =>
      constructor
      · intro h
        cases h
      · rintro ⟨same, bytes⟩
        obtain ⟨rfl, rfl⟩ := List.append_eq_nil_iff.mp same.symm
        cases bytes
  | cons c rest ih =>
    have positive := c.utf8Size_pos
    cases count with
    | zero => exact at_once _ _
    | succ count =>
      have step : splitBytes (count + 1) (c :: rest) =
          if c.utf8Size ≤ count + 1 then
            (splitBytes (count + 1 - c.utf8Size) rest).map fun p => (c :: p.1, p.2)
          else none := rfl
      rw [step]
      constructor
      · intro h
        split at h
        · obtain ⟨⟨front', back'⟩, found, same⟩ := Option.map_eq_some_iff.mp h
          cases same
          obtain ⟨rfl, bytes⟩ := ih.mp found
          rw [byteCount_cons, bytes]
          exact ⟨rfl, by omega⟩
        · cases h
      · rintro ⟨same, bytes⟩
        cases front with
        | nil => cases bytes
        | cons d front =>
          rw [List.cons_append, List.cons.injEq] at same
          obtain ⟨rfl, same⟩ := same
          rw [byteCount_cons] at bytes
          rw [if_pos (by omega), ih.mpr ⟨same, by omega⟩]
          rfl

/-! ### The zone -/

/-- The zone at the end of a timestamp: `Z`, or a sign, hours and minutes where an offset is
    allowed. -/
inductive IsZone (allowOffset : Bool) : List Char → Prop where
  | zulu : IsZone allowOffset ['Z']
  | offset {sign h h' m m' : Char} (allowed : allowOffset = true)
      (signed : sign = '+' ∨ sign = '-') (digits : IsDigits [h, h', m, m']) :
      IsZone allowOffset [sign, h, h', ':', m, m']

/-- A number stops at a zone. -/
theorem IsZone.stops {allowOffset : Bool} {zone : List Char} (h : IsZone allowOffset zone) :
    Stops zone := by
  cases h with
  | zulu => exact stops_cons (by decide) _
  | offset _ signed _ => rcases signed with rfl | rfl <;> exact stops_cons (by decide) _

/-- A text is an offset if it is a sign, two digits, a colon and two digits. -/
theorem isOffset_iff {zone : List Char} : isOffset zone = true ↔ ∃ sign h h' m m' : Char,
    zone = [sign, h, h', ':', m, m'] ∧ (sign = '+' ∨ sign = '-') ∧ IsDigits [h, h', m, m'] := by
  constructor
  · intro h
    unfold isOffset at h
    split at h
    · rename_i sign a b colon c d
      simp only [Bool.and_eq_true, Bool.or_eq_true, beq_iff_eq] at h
      obtain ⟨⟨⟨⟨⟨signed, ha⟩, hb⟩, rfl⟩, hc⟩, hd⟩ := h
      exact ⟨sign, a, b, c, d, rfl, signed, by simp [IsDigits, ha, hb, hc, hd]⟩
    · cases h
  · rintro ⟨sign, h, h', m, m', rfl, signed, digits⟩
    simp only [IsDigits, List.forall_mem_cons] at digits
    obtain ⟨hh, hh', hm, hm', -⟩ := digits
    simp [isOffset, signed, hh, hh', hm, hm']

/-- What is left without the zone, and the zone, make the text. -/
theorem withoutZone?_eq_some_iff {allowOffset : Bool} {text body : List Char} :
    withoutZone? allowOffset text = some body ↔
      ∃ zone, text = body ++ zone ∧ IsZone allowOffset zone := by
  constructor
  · intro h
    unfold withoutZone? at h
    split at h
    · rename_i last
      cases h
      exact ⟨['Z'], (List.dropLast_append_getLast? _ last).symm, .zulu⟩
    · split at h
      · rename_i allowed
        split at h
        · rename_i front zone split_there
          split at h
          · rename_i offset
            cases h
            obtain ⟨sign, a, b, c, d, rfl, signed, digits⟩ := isOffset_iff.mp offset
            exact ⟨_, (splitBytes_eq_some_iff.mp split_there).1, .offset allowed signed digits⟩
          · cases h
        · cases h
      · cases h
  · rintro ⟨zone, rfl, is_zone⟩
    cases is_zone with
    | zulu => simp [withoutZone?]
    | @offset sign a b c d allowed signed digits =>
      -- The last character is a digit, so the text is not taken for one that ends in `Z`.
      have not_zulu : (body ++ [sign, a, b, ':', c, d]).getLast? ≠ some 'Z' := by
        have last : d ≠ 'Z' := by
          intro same
          have digit := digits d (by simp)
          rw [same] at digit
          cases digit
        rw [List.getLast?_append_of_ne_nil _ (by simp)]
        simpa using last
      have six : byteCount [sign, a, b, ':', c, d] = 6 := by
        rw [byteCount_eq_length]
        · rfl
        · refine singleBytes_cons (by rcases signed with rfl | rfl <;> decide) ?_
          intro e member
          by_cases colon : e = ':'
          · rw [colon]
            decide
          · refine digits.singleBytes e ?_
            simp only [List.mem_cons, List.not_mem_nil, or_false] at member ⊢
            tauto
      have split_there : splitBytes (byteCount (body ++ [sign, a, b, ':', c, d]) - 6)
          (body ++ [sign, a, b, ':', c, d]) = some (body, [sign, a, b, ':', c, d]) := by
        rw [splitBytes_eq_some_iff, byteCount_append, six, Nat.add_sub_cancel]
        exact ⟨rfl, rfl⟩
      rw [withoutZone?, if_neg not_zulu, if_pos allowed, split_there]
      exact if_pos (isOffset_iff.mpr ⟨sign, a, b, c, d, rfl, signed, digits⟩)

/-! ### The outline -/

/-- The fraction of a timestamp with its number of digits: nothing, or a point and digits. -/
inductive Decimals : Nat → List Char → Prop where
  | none : Decimals 0 []
  | digits {ds : List Char} (nonempty : ds ≠ []) (digits : IsDigits ds) :
      Decimals ds.length ('.' :: ds)

/-- Decimals are a point with digits, or nothing. -/
theorem Decimals.eq_nil_or_cons {n : Nat} {fraction : List Char} (h : Decimals n fraction) :
    fraction = [] ∨ ∃ ds, fraction = '.' :: ds ∧ IsDigits ds := by
  cases h with
  | none => exact .inl rfl
  | digits _ digits => exact .inr ⟨_, rfl, digits⟩

/-- Only digits and the point are among decimals. -/
theorem Decimals.not_mem {n : Nat} {fraction : List Char} (h : Decimals n fraction) {c : Char}
    (other : isDigit c = false) (no_point : c ≠ '.') : c ∉ fraction := by
  cases h with
  | none => exact List.not_mem_nil
  | digits _ digits => simp [no_point, digits.not_mem other]

/-- The outline asks for four digits in front, a `T` after ten bytes, and a fraction after
    nineteen bytes. -/
theorem fractionLength?_eq_some_iff {body : List Char} {n : Nat} :
    fractionLength? body = some n ↔ ((body.take 4).length = 4 ∧ IsDigits (body.take 4)) ∧
      (∃ front rest, body = front ++ 'T' :: rest ∧ byteCount front = 10) ∧
      ∃ front rest, body = front ++ rest ∧ byteCount front = 19 ∧ Decimals n rest := by
  have year : ((body.take 4).length = 4 ∧ (body.take 4).all isDigit = true) ↔
      ((body.take 4).length = 4 ∧ IsDigits (body.take 4)) := by rw [List.all_eq_true, IsDigits]
  rw [← year]
  unfold fractionLength?
  constructor
  · intro h
    split at h
    · rename_i four
      split at h
      · rename_i front rest front' rest' split_T split_end
        refine ⟨four, ⟨front, rest, splitBytes_eq_some_iff.mp split_T⟩, front', rest', ?_⟩
        obtain ⟨whole, bytes⟩ := splitBytes_eq_some_iff.mp split_end
        refine ⟨whole, bytes, ?_⟩
        split at h
        · cases h
          exact .none
        · split at h
          · rename_i digits
            cases h
            exact .digits digits.1 (List.all_eq_true.mp digits.2)
          · cases h
        · cases h
      · cases h
    · cases h
  · rintro ⟨four, ⟨front, rest, split_T⟩, front', rest', whole, bytes, decimals⟩
    rw [if_pos four, splitBytes_eq_some_iff.mpr split_T, splitBytes_eq_some_iff.mpr ⟨whole, bytes⟩]
    cases decimals with
    | none => rfl
    | digits nonempty digits => exact if_pos ⟨nonempty, List.all_eq_true.mpr digits⟩

/-! ### Numbers -/

/-- A reader of numbers takes blanks and as many digits as there are, up to its width. -/
theorem readNumber_append {width : Nat} {blanks ds rest : List Char}
    (blank : ∀ c ∈ blanks, isBlank c = true) (digits : IsDigits ds) (nonempty : ds ≠ [])
    (fits : ds.length ≤ width) (stop : ds.length = width ∨ Stops rest) :
    readNumber width (blanks ++ ds ++ rest) = some (numberOf ds, rest) := by
  have trimmed : trimStart (blanks ++ ds ++ rest) = ds ++ rest := by
    rw [trimStart, List.append_assoc, List.dropWhile_append_of_pos blank]
    cases ds with
    | nil => exact absurd rfl nonempty
    | cons d ds =>
      rw [List.cons_append, List.dropWhile_cons, isBlank_of_isDigit (digits d (by simp))]
      rfl
  -- No further digit is taken, as the width is full or none follows.
  have behind : (rest.take (width - ds.length)).takeWhile isDigit = [] := by
    rcases stop with full | stop
    · rw [full, Nat.sub_self]
      rfl
    · cases rest with
      | nil => rw [List.take_nil, List.takeWhile_nil]
      | cons c rest =>
        cases width - ds.length with
        | zero => rfl
        | succ k => rw [List.take_succ_cons, List.takeWhile_cons, stop c rfl]; rfl
  have taken : ((ds ++ rest).take width).takeWhile isDigit = ds := by
    rw [List.take_append, List.take_of_length_le fits, List.takeWhile_append_of_pos digits, behind,
      List.append_nil]
  have present : ds.isEmpty = false := List.isEmpty_eq_false_iff.mpr nonempty
  rw [readNumber, trimmed]
  simp only [taken, present, Bool.false_eq_true, if_false, List.drop_left]

/-- As many digits as asked for are read as their number. -/
theorem readNumber_digits {width : Nat} {ds : List Char} (digits : IsDigits ds)
    (full : ds.length = width) (positive : 0 < width) (rest : List Char) :
    readNumber width (ds ++ rest) = some (numberOf ds, rest) :=
  @readNumber_append width [] ds rest nofun digits (List.ne_nil_of_length_pos (full ▸ positive))
    (Nat.le_of_eq full) (.inl full)

/-- What a reader of numbers takes are blanks and digits. -/
theorem exists_of_readNumber {width n : Nat} {text rest : List Char}
    (h : readNumber width text = some (n, rest)) : ∃ blanks ds, text = blanks ++ ds ++ rest ∧
      (∀ c ∈ blanks, isBlank c = true) ∧ IsDigits ds ∧ ds ≠ [] ∧ ds.length ≤ width ∧
        n = numberOf ds := by
  simp only [readNumber] at h
  split at h
  · cases h
  · rename_i present
    cases h
    refine ⟨text.takeWhile isBlank, ((trimStart text).take width).takeWhile isDigit, ?_, ?_, ?_,
      ?_, ?_, rfl⟩
    · have front : ((trimStart text).take width).takeWhile isDigit <+: trimStart text :=
        (List.takeWhile_prefix _).trans (List.take_prefix _ _)
      rw [List.append_assoc, List.prefix_iff_eq_append.mp front, trimStart,
        List.takeWhile_append_dropWhile]
    · exact List.all_eq_true.mp List.all_takeWhile
    · exact List.all_eq_true.mp List.all_takeWhile
    · simpa [List.isEmpty_iff] using present
    · exact Nat.le_trans (List.takeWhile_prefix _).length_le (List.length_take_le _ _)

/-! ### Fields -/

/-- A field of two places as the reader takes it: one digit or two, with any blanks in front. -/
def IsField (field : List Char) : Prop :=
  ∃ blanks ds, field = blanks ++ ds ∧ (∀ c ∈ blanks, isBlank c = true) ∧ IsDigits ds ∧ ds ≠ [] ∧
    ds.length ≤ 2

/-- The number in a field. -/
def fieldValue (field : List Char) : Nat := numberOf (trimStart field)

/-- Blanks in front of digits are skipped, and digits are not. -/
theorem trimStart_digits {blanks ds : List Char} (blank : ∀ c ∈ blanks, isBlank c = true)
    (digits : IsDigits ds) : trimStart (blanks ++ ds) = ds := by
  rw [trimStart, List.dropWhile_append_of_pos blank]
  cases ds with
  | nil => rfl
  | cons d ds =>
    rw [List.dropWhile_cons, isBlank_of_isDigit (digits d List.mem_cons_self)]
    rfl

/-- A field of digits alone has their number. -/
theorem fieldValue_digits {ds : List Char} (digits : IsDigits ds) :
    fieldValue ds = numberOf ds := by
  have trimmed : trimStart ([] ++ ds) = ds := trimStart_digits (by simp) digits
  rw [fieldValue, ← List.nil_append ds, trimmed]
  rfl

/-- Only digits and blanks are in a field. -/
theorem IsField.not_mem {field : List Char} (h : IsField field) {c : Char}
    (no_digit : isDigit c = false) (no_blank : isBlank c = false) : c ∉ field := by
  obtain ⟨blanks, ds, rfl, blank, digits, -⟩ := h
  intro member
  rcases List.mem_append.mp member with member | member
  · rw [blank c member] at no_blank
    cases no_blank
  · exact digits.not_mem no_digit member

/-- A field is read as its number. -/
theorem readNumber_field {field rest : List Char} (h : IsField field) (stop : Stops rest) :
    readNumber 2 (field ++ rest) = some (fieldValue field, rest) := by
  obtain ⟨blanks, ds, rfl, blank, digits, nonempty, short⟩ := h
  rw [readNumber_append blank digits nonempty short (.inr stop), fieldValue,
    trimStart_digits blank digits]

/-- What was read as a number is a field. -/
theorem exists_field {n : Nat} {text rest : List Char} (h : readNumber 2 text = some (n, rest)) :
    ∃ field, text = field ++ rest ∧ IsField field ∧ fieldValue field = n := by
  obtain ⟨blanks, ds, rfl, blank, digits, nonempty, short, rfl⟩ := exists_of_readNumber h
  refine ⟨blanks ++ ds, rfl, ⟨blanks, ds, rfl, blank, digits, nonempty, short⟩, ?_⟩
  rw [fieldValue, trimStart_digits blank digits]

/-- A character is read if it comes first. -/
theorem readChar_eq_some_iff {c : Char} {text rest : List Char} :
    readChar c text = some rest ↔ text = c :: rest := by
  cases text with
  | nil =>
    constructor
    · intro h
      cases h
    · intro h
      cases h
  | cons d text =>
    rw [readChar, List.cons.injEq]
    by_cases same : c = d
    · rw [if_pos same, Option.some.injEq]
      exact ⟨fun h => ⟨same.symm, h⟩, And.right⟩
    · rw [if_neg same]
      constructor
      · intro h
        cases h
      · intro h
        exact absurd h.1.symm same

end SchemaSampler.Calendar
