import SchemaSampler.Proofs.Calendar.Outline

namespace SchemaSampler.Calendar

open Text

/-!
# The form of timestamps — which texts are taken for one

A timestamp is put together of pieces (`Pieces`): the year, five fields of two places, a fraction
and a zone.  Each reader and test takes more than the documented form, and so do they together:

* `Pieces.Legible` — the pieces that the reader of the parts takes (`Pieces.exists_legible`).
* `Pieces.Admitted` — the pieces of the texts that are accepted
  (`Pieces.isTimestamp_iff_admitted`).
* `Pieces.Documented` — the documented form, which is accepted, and which a text that is accepted
  has if digits stand in all places of the fields (`Pieces.documented_iff`).
-/

/-! ### Places -/

/-- Two digits. -/
def IsPair (field : List Char) : Prop := IsDigits field ∧ field.length = 2

/-- A digit stands in a place of a text. -/
def DigitAt (text : List Char) (i : Nat) : Prop := ∃ c, text[i]? = some c ∧ isDigit c = true

theorem IsPair.isField {field : List Char} (h : IsPair field) : IsField field := by
  refine ⟨[], field, rfl, nofun, h.1, ?_, Nat.le_of_eq h.2⟩
  exact List.ne_nil_of_length_pos (by rw [h.2]; decide)

theorem IsPair.byteCount {field : List Char} (h : IsPair field) : byteCount field = 2 :=
  (byteCount_eq_length h.1.singleBytes).trans h.2

/-- A field has two digits and nothing else if digits stand in its two places. -/
theorem IsField.isPair_iff {field rest : List Char} (h : IsField field) (stop : Stops rest) :
    IsPair field ↔ DigitAt (field ++ rest) 0 ∧ DigitAt (field ++ rest) 1 := by
  constructor
  · rintro ⟨digits, two⟩
    match field, digits, two with
    | [d, d'], digits, _ =>
      exact ⟨⟨d, rfl, digits d (by simp)⟩, ⟨d', rfl, digits d' (by simp)⟩⟩
  · rintro ⟨⟨c, first, digit⟩, ⟨c', second, digit'⟩⟩
    obtain ⟨blanks, ds, rfl, blank, digits, nonempty, short⟩ := h
    cases blanks with
    | cons b blanks =>
      -- A blank stands in the first place.
      obtain rfl : b = c := Option.some.inj first
      have blank_there := blank b List.mem_cons_self
      rw [isBlank_of_isDigit digit] at blank_there
      cases blank_there
    | nil =>
      refine ⟨digits, ?_⟩
      match ds, nonempty, short with
      | [d, d'], _, _ => rfl
      | [d], _, _ =>
        -- What follows stands in the second place.
        have stops := stop c' (by rw [List.head?_eq_getElem?]; exact second)
        rw [digit'] at stops
        cases stops

/-- The same, where the field stands in a text. -/
theorem IsField.isPair_iff_of_text {text front field rest : List Char} {k : Nat} (h : IsField field)
    (stop : Stops rest) (whole : text = front ++ (field ++ rest)) (length : front.length = k) :
    IsPair field ↔ DigitAt text k ∧ DigitAt text (k + 1) := by
  subst whole length
  have first : DigitAt (front ++ (field ++ rest)) front.length ↔ DigitAt (field ++ rest) 0 := by
    rw [DigitAt, List.getElem?_append_right (Nat.le_refl _), Nat.sub_self, DigitAt]
  have second : DigitAt (front ++ (field ++ rest)) (front.length + 1) ↔
      DigitAt (field ++ rest) 1 := by
    rw [DigitAt, List.getElem?_append_right (Nat.le_add_right _ _), Nat.add_sub_cancel_left,
      DigitAt]
  rw [h.isPair_iff stop, first, second]

/-! ### Pieces -/

/-- The pieces that a timestamp is put together of. -/
structure Pieces where
  /-- The year. -/
  year : List Char
  /-- The month. -/
  month : List Char
  /-- The day of the month. -/
  day : List Char
  /-- The hour. -/
  hour : List Char
  /-- The minute. -/
  minute : List Char
  /-- The second. -/
  second : List Char
  /-- The fraction with its point, or nothing. -/
  fraction : List Char
  /-- The zone. -/
  zone : List Char

namespace Pieces

variable (t : Pieces)

/-- The date. -/
def date : List Char := t.year ++ '-' :: (t.month ++ '-' :: t.day)

/-- The time of day without a fraction. -/
def time : List Char := t.hour ++ ':' :: (t.minute ++ ':' :: t.second)

/-- All but the zone. -/
def body : List Char := t.date ++ 'T' :: (t.time ++ t.fraction)

/-- The whole text. -/
def text : List Char := t.body ++ t.zone

/-- What the pieces say. -/
def reading : Reading :=
  ⟨⟨fieldValue t.year, fieldValue t.month, fieldValue t.day⟩,
    fieldValue t.hour, fieldValue t.minute, fieldValue t.second⟩

/-- Pieces that the reader of the parts takes. -/
structure Legible : Prop where
  year_digits : IsDigits t.year
  year_length : t.year.length = 4
  month : IsField t.month
  day : IsField t.day
  hour : IsField t.hour
  minute : IsField t.minute
  second : IsField t.second
  decimals : ∃ n, Decimals n t.fraction

/-- The outline looks for the fraction after nineteen bytes.  It finds the fraction there if the
    time of day takes eight bytes, and it finds no fraction if the time of day takes eight bytes
    with its fraction. -/
def Shows (n : Nat) : Prop :=
  (byteCount t.time = 8 ∧ Decimals n t.fraction) ∨ (byteCount (t.time ++ t.fraction) = 8 ∧ n = 0)

/-- Pieces of a text that is accepted. -/
structure Admitted (allowOffset : Bool) (precision : Option Nat) : Prop where
  legible : t.Legible
  date_bytes : byteCount t.date = 10
  shown : ∃ n, t.Shows n ∧ ∀ p, precision = some p → p = n
  valid : t.reading.isValid = true
  zone : IsZone allowOffset t.zone

/-- The places of the five fields of two digits. -/
def fieldPlaces : List Nat := [5, 6, 8, 9, 11, 12, 14, 15, 17, 18]

/-- Pieces of the documented form `YYYY-MM-DDTHH:MM:SS[.f…]` with a zone: a digit for each letter,
    an existing date and a time of day, and as many fraction digits as are asked for. -/
structure Documented (allowOffset : Bool) (precision : Option Nat) : Prop where
  year : IsDigits t.year ∧ t.year.length = 4
  month : IsPair t.month
  day : IsPair t.day
  hour : IsPair t.hour
  minute : IsPair t.minute
  second : IsPair t.second
  decimals : ∃ n, Decimals n t.fraction ∧ ∀ p, precision = some p → p = n
  valid : t.reading.isValid = true
  zone : IsZone allowOffset t.zone

variable {t}

/-! ### The reader of the parts -/

theorem Legible.stops_fraction (h : t.Legible) : Stops t.fraction := by
  obtain ⟨n, decimals⟩ := h.decimals
  generalize t.fraction = fraction at decimals
  cases decimals with
  | none => rintro _ ⟨⟩
  | digits => exact stops_cons (by decide) _

/-- Legible pieces are read. -/
theorem Legible.readParts_body (h : t.Legible) : readParts t.body = some t.reading := by
  have year : ∀ rest, readNumber 4 (t.year ++ rest) = some (fieldValue t.year, rest) := by
    rw [fieldValue_digits h.year_digits]
    exact readNumber_digits h.year_digits h.year_length (by decide)
  have dash : ∀ rest, Stops ('-' :: rest) := stops_cons (by decide)
  have letter : ∀ rest, Stops ('T' :: rest) := stops_cons (by decide)
  have colon : ∀ rest, Stops (':' :: rest) := stops_cons (by decide)
  simp only [readParts, body, date, time, List.append_assoc, List.cons_append, year,
    readNumber_field h.month (dash _), readNumber_field h.day (letter _),
    readNumber_field h.hour (colon _), readNumber_field h.minute (colon _),
    readNumber_field h.second h.stops_fraction, readChar_cons, Option.bind_eq_bind,
    Option.bind_some]
  obtain ⟨n, decimals⟩ := h.decimals
  generalize t.fraction = fraction at decimals
  cases decimals with
  | none => rfl
  | digits nonempty digits => exact if_pos ⟨nonempty, List.all_eq_true.mpr digits⟩

/-- What is read of a text with four digits in front is made of legible pieces. -/
theorem exists_legible {year rest : List Char} {r : Reading} (digits : IsDigits year)
    (four : year.length = 4) (h : readParts (year ++ rest) = some r) (zone : List Char) :
    ∃ t : Pieces, t.body = year ++ rest ∧ t.Legible ∧ t.reading = r ∧ t.zone = zone := by
  simp only [readParts, readNumber_digits digits four (by decide) rest, Option.bind_eq_bind,
    Option.bind_some, Option.bind_eq_some_iff, Prod.exists, readChar_eq_some_iff] at h
  obtain ⟨_, rfl, _, _, read_month, _, rfl, _, _, read_day, _, rfl, _, _, read_hour, _, rfl,
    _, _, read_minute, _, rfl, _, fraction, read_second, h⟩ := h
  obtain ⟨month, rfl, is_month, rfl⟩ := exists_field read_month
  obtain ⟨day, rfl, is_day, rfl⟩ := exists_field read_day
  obtain ⟨hour, rfl, is_hour, rfl⟩ := exists_field read_hour
  obtain ⟨minute, rfl, is_minute, rfl⟩ := exists_field read_minute
  obtain ⟨second, rfl, is_second, rfl⟩ := exists_field read_second
  obtain ⟨decimals, rfl⟩ : (∃ n, Decimals n fraction) ∧ r = ⟨⟨numberOf year, fieldValue month,
      fieldValue day⟩, fieldValue hour, fieldValue minute, fieldValue second⟩ := by
    split at h
    · cases h
      exact ⟨⟨0, .none⟩, rfl⟩
    · split at h
      · rename_i fraction_digits
        cases h
        exact ⟨⟨_, .digits fraction_digits.1 (List.all_eq_true.mp fraction_digits.2)⟩, rfl⟩
      · cases h
    · cases h
  refine ⟨⟨year, month, day, hour, minute, second, fraction, zone⟩, ?_,
    ⟨digits, four, is_month, is_day, is_hour, is_minute, is_second, decimals⟩, ?_, rfl⟩
  · simp only [body, date, time, List.append_assoc, List.cons_append]
  · rw [reading, fieldValue_digits digits]

/-! ### The outline of legible pieces -/

private theorem not_mem_separated {front back : List Char} {c separator : Char}
    (in_front : c ∉ front) (other : c ≠ separator) (in_back : c ∉ back) :
    c ∉ front ++ separator :: back := by
  simp only [List.mem_append, List.mem_cons, not_or]
  exact ⟨in_front, other, in_back⟩

/-- A character that is no digit, no blank and no separator is nowhere in the date. -/
theorem Legible.not_mem_date (h : t.Legible) {c : Char} (no_digit : isDigit c = false)
    (no_blank : isBlank c = false) (no_dash : c ≠ '-') : c ∉ t.date :=
  not_mem_separated (h.year_digits.not_mem no_digit) no_dash
    (not_mem_separated (h.month.not_mem no_digit no_blank) no_dash
      (h.day.not_mem no_digit no_blank))

theorem Legible.not_mem_time (h : t.Legible) {c : Char} (no_digit : isDigit c = false)
    (no_blank : isBlank c = false) (no_colon : c ≠ ':') : c ∉ t.time :=
  not_mem_separated (h.hour.not_mem no_digit no_blank) no_colon
    (not_mem_separated (h.minute.not_mem no_digit no_blank) no_colon
      (h.second.not_mem no_digit no_blank))

theorem Legible.take_year (h : t.Legible) : t.body.take 4 = t.year := by
  rw [← h.year_length, body, date, List.append_assoc, List.take_left]

theorem byteCount_body :
    byteCount t.body = byteCount t.date + 1 + byteCount (t.time ++ t.fraction) := by
  rw [body, byteCount_append, byteCount_cons, show 'T'.utf8Size = 1 from rfl, Nat.add_assoc]

/-- The outline of legible pieces is as wanted if the date takes ten bytes, and then it shows a
    number of fraction digits. -/
theorem Legible.fractionLength?_body (h : t.Legible) {n : Nat} :
    fractionLength? t.body = some n ↔ byteCount t.date = 10 ∧ t.Shows n := by
  obtain ⟨count, decimals⟩ := h.decimals
  have letter_date : 'T' ∉ t.date := h.not_mem_date (by decide) (by decide +kernel) (by decide)
  have letter_rest : 'T' ∉ t.time ++ t.fraction := by
    have in_time := h.not_mem_time (c := 'T') (by decide) (by decide +kernel) (by decide)
    have in_fraction := decimals.not_mem (c := 'T') (by decide) (by decide)
    exact fun member => (List.mem_append.mp member).elim in_time in_fraction
  have point : '.' ∉ t.date ++ 'T' :: t.time :=
    not_mem_separated (h.not_mem_date (by decide) (by decide +kernel) (by decide)) (by decide)
      (h.not_mem_time (by decide) (by decide +kernel) (by decide))
  rw [fractionLength?_eq_some_iff, h.take_year]
  constructor
  · rintro ⟨-, ⟨front, rest, at_letter, ten⟩, front', rest', at_end, nineteen, shown⟩
    -- There is one `T`, so that the date is what stands in front of it.
    obtain ⟨rfl, -, rfl⟩ := (List.append_cons_inj_of_notMem letter_date letter_rest).mp at_letter
    refine ⟨ten, ?_⟩
    cases shown with
    | none =>
      rw [List.append_nil] at at_end
      have bytes := t.byteCount_body
      rw [at_end] at bytes
      exact .inr ⟨by omega, rfl⟩
    | @digits ds nonempty digits =>
      -- There is one point at most, so that it is the one of the fraction.
      rw [body, ← List.cons_append, ← List.append_assoc] at at_end
      rcases decimals.eq_nil_or_cons with empty | ⟨ds', there, digits'⟩
      · rw [empty, List.append_nil] at at_end
        exact absurd (at_end ▸ List.mem_append_right front' List.mem_cons_self) point
      · rw [there] at at_end
        have no_point : '.' ∉ ds' := digits'.not_mem (by decide)
        obtain ⟨rfl, -, rfl⟩ := (List.append_cons_inj_of_notMem point no_point).mp at_end
        rw [byteCount_append, byteCount_cons, ten, show 'T'.utf8Size = 1 from rfl] at nineteen
        exact .inl ⟨by omega, there ▸ .digits nonempty digits⟩
  · rintro ⟨ten, shown⟩
    refine ⟨⟨h.year_length, h.year_digits⟩, ⟨t.date, _, rfl, ten⟩, ?_⟩
    have bytes := t.byteCount_body
    rcases shown with ⟨eight, decimals⟩ | ⟨eight, rfl⟩
    · refine ⟨t.date ++ 'T' :: t.time, t.fraction, ?_, ?_, decimals⟩
      · rw [body, List.append_assoc, List.cons_append]
      · rw [byteCount_append, byteCount_cons, ten, eight]
        rfl
    · exact ⟨t.body, [], (List.append_nil _).symm, by omega, .none⟩

/-! ### Accepted texts -/

theorem precision_iff {precision : Option Nat} {n : Nat} :
    (precision.isNone || precision == some n) = true ↔ ∀ p, precision = some p → p = n := by
  cases precision with
  | none => exact iff_of_true rfl nofun
  | some p => simp

/-- A text is accepted if it is put together of pieces that are admitted. -/
theorem isTimestamp_iff_admitted {allowOffset : Bool} {precision : Option Nat} {text : List Char} :
    isTimestamp allowOffset precision text = true ↔
      ∃ t : Pieces, t.text = text ∧ t.Admitted allowOffset precision := by
  constructor
  · intro h
    unfold isTimestamp at h
    split at h
    · cases h
    · rename_i body zoned
      split at h
      · cases h
      · rename_i count outline
        obtain ⟨zone, rfl, is_zone⟩ := withoutZone?_eq_some_iff.mp zoned
        rw [Bool.and_eq_true, Option.any_eq_true] at h
        obtain ⟨precise, r, read, valid⟩ := h
        obtain ⟨⟨four, digits⟩, -⟩ := fractionLength?_eq_some_iff.mp outline
        rw [← List.take_append_drop 4 body] at read
        obtain ⟨t, same, legible, rfl, rfl⟩ := exists_legible digits four read zone
        rw [List.take_append_drop] at same
        subst same
        obtain ⟨ten, shown⟩ := legible.fractionLength?_body.mp outline
        exact ⟨t, rfl, legible, ten, ⟨count, shown, precision_iff.mp precise⟩, valid, is_zone⟩
  · rintro ⟨t, rfl, admitted⟩
    obtain ⟨count, shown, precise⟩ := admitted.shown
    have zoned : withoutZone? allowOffset (t.body ++ t.zone) = some t.body :=
      withoutZone?_eq_some_iff.mpr ⟨t.zone, rfl, admitted.zone⟩
    have outline := admitted.legible.fractionLength?_body.mpr ⟨admitted.date_bytes, shown⟩
    rw [isTimestamp, text, zoned]
    simp only [outline, precision_iff.mpr precise, admitted.legible.readParts_body,
      Option.any_some, admitted.valid, Bool.and_self]

/-! ### The documented form -/

theorem Documented.legible {allowOffset : Bool} {precision : Option Nat}
    (h : t.Documented allowOffset precision) : t.Legible where
  year_digits := h.year.1
  year_length := h.year.2
  month := h.month.isField
  day := h.day.isField
  hour := h.hour.isField
  minute := h.minute.isField
  second := h.second.isField
  decimals := let ⟨n, decimals, _⟩ := h.decimals; ⟨n, decimals⟩

theorem byteCount_time (hour : IsPair t.hour) (minute : IsPair t.minute)
    (second : IsPair t.second) : byteCount t.time = 8 := by
  simp only [Pieces.time, byteCount_append, byteCount_cons, hour.byteCount, minute.byteCount,
    second.byteCount]
  rfl

/-- The documented form is accepted. -/
theorem Documented.admitted {allowOffset : Bool} {precision : Option Nat}
    (h : t.Documented allowOffset precision) : t.Admitted allowOffset precision := by
  have date : byteCount t.date = 10 := by
    simp only [Pieces.date, byteCount_append, byteCount_cons,
      byteCount_eq_length h.year.1.singleBytes, h.year.2, h.month.byteCount, h.day.byteCount]
    rfl
  have time := byteCount_time h.hour h.minute h.second
  obtain ⟨n, decimals, precise⟩ := h.decimals
  exact ⟨h.legible, date, ⟨n, .inl ⟨time, decimals⟩, precise⟩, h.valid, h.zone⟩

/-- Legible pieces have digits in all places of the fields if each field has two digits. -/
theorem Legible.digitAt_iff (h : t.Legible) (end_there : Stops t.zone) :
    (∀ i ∈ fieldPlaces, DigitAt t.text i) ↔
      IsPair t.month ∧ IsPair t.day ∧ IsPair t.hour ∧ IsPair t.minute ∧ IsPair t.second := by
  have stops : ∀ rest, Stops ('-' :: rest) ∧ Stops ('T' :: rest) ∧ Stops (':' :: rest) :=
    fun rest => ⟨stops_cons (by decide) _, stops_cons (by decide) _, stops_cons (by decide) _⟩
  have behind : Stops (t.fraction ++ t.zone) := by
    obtain ⟨n, decimals⟩ := h.decimals
    rcases decimals.eq_nil_or_cons with empty | ⟨ds, there, -⟩
    · rw [empty]
      exact end_there
    · rw [there]
      exact stops_cons (by decide) _
  have whole_month : t.text = (t.year ++ ['-']) ++
      (t.month ++ '-' :: (t.day ++ 'T' :: (t.time ++ t.fraction ++ t.zone))) := by
    simp [text, body, date]
  have whole_day : t.text = (t.year ++ '-' :: t.month ++ ['-']) ++
      (t.day ++ 'T' :: (t.time ++ t.fraction ++ t.zone)) := by
    simp [text, body, date]
  have whole_hour : t.text = (t.date ++ ['T']) ++
      (t.hour ++ ':' :: (t.minute ++ ':' :: (t.second ++ t.fraction ++ t.zone))) := by
    simp [text, body, time]
  have whole_minute : t.text = (t.date ++ 'T' :: t.hour ++ [':']) ++
      (t.minute ++ ':' :: (t.second ++ t.fraction ++ t.zone)) := by
    simp [text, body, time]
  have whole_second : t.text = (t.date ++ 'T' :: (t.hour ++ ':' :: t.minute ++ [':'])) ++
      (t.second ++ (t.fraction ++ t.zone)) := by
    simp [text, body, time]
  -- Where a field stands depends on the lengths of the fields in front of it.
  have month : IsPair t.month ↔ DigitAt t.text 5 ∧ DigitAt t.text 6 :=
    h.month.isPair_iff_of_text (stops _).1 whole_month (by simp [h.year_length])
  have day (m : IsPair t.month) : IsPair t.day ↔ DigitAt t.text 8 ∧ DigitAt t.text 9 :=
    h.day.isPair_iff_of_text (stops _).2.1 whole_day (by simp [h.year_length, m.2])
  have ten (m : IsPair t.month) (d : IsPair t.day) : t.date.length = 10 := by
    simp [date, h.year_length, m.2, d.2]
  have hour (l : t.date.length = 10) : IsPair t.hour ↔ DigitAt t.text 11 ∧ DigitAt t.text 12 :=
    h.hour.isPair_iff_of_text (stops _).2.2 whole_hour (by simp [l])
  have minute (l : t.date.length = 10) (hh : IsPair t.hour) :
      IsPair t.minute ↔ DigitAt t.text 14 ∧ DigitAt t.text 15 :=
    h.minute.isPair_iff_of_text (stops _).2.2 whole_minute (by simp [l, hh.2])
  have second (l : t.date.length = 10) (hh : IsPair t.hour) (mm : IsPair t.minute) :
      IsPair t.second ↔ DigitAt t.text 17 ∧ DigitAt t.text 18 :=
    h.second.isPair_iff_of_text behind whole_second (by simp [l, hh.2, mm.2])
  simp only [fieldPlaces, List.forall_mem_cons, List.not_mem_nil, false_implies, implies_true,
    and_true]
  constructor
  · rintro ⟨at5, at6, at8, at9, at11, at12, at14, at15, at17, at18⟩
    have m := month.mpr ⟨at5, at6⟩
    have d := (day m).mpr ⟨at8, at9⟩
    have hh := (hour (ten m d)).mpr ⟨at11, at12⟩
    have mm := (minute (ten m d) hh).mpr ⟨at14, at15⟩
    exact ⟨m, d, hh, mm, (second (ten m d) hh mm).mpr ⟨at17, at18⟩⟩
  · rintro ⟨m, d, hh, mm, ss⟩
    obtain ⟨at5, at6⟩ := month.mp m
    obtain ⟨at8, at9⟩ := (day m).mp d
    obtain ⟨at11, at12⟩ := (hour (ten m d)).mp hh
    obtain ⟨at14, at15⟩ := (minute (ten m d) hh).mp mm
    obtain ⟨at17, at18⟩ := (second (ten m d) hh mm).mp ss
    exact ⟨at5, at6, at8, at9, at11, at12, at14, at15, at17, at18⟩

/-- With two digits in each field, the fraction starts after nineteen bytes. -/
theorem Admitted.documented {allowOffset : Bool} {precision : Option Nat}
    (h : t.Admitted allowOffset precision) (digits : ∀ i ∈ fieldPlaces, DigitAt t.text i) :
    t.Documented allowOffset precision := by
  obtain ⟨month, day, hour, minute, second⟩ := (h.legible.digitAt_iff h.zone.stops).mp digits
  have time := byteCount_time hour minute second
  obtain ⟨n, shown, precise⟩ := h.shown
  have decimals : Decimals n t.fraction := by
    rcases shown with ⟨-, decimals⟩ | ⟨eight, rfl⟩
    · exact decimals
    · -- No byte is left for a fraction.
      rw [byteCount_append, time] at eight
      obtain ⟨n, decimals⟩ := h.legible.decimals
      rcases decimals.eq_nil_or_cons with empty | ⟨ds, there, -⟩
      · rw [empty]
        exact .none
      · rw [there, byteCount_cons, show '.'.utf8Size = 1 from rfl] at eight
        omega
  exact ⟨⟨h.legible.year_digits, h.legible.year_length⟩, month, day, hour, minute, second,
    ⟨n, decimals, precise⟩, h.valid, h.zone⟩

/-- A text has the documented form if it is accepted and digits stand in all places of the
    fields. -/
theorem documented_iff {allowOffset : Bool} {precision : Option Nat} {text : List Char} :
    (∃ t : Pieces, t.text = text ∧ t.Documented allowOffset precision) ↔
      isTimestamp allowOffset precision text = true ∧ ∀ i ∈ fieldPlaces, DigitAt text i := by
  rw [isTimestamp_iff_admitted]
  constructor
  · rintro ⟨t, rfl, documented⟩
    refine ⟨⟨t, rfl, documented.admitted⟩, ?_⟩
    exact (documented.legible.digitAt_iff documented.zone.stops).mpr ⟨documented.month,
      documented.day, documented.hour, documented.minute, documented.second⟩
  · rintro ⟨⟨t, rfl, admitted⟩, digits⟩
    exact ⟨t, rfl, admitted.documented digits⟩

end Pieces

/-- **The form of timestamps.** A text is accepted exactly if it is put together of admitted
    pieces, among which blanks and single digits may stand for the two digits of a field.  The
    documented form is what is accepted with a digit in each place of the fields. -/
theorem isTimestamp_iff (allowOffset : Bool) (precision : Option Nat) (text : List Char) :
    (isTimestamp allowOffset precision text = true ↔
      ∃ t : Pieces, t.text = text ∧ t.Admitted allowOffset precision) ∧
    ((∃ t : Pieces, t.text = text ∧ t.Documented allowOffset precision) ↔
      isTimestamp allowOffset precision text = true ∧
        ∀ i ∈ Pieces.fieldPlaces, DigitAt text i) :=
  ⟨Pieces.isTimestamp_iff_admitted, Pieces.documented_iff⟩

/-- A blank in front of the day, and a time of day with its fraction in eight bytes, are accepted
    though they do not have the documented form. -/
theorem exists_undocumented_accepted :
    (isTimestamp false none "2020-01- 1T00:00:00Z".toList = true ∧
      ¬∃ t : Pieces, t.text = "2020-01- 1T00:00:00Z".toList ∧ t.Documented false none) ∧
    (isTimestamp false (some 0) "2020-01-01T1:1:1.55Z".toList = true ∧
      ¬∃ t : Pieces, t.text = "2020-01-01T1:1:1.55Z".toList ∧ t.Documented false (some 0)) := by
  have no_digit {text : List Char} {i : Nat} {c : Char} (there : text[i]? = some c)
      (other : isDigit c = false) : ¬DigitAt text i := by
    rintro ⟨d, at_place, digit⟩
    rw [there] at at_place
    cases at_place
    rw [other] at digit
    cases digit
  refine ⟨⟨by decide +kernel, fun documented => ?_⟩, by decide +kernel, fun documented => ?_⟩
  · have digit := (Pieces.documented_iff.mp documented).2 8 (by decide)
    exact no_digit rfl (by decide) digit
  · have digit := (Pieces.documented_iff.mp documented).2 12 (by decide)
    exact no_digit rfl (by decide) digit

end SchemaSampler.Calendar
