import Mathlib.Algebra.Group.Nat.Defs
import SchemaSampler.Calendar.Timestamp
import SchemaSampler.Proofs.Calendar.Civil
import SchemaSampler.Proofs.Text.Numeral

namespace SchemaSampler.Calendar

open Text Decimal

/-!
# Laws of timestamps — written timestamps are read back

* `exists_padded` — a number with leading zeros is written by a fixed number of digits.
* `readParts_stamp` — the parts of a written date and time are read.
* `isTimestamp_timestampText` — the timestamp of an instant of the years 1 to 9999 is one.
-/

/-! ### Digits -/

/-- A number with leading zeros. -/
theorem exists_padded {width n : Nat} (room : n < 10 ^ width) (positive : 0 < width) :
    ∃ ds : List Nat, padded width n = ds.map Nat.digitChar ∧ ds.length = width ∧
      (∀ d ∈ ds, d < 10) ∧ ofDigits 10 ds = n := by
  obtain ⟨ds, written, each, value⟩ := exists_digits (by decide : 1 < 10) n
  have lengths : (Nat.toDigits 10 n).length = ds.length := by rw [written, List.length_map]
  have short := (Nat.length_toDigits_le_iff (n := n) (k := width) (by decide : 1 < 10) positive).mpr
    room
  refine ⟨List.replicate (width - ds.length) 0 ++ ds, ?_, ?_, fun d member => ?_, ?_⟩
  · simp only [padded, digits, zeros, List.map_append, List.map_replicate, written, List.length_map]
    rfl
  · simp only [List.length_append, List.length_replicate]
    omega
  · rcases List.mem_append.mp member with member | member
    · rw [(List.mem_replicate.mp member).2]
      decide
    · exact each d member
  · have leading : ∀ k, (List.replicate k 0).foldl (fun n d => n * 10 + d) 0 = 0 := by
      intro k
      induction k with
      | zero => rfl
      | succ k ih => exact ih
    rw [ofDigits, List.foldl_append, leading]
    exact value

/-- What is written for a number below ten is a digit. -/
theorem isDigit_digitChar {d : Nat} (h : d < 10) : isDigit d.digitChar = true := by
  have all : ∀ d < 10, isDigit (Nat.digitChar d) = true := by decide
  exact all d h

/-- It is no blank. -/
theorem isBlank_digitChar {d : Nat} (h : d < 10) : isBlank d.digitChar = false := by
  have all : ∀ d < 10, isBlank (Nat.digitChar d) = false := by decide +kernel
  exact all d h

/-- Written digits are digits. -/
theorem all_isDigit {ds : List Nat} (each : ∀ d ∈ ds, d < 10) :
    (ds.map Nat.digitChar).all isDigit = true := by
  simp only [List.all_map, List.all_eq_true]
  exact fun d member => isDigit_digitChar (each d member)

/-- Written digits are read as the number that they make. -/
theorem numberOf_map_digitChar {ds : List Nat} (each : ∀ d ∈ ds, d < 10) :
    numberOf (ds.map Nat.digitChar) = ofDigits 10 ds := by
  have step : ∀ d < 10, (Nat.digitChar d).toNat - '0'.toNat = d := by decide
  have from_start : ∀ n, (ds.map Nat.digitChar).foldl (fun n c => 10 * n + (c.toNat - '0'.toNat)) n =
      ds.foldl (fun n d => n * 10 + d) n := by
    induction ds with
    | nil => exact fun n => rfl
    | cons d ds ih =>
      intro n
      rw [List.map_cons, List.foldl_cons, List.foldl_cons, step d (each d (by simp)), Nat.mul_comm 10 n]
      exact ih (fun d member => each d (by simp [member])) _
  exact from_start 0

/-- A reader of numbers takes a number with leading zeros. -/
theorem readNumber_padded {width n : Nat} (room : n < 10 ^ width) (positive : 0 < width)
    (rest : List Char) : readNumber width (padded width n ++ rest) = some (n, rest) := by
  obtain ⟨ds, written, length, each, value⟩ := exists_padded room positive
  have untrimmed : trimStart (ds.map Nat.digitChar ++ rest) = ds.map Nat.digitChar ++ rest := by
    cases ds with
    | nil => simp at length; omega
    | cons d ds =>
      rw [trimStart, List.map_cons, List.cons_append, List.dropWhile_cons,
        isBlank_digitChar (each d (by simp))]
      rfl
  have front : (ds.map Nat.digitChar ++ rest).take width = ds.map Nat.digitChar := by
    rw [← length, ← @List.length_map _ _ ds Nat.digitChar, List.take_left]
  have digits_only : (ds.map Nat.digitChar).takeWhile isDigit = ds.map Nat.digitChar := by
    have all := @List.takeWhile_append_of_pos _ isDigit (ds.map Nat.digitChar) []
      (List.all_eq_true.mp (all_isDigit each))
    simpa using all
  have nonempty : (ds.map Nat.digitChar).isEmpty = false := by
    cases ds with
    | nil => simp at length; omega
    | cons d ds => rfl
  rw [written, readNumber, untrimmed]
  simp only [front, digits_only, nonempty, Bool.false_eq_true, if_false,
    numberOf_map_digitChar each, value, List.drop_left]

/-! ### Bytes -/

/-- Every character takes one byte. -/
def SingleBytes (text : List Char) : Prop := ∀ c ∈ text, c.utf8Size = 1

/-- Texts of single bytes make one of single bytes. -/
theorem singleBytes_append {front back : List Char} (h : SingleBytes front) (h' : SingleBytes back) :
    SingleBytes (front ++ back) := by
  intro c member
  rcases List.mem_append.mp member with member | member
  · exact h c member
  · exact h' c member

/-- So does a further character of a single byte. -/
theorem singleBytes_cons {c : Char} {text : List Char} (h : c.utf8Size = 1)
    (h' : SingleBytes text) : SingleBytes (c :: text) := by
  intro d member
  rcases List.mem_cons.mp member with rfl | member
  · exact h
  · exact h' d member

/-- A digit takes one byte. -/
theorem singleBytes_digits {ds : List Nat} (each : ∀ d ∈ ds, d < 10) :
    SingleBytes (ds.map Nat.digitChar) := by
  have all : ∀ d < 10, (Nat.digitChar d).utf8Size = 1 := by decide
  intro c member
  obtain ⟨d, there, rfl⟩ := List.mem_map.mp member
  exact all d (each d there)

/-- So a padded number takes single bytes. -/
theorem singleBytes_padded {width n : Nat} (room : n < 10 ^ width) (positive : 0 < width) :
    SingleBytes (padded width n) := by
  obtain ⟨ds, written, -, each, -⟩ := exists_padded room positive
  rw [written]
  exact singleBytes_digits each

/-- A padded number has the width, if it fits. -/
theorem length_padded {width n : Nat} (room : n < 10 ^ width) (positive : 0 < width) :
    (padded width n).length = width := by
  obtain ⟨ds, written, length, -⟩ := exists_padded room positive
  rw [written, List.length_map, length]

/-- A text of single bytes has as many bytes as characters. -/
theorem byteCount_eq_length {text : List Char} (single : SingleBytes text) :
    byteCount text = text.length := by
  have from_start : ∀ n, text.foldl (fun n c => n + c.utf8Size) n = n + text.length := by
    induction text with
    | nil => exact fun n => rfl
    | cons c text ih =>
      intro n
      rw [List.foldl_cons, single c (by simp), ih fun d member => single d (by simp [member])]
      simp only [List.length_cons]
      omega
  rw [byteCount, from_start, Nat.zero_add]

/-- So much of it can be split off. -/
theorem splitBytes_append {front : List Char} (single : SingleBytes front) (back : List Char) :
    splitBytes front.length (front ++ back) = some (front, back) := by
  induction front with
  | nil => cases back <;> rfl
  | cons c front ih =>
    rw [List.length_cons, List.cons_append, splitBytes, single c (by simp), if_pos (by omega),
      Nat.add_sub_cancel, ih fun d member => single d (by simp [member])]
    · rfl
    · simp

/-! ### Date and time -/

/-- A date and a time of day as they are written. -/
structure Written where
  /-- The year, up to 9999. -/
  year : Nat
  /-- The month. -/
  month : Nat
  /-- The day of the month. -/
  day : Nat
  /-- The hour. -/
  hour : Nat
  /-- The minute. -/
  minute : Nat
  /-- The second. -/
  second : Nat
  year_lt : year < 10 ^ 4
  month_lt : month < 10 ^ 2
  day_lt : day < 10 ^ 2
  hour_lt : hour < 10 ^ 2
  minute_lt : minute < 10 ^ 2
  second_lt : second < 10 ^ 2

namespace Written

variable (w : Written)

/-- The date, ten characters. -/
def dateText : List Char :=
  padded 4 w.year ++ '-' :: padded 2 w.month ++ '-' :: padded 2 w.day

/-- The time of day, eight characters. -/
def timeText : List Char :=
  padded 2 w.hour ++ ':' :: padded 2 w.minute ++ ':' :: padded 2 w.second

/-- Date and time of day. -/
def text : List Char := w.dateText ++ 'T' :: w.timeText

/-- A date is written in ten characters. -/
theorem length_dateText : w.dateText.length = 10 := by
  simp only [dateText, List.length_append, List.length_cons, length_padded w.year_lt (by decide),
    length_padded w.month_lt (by decide), length_padded w.day_lt (by decide)]

/-- A date and a time are written in nineteen. -/
theorem length_text : w.text.length = 19 := by
  simp only [text, timeText, List.length_append, List.length_cons, w.length_dateText,
    length_padded w.hour_lt (by decide), length_padded w.minute_lt (by decide),
    length_padded w.second_lt (by decide)]

/-- A date takes single bytes. -/
theorem singleBytes_dateText : SingleBytes w.dateText := by
  have year := singleBytes_padded w.year_lt (by decide)
  have month := singleBytes_padded w.month_lt (by decide)
  have day := singleBytes_padded w.day_lt (by decide)
  exact singleBytes_append (singleBytes_append year (singleBytes_cons (by decide) month))
    (singleBytes_cons (by decide) day)

/-- So do a date and a time. -/
theorem singleBytes_text : SingleBytes w.text := by
  have hour := singleBytes_padded w.hour_lt (by decide)
  have minute := singleBytes_padded w.minute_lt (by decide)
  have second := singleBytes_padded w.second_lt (by decide)
  exact singleBytes_append w.singleBytes_dateText (singleBytes_cons (by decide)
    (singleBytes_append (singleBytes_append hour (singleBytes_cons (by decide) minute))
      (singleBytes_cons (by decide) second)))

end Written

/-- A fraction of a number of digits: nothing, or a point and the digits. -/
inductive IsFraction : Nat → List Char → Prop where
  | none : IsFraction 0 []
  | digits {ds : List Nat} (nonempty : ds ≠ []) (each : ∀ d ∈ ds, d < 10) :
      IsFraction ds.length ('.' :: ds.map Nat.digitChar)

/-- A fraction takes single bytes. -/
theorem IsFraction.singleBytes {length : Nat} {fraction : List Char}
    (h : IsFraction length fraction) : SingleBytes fraction := by
  cases h with
  | none => rintro c ⟨⟩
  | digits _ each => exact singleBytes_cons (by decide) (singleBytes_digits each)

/-- The outline of a written date and time is that of a timestamp. -/
theorem fractionLength?_text (w : Written) {length : Nat} {fraction : List Char}
    (h : IsFraction length fraction) : fractionLength? (w.text ++ fraction) = some length := by
  have toT := splitBytes_append w.singleBytes_dateText ('T' :: w.timeText ++ fraction)
  have toEnd := splitBytes_append w.singleBytes_text fraction
  rw [w.length_dateText] at toT
  rw [w.length_text] at toEnd
  obtain ⟨ds, written, four, each, -⟩ := exists_padded w.year_lt (by decide)
  have front : (w.text ++ fraction).take 4 = ds.map Nat.digitChar := by
    simp only [Written.text, Written.dateText, written, List.append_assoc]
    rw [← four, ← @List.length_map _ _ ds Nat.digitChar, List.take_left]
  have whole : w.text ++ fraction = w.dateText ++ ('T' :: w.timeText ++ fraction) := by
    simp [Written.text]
  rw [fractionLength?, front, if_pos ⟨by rw [List.length_map, four], all_isDigit each⟩, toEnd, whole,
    toT]
  cases h with
  | none => rfl
  | digits nonempty each =>
    refine (if_pos ⟨by simpa using nonempty, all_isDigit each⟩).trans ?_
    rw [List.length_map]

/-- The character that comes first is read. -/
theorem readChar_cons (c : Char) (rest : List Char) : readChar c (c :: rest) = some rest := by
  rw [readChar, if_pos rfl]

/-- The parts of a written date and time are read. -/
theorem readParts_text (w : Written) {length : Nat} {fraction : List Char}
    (h : IsFraction length fraction) : readParts (w.text ++ fraction) =
      some ⟨⟨w.year, w.month, w.day⟩, w.hour, w.minute, w.second⟩ := by
  simp only [readParts, Written.text, Written.dateText, Written.timeText, List.append_assoc,
    List.cons_append, readNumber_padded w.year_lt (by decide),
    readNumber_padded w.month_lt (by decide), readNumber_padded w.day_lt (by decide),
    readNumber_padded w.hour_lt (by decide), readNumber_padded w.minute_lt (by decide),
    readNumber_padded w.second_lt (by decide), readChar_cons, Option.bind_eq_bind, Option.bind_some]
  cases h with
  | none => rfl
  | digits nonempty each => exact if_pos ⟨by simpa using nonempty, all_isDigit each⟩

/-! ### Instants -/

/-- A date is valid if its month is in the year and its day in the month. -/
theorem Civil.isValid_iff (d : Civil) : d.isValid = true ↔
    1 ≤ d.month ∧ d.month ≤ 12 ∧ 1 ≤ d.day ∧ d.day ≤ daysInMonth d.year d.month := by
  simp only [Civil.isValid, Bool.and_eq_true, decide_eq_true_eq, and_assoc]

/-- No month has more than 31 days. -/
theorem daysInMonth_le (year : Int) (month : Nat) : daysInMonth year month ≤ 31 := by
  simp only [daysInMonth]
  split
  · split <;> decide
  · split <;> decide

/-- A millisecond of the years 0 to 9999. -/
def InYears (millis : Int) : Prop := -62162035200000 ≤ millis ∧ millis ≤ 253402300799999

/-- Date and time of an instant are written with the parts that a reader wants. -/
theorem Instant.stamp_ofMillis {millis : Int} (inYears : InYears millis) :
    ∃ w : Written, (Instant.ofMillis millis).stamp = w.text ∧
      Reading.isValid ⟨⟨w.year, w.month, w.day⟩, w.hour, w.minute, w.second⟩ = true := by
  obtain ⟨least, most⟩ := inYears
  have seconds : (Instant.ofMillis millis).seconds = millis / 1000 :=
    Int.fdiv_eq_ediv_of_nonneg _ (by decide)
  have nanos : (Instant.ofMillis millis).nanos < 1000000000 := by
    simp only [Instant.ofMillis, Int.fmod_eq_emod_of_nonneg _ (by decide : (0 : Int) ≤ 1000)]
    omega
  have date : (Instant.ofMillis millis).date = Civil.ofDays (millis / 1000 / 86400) := by
    rw [Instant.date, seconds, Int.fdiv_eq_ediv_of_nonneg _ (by decide)]
  have time : (Instant.ofMillis millis).secondOfDay < 86400 := by
    rw [Instant.secondOfDay, seconds, Int.fmod_eq_emod_of_nonneg _ (by decide)]
    omega
  obtain ⟨first, last⟩ := @Civil.year_ofDays (millis / 1000 / 86400) (by omega) (by omega)
  have valid := Civil.ofDays_isValid (millis / 1000 / 86400)
  rw [← date] at first last valid
  have exists_day := (Civil.isValid_iff _).mp valid
  have short := daysInMonth_le (Instant.ofMillis millis).date.year (Instant.ofMillis millis).date.month
  refine ⟨{ year := (Instant.ofMillis millis).date.year.toNat
            month := (Instant.ofMillis millis).date.month
            day := (Instant.ofMillis millis).date.day
            hour := (Instant.ofMillis millis).secondOfDay / 3600
            minute := (Instant.ofMillis millis).secondOfDay / 60 % 60
            second := (Instant.ofMillis millis).secondOfDay % 60
            year_lt := by omega
            month_lt := by omega
            day_lt := by omega
            hour_lt := by omega
            minute_lt := by omega
            second_lt := by omega }, ?_, ?_⟩
  · simp only [Instant.stamp, Instant.yearText, if_pos nanos, if_pos (And.intro first last),
      Written.text, Written.dateText, Written.timeText, Nat.add_zero, List.append_assoc,
      List.cons_append]
  · have year : ((Instant.ofMillis millis).date.year.toNat : Int) =
        (Instant.ofMillis millis).date.year := by omega
    simp only [Reading.isValid, year, Bool.and_eq_true, decide_eq_true_eq]
    refine ⟨⟨⟨valid, by omega⟩, by omega⟩, by omega⟩

/-- The first decimal places of a number of nanoseconds. -/
theorem isFraction_decimalPlaces {nanos : Nat} (room : nanos < 10 ^ 9) {places : Nat}
    (positive : places ≠ 0) : IsFraction places ('.' :: decimalPlaces nanos places) := by
  obtain ⟨ds, written, length, each, -⟩ := exists_padded room (by decide)
  have text : decimalPlaces nanos places =
      (ds.take places ++ List.replicate (places - (ds.take places).length) 0).map Nat.digitChar := by
    simp only [decimalPlaces, written, zeros, ← List.map_take, List.length_map, List.map_append,
      List.map_replicate]
    rfl
  have count : (ds.take places ++ List.replicate (places - (ds.take places).length) 0).length =
      places := by
    simp only [List.length_append, List.length_replicate, List.length_take]
    omega
  rw [text]
  have digits := @IsFraction.digits
    (ds.take places ++ List.replicate (places - (ds.take places).length) 0) (fun empty => ?_)
    fun d member => ?_
  · rwa [count] at digits
  · rw [empty] at count
    exact positive count.symm
  · rcases List.mem_append.mp member with member | member
    · exact each d (List.mem_of_mem_take member)
    · rw [(List.mem_replicate.mp member).2]
      decide

/-- Two digits are a first one and a second one. -/
private theorem eq_pair_of_length {ds : List Nat} (h : ds.length = 2) : ∃ d d', ds = [d, d'] := by
  match ds, h with
  | [d, d'], _ => exact ⟨d, d', rfl⟩

/-- What a zone is put behind is given back without it. -/
theorem withoutZone?_zoneText {body : List Char} (single : SingleBytes body) {allowOffset : Bool}
    {zone : Option Offset} (allowed : zone.isSome → allowOffset = true)
    (small : ∀ z, zone = some z → z.hours < 10 ^ 2 ∧ z.minutes < 10 ^ 2) :
    withoutZone? allowOffset (body ++ zoneText zone) = some body := by
  cases zone with
  | none => simp [withoutZone?, zoneText]
  | some z =>
    obtain ⟨hoursSmall, minutesSmall⟩ := small z rfl
    obtain ⟨hs, hours, hoursLength, hoursEach, -⟩ := exists_padded hoursSmall (by decide)
    obtain ⟨ms, minutes, minutesLength, minutesEach, -⟩ := exists_padded minutesSmall (by decide)
    obtain ⟨h, h', rfl⟩ : ∃ h h', hs = [h, h'] := eq_pair_of_length hoursLength
    obtain ⟨m, m', rfl⟩ : ∃ m m', ms = [m, m'] := eq_pair_of_length minutesLength
    have zone : zoneText (some z) = [if z.ahead then '+' else '-', h.digitChar, h'.digitChar, ':',
        m.digitChar, m'.digitChar] := by
      simp [zoneText, hours, minutes]
    have singleZone : SingleBytes (zoneText (some z)) := by
      refine singleBytes_cons (by cases z.ahead <;> decide) (singleBytes_append ?_ ?_)
      · exact singleBytes_padded hoursSmall (by decide)
      · exact singleBytes_cons (by decide) (singleBytes_padded minutesSmall (by decide))
    have notZulu : (body ++ zoneText (some z)).getLast? ≠ some 'Z' := by
      have all : ∀ d < 10, Nat.digitChar d ≠ 'Z' := by decide
      rw [zone]
      simp [all m' (minutesEach m' (by simp))]
    have bytes : byteCount (body ++ zoneText (some z)) - 6 = body.length := by
      rw [byteCount_eq_length (singleBytes_append single singleZone), zone]
      simp
    rw [withoutZone?, if_neg notZulu, if_pos (allowed rfl), bytes, splitBytes_append single, zone]
    have offset : isOffset [if z.ahead then '+' else '-', h.digitChar, h'.digitChar, ':',
        m.digitChar, m'.digitChar] = true := by
      simp only [isOffset, isDigit_digitChar (hoursEach h (by simp)),
        isDigit_digitChar (hoursEach h' (by simp)), isDigit_digitChar (minutesEach m (by simp)),
        isDigit_digitChar (minutesEach m' (by simp))]
      cases z.ahead <;> decide
    simp [offset]

/-- The timestamp of an instant of the years 0 to 9999 is one. -/
theorem isTimestamp_timestampText {millis : Int} (inYears : InYears millis) {subMillis : Nat}
    (below : subMillis ≤ 999999) {places : Nat} {zone : Option Offset} {allowOffset : Bool}
    (allowed : zone.isSome → allowOffset = true)
    (small : ∀ z, zone = some z → z.hours < 10 ^ 2 ∧ z.minutes < 10 ^ 2) {precision : Option Nat}
    (fits : ∀ p, precision = some p → p = places) :
    isTimestamp allowOffset precision (timestampText millis subMillis places zone) = true := by
  obtain ⟨w, stamp, valid⟩ := Instant.stamp_ofMillis inYears
  obtain ⟨fraction, text, isFraction⟩ : ∃ fraction,
      timestampText millis subMillis places zone = w.text ++ fraction ++ zoneText zone ∧
        IsFraction places fraction := by
    by_cases none_there : places = 0
    · subst none_there
      exact ⟨[], by simp [timestampText, stamp], .none⟩
    · refine ⟨_, by rw [timestampText, stamp, if_neg none_there], isFraction_decimalPlaces ?_ none_there⟩
      simp only [Instant.ofMillis, Int.fmod_eq_emod_of_nonneg _ (by decide : (0 : Int) ≤ 1000)]
      omega
  have body := singleBytes_append w.singleBytes_text isFraction.singleBytes
  have precise : (precision.isNone || precision == some places) = true := by
    cases precision with
    | none => rfl
    | some p => simp [fits p rfl]
  rw [isTimestamp, text, withoutZone?_zoneText body allowed small]
  simp only [fractionLength?_text w isFraction, readParts_text w isFraction, precise, Option.any_some,
    valid, Bool.and_self]

end SchemaSampler.Calendar
