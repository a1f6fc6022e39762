import SchemaSampler.Calendar.Civil

namespace SchemaSampler.Calendar

/-!
# Laws of civil dates — every day number names a date of the calendar

* `Civil.ofDays_isValid` — month and day of the date of a day number exist in its year.
* `Civil.year_ofDays` — the years of an era, and of the days that are written with four digits.

The years of an era of 400 years are numbered from 0 and begin in March.  The formula for the year
of a day is monotone, so that it is enough to know it on the first and the last day of each year.
-/

/-! ### Years of an era -/

/-- Whether the leap day comes at the end of a year that begins in March, as a number of days. -/
def leapDay (year : Nat) : Nat := if isLeapYear (year + 1) then 1 else 0

/-- The day of the era with which a year begins. -/
def yearStart (year : Nat) : Nat := 365 * year + year / 4 - year / 100

/-- The days of an era without the leap days before them; 365 of them make a year. -/
def daysWithoutLeap (day : Nat) : Nat := day - day / 1460 + day / 36524 - day / 146096

theorem leapDay_le (year : Nat) : leapDay year ≤ 1 := by
  rw [leapDay]
  split <;> decide

/-- The years of an era follow each other. -/
theorem yearStart_succ : ∀ year < 399, yearStart (year + 1) = yearStart year + 365 + leapDay year := by
  decide +kernel

/-- Every day before the start of a year lies in one of the years before. -/
theorem exists_year_of_lt {day year : Nat} (inEra : year ≤ 399) (before : day < yearStart year) :
    ∃ y < year, yearStart y ≤ day ∧ day ≤ yearStart y + 364 + leapDay y := by
  induction year with
  | zero => exact absurd before (by simp [yearStart])
  | succ year ih =>
    by_cases earlier : day < yearStart year
    · obtain ⟨y, below, bounds⟩ := ih (by omega) earlier
      exact ⟨y, by omega, bounds⟩
    · have next := yearStart_succ year (by omega)
      exact ⟨year, by omega, by omega, by omega⟩

/-- Every day of an era lies in one of its years. -/
theorem exists_year {day : Nat} (inEra : day < 146097) :
    ∃ y < 400, yearStart y ≤ day ∧ day ≤ yearStart y + 364 + leapDay y := by
  by_cases before : day < yearStart 399
  · obtain ⟨y, below, bounds⟩ := exists_year_of_lt (Nat.le_refl 399) before
    exact ⟨y, by omega, bounds⟩
  · have last : yearStart 399 + 364 + leapDay 399 = 146096 := by decide
    exact ⟨399, by omega, by omega, by omega⟩

theorem daysWithoutLeap_mono {a b : Nat} (h : a ≤ b) (inEra : b < 146097) :
    daysWithoutLeap a ≤ daysWithoutLeap b := by
  simp only [daysWithoutLeap]
  omega

/-- The formula for the year, on the first and the last day of each year. -/
theorem daysWithoutLeap_ends : ∀ year < 400, 365 * year ≤ daysWithoutLeap (yearStart year) ∧
    daysWithoutLeap (yearStart year + 364 + leapDay year) < 365 * (year + 1) ∧
      yearStart year + 364 + leapDay year < 146097 := by
  decide +kernel

/-- The year of an era is the one that its day lies in. -/
theorem yearOfEra_spec {day : Nat} (inEra : day < 146097) :
    let year := daysWithoutLeap day / 365
    year < 400 ∧ yearStart year ≤ day ∧ day ≤ yearStart year + 364 + leapDay year := by
  obtain ⟨y, below, first, last⟩ := exists_year inEra
  obtain ⟨least, greatest, inside⟩ := daysWithoutLeap_ends y below
  have lower := daysWithoutLeap_mono first inEra
  have upper := daysWithoutLeap_mono last inside
  have same : daysWithoutLeap day / 365 = y := by omega
  simp only [same]
  exact ⟨below, first, last⟩

/-! ### Months of a year -/

/-- Month and day of the days of a year that begins in March. -/
theorem month_spec : ∀ dayOfYear < 366,
    let marchMonth := (5 * dayOfYear + 2) / 153
    let day := dayOfYear - (153 * marchMonth + 2) / 5 + 1
    let month := if marchMonth < 10 then marchMonth + 3 else marchMonth - 9
    (1 ≤ month ∧ month ≤ 12 ∧ 1 ≤ day) ∧ (month ≤ 2 ↔ 306 ≤ dayOfYear) ∧
      ((dayOfYear < 365 ∧ day ≤ daysInMonth 1 month) ∨ (dayOfYear = 365 ∧ month = 2 ∧ day = 29)) := by
  decide +kernel

theorem daysInMonth_common (year : Int) (month : Nat) : daysInMonth 1 month ≤ daysInMonth year month := by
  simp only [daysInMonth, show isLeapYear 1 = false by decide]
  cases isLeapYear year with
  | true => split <;> simp
  | false => exact Nat.le_refl _

theorem isLeapYear_era (year era : Int) : isLeapYear (year + era * 400) = isLeapYear year := by
  have four : (year + era * 400) % 4 = year % 4 := by omega
  have hundred : (year + era * 400) % 100 = year % 100 := by omega
  have era_end : (year + era * 400) % 400 = year % 400 := by omega
  rw [isLeapYear, isLeapYear, four, hundred, era_end]

/-! ### Dates -/

/-- The date of a day number exists. -/
theorem Civil.ofDays_isValid (days : Int) : (Civil.ofDays days).isValid = true := by
  have inEra : (days + 719468 - (days + 719468).fdiv 146097 * 146097).toNat < 146097 := by
    rw [Int.fdiv_eq_ediv_of_nonneg _ (by decide)]
    omega
  simp only [Civil.ofDays]
  generalize (days + 719468).fdiv 146097 = era at *
  generalize (days + 719468 - era * 146097).toNat = day at *
  obtain ⟨-, first, last⟩ := yearOfEra_spec inEra
  simp only [daysWithoutLeap] at first last
  generalize (day - day / 1460 + day / 36524 - day / 146096) / 365 = y at *
  rw [show day - (365 * y + y / 4 - y / 100) = day - yearStart y from rfl]
  have short := leapDay_le y
  obtain ⟨⟨atLeast, atMost, positive⟩, -, within⟩ := month_spec (day - yearStart y) (by omega)
  simp only [Civil.isValid, atLeast, atMost, positive, decide_true, Bool.true_and, Bool.and_true,
    decide_eq_true_eq]
  rcases within with ⟨-, common⟩ | ⟨leap, february, last_day⟩
  · exact Nat.le_trans common (daysInMonth_common _ _)
  · -- The leap day is there only if the year that it ends is a leap year.
    have isLeap : isLeapYear ((y : Int) + 1) = true := by
      by_cases h : isLeapYear ((y : Int) + 1) = true
      · exact h
      · rw [leapDay, if_neg h] at last
        omega
    have shift : (y : Int) + era * 400 + 1 = (y + 1) + era * 400 := by omega
    rw [february, last_day, if_pos (by decide), shift, daysInMonth, if_pos rfl, isLeapYear_era, isLeap]
    decide

/-- The year of a day before the year 10000. -/
theorem Civil.year_ofDays {days : Int} (least : -719468 ≤ days) (most : days ≤ 2932896) :
    0 ≤ (Civil.ofDays days).year ∧ (Civil.ofDays days).year ≤ 9999 := by
  simp only [Civil.ofDays, Int.fdiv_eq_ediv_of_nonneg _ (by decide : (0 : Int) ≤ 146097)]
  have inEra : (days + 719468 - (days + 719468) / 146097 * 146097).toNat < 146097 := by omega
  obtain ⟨below, first, last⟩ := yearOfEra_spec inEra
  simp only [daysWithoutLeap] at below first last
  have era_least : 0 ≤ (days + 719468) / 146097 := by omega
  have era_most : (days + 719468) / 146097 ≤ 24 := by omega
  -- In the last era the year 10000 would begin with a January after the last day.
  have late : (days + 719468) / 146097 = 24 →
      (days + 719468 - (days + 719468) / 146097 * 146097).toNat < yearStart 399 + 306 := by
    rw [show yearStart 399 + 306 = 146037 by decide]
    omega
  generalize (days + 719468 - (days + 719468) / 146097 * 146097).toNat = day at *
  generalize (days + 719468) / 146097 = era at *
  generalize (day - day / 1460 + day / 36524 - day / 146096) / 365 = y at *
  rw [show day - (365 * y + y / 4 - y / 100) = day - yearStart y from rfl]
  have short := leapDay_le y
  obtain ⟨-, winter, -⟩ := month_spec (day - yearStart y) (by omega)
  generalize (if (5 * (day - yearStart y) + 2) / 153 < 10 then _ else _) = month at *
  split
  · rename_i early
    have january := winter.mp early
    have notLast : era = 24 → y ≠ 399 := by
      rintro last_era rfl
      have := late last_era
      omega
    omega
  · omega

end SchemaSampler.Calendar
