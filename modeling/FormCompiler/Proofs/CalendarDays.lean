import FormCompiler.Date

/-!
# FormCompiler.Proofs.CalendarDays

Day numbers and month positions as coordinates of dates.  The days from the
year zero on are counted without end in both directions; a day falls in one
year of this calendar, and it is a date exactly if that year is one of those
from -9999 to 9999.

* `Date.ofDayNumber?_eq_some_iff`: the search for the date of a day finds
  the date with its number, and no other.
* `Date.addDays?_eq_some_iff`, `Date.isSome_addDays?_iff`: adding days adds
  to the day number and fails only where the day falls outside of the range.
* `Date.addMonths?_eq_some_iff`, `Date.isSome_addMonths?_iff`: the same for
  months, where the day is cut to the length of the month.
* `Date.isSome_ofDayNumber?_iff_between`: the day numbers of dates are those
  from the first date to the last, which alone lack a day before or behind them.
-/

namespace FormCompiler

/-! ## years -/

def daysInYear (year : Int) : Nat := if isLeapYear year then 366 else 365

/-- The first of January 1970 lies 719528 days behind the year zero. -/
example : daysBeforeYear 1970 = 719528 := by decide

/-- The rule for leap years, as it is usually put. -/
theorem isLeapYear_iff {year : Int} :
    isLeapYear year = true ↔ year % 4 = 0 ∧ (year % 100 ≠ 0 ∨ year % 400 = 0) := by
  simp [isLeapYear]

/-- A year begins once the one before it is over. -/
theorem daysBeforeYear_succ (year : Int) :
    daysBeforeYear (year + 1) = daysBeforeYear year + daysInYear year := by
  unfold daysBeforeYear daysInYear
  by_cases hleap : isLeapYear year = true
  · have hrule := isLeapYear_iff.mp hleap
    rw [if_pos hleap]
    omega
  · have hrule := mt isLeapYear_iff.mpr hleap
    rw [if_neg hleap]
    omega

/-- A later year begins at least 365 days later. -/
theorem daysBeforeYear_lt {first second : Int} (h : first < second) :
    daysBeforeYear first + 365 ≤ daysBeforeYear second := by
  unfold daysBeforeYear
  omega

/-- The day with a number falls in a year, with no bound on years. -/
def FallsInYear (day year : Int) : Prop :=
  daysBeforeYear year ≤ day ∧ day < daysBeforeYear (year + 1)

/-- A day falls in one year only. -/
theorem FallsInYear.unique {day first second : Int} (hfirst : FallsInYear day first)
    (hsecond : FallsInYear day second) : first = second := by
  have hle : ∀ {a b : Int}, FallsInYear day a → FallsInYear day b → a ≤ b := by
    intro a b ⟨ha, _⟩ ⟨_, hb⟩
    by_cases hnext : b + 1 < a
    · have := daysBeforeYear_lt hnext
      omega
    · by_cases hsame : a = b + 1
      · subst hsame
        omega
      · omega
  exact Int.le_antisymm (hle hfirst hsecond) (hle hsecond hfirst)

/-- The days of the range of years are not far from the year zero. -/
theorem FallsInYear.near {day year : Int} (h : FallsInYear day year)
    (hyear : -9999 ≤ year ∧ year ≤ 9999) : -4000000 < day ∧ day < 4000000 := by
  obtain ⟨hbefore, hbehind⟩ := h
  unfold daysBeforeYear at hbefore hbehind
  omega

/-- The estimate by the average length of a year is out by one at most. -/
theorem fallsInYear_yearOfDay (day : Int) : FallsInYear day (Date.yearOfDay day) := by
  have hbefore : daysBeforeYear (day * 400 / 146097 - 1) ≤ day := by
    unfold daysBeforeYear
    omega
  have hbehind : day < daysBeforeYear (day * 400 / 146097 + 1 + 1) := by
    unfold daysBeforeYear
    omega
  unfold FallsInYear Date.yearOfDay
  dsimp only
  generalize day * 400 / 146097 = estimate at hbefore hbehind ⊢
  split
  · next hlt => exact ⟨hbefore, by rwa [Int.sub_add_cancel]⟩
  · split
    · next hle => exact ⟨hle, hbehind⟩
    · next hle hlt => exact ⟨by omega, by omega⟩

/-! ## months -/

/-- A month begins where the one before it ends. -/
theorem daysBeforeMonth_succ (year : Int) {month : Nat} (h : 1 ≤ month) :
    daysBeforeMonth year (month + 1) = daysBeforeMonth year month + daysInMonth year month := by
  obtain ⟨month, rfl⟩ : ∃ m, month = m + 1 := ⟨month - 1, by omega⟩
  rw [daysBeforeMonth]

/-- The lengths of the months add up to that of the year. -/
theorem daysBeforeMonth_thirteen (year : Int) : daysBeforeMonth year 13 = daysInYear year := by
  unfold daysInYear
  cases hleap : isLeapYear year <;> simp [daysBeforeMonth, daysInMonth, hleap]

/-- A month ends before any later one begins. -/
theorem daysBeforeMonth_add_le (year : Int) {first second : Nat} (hfirst : 1 ≤ first)
    (h : first < second) :
    daysBeforeMonth year first + daysInMonth year first ≤ daysBeforeMonth year second := by
  induction second with
  | zero => omega
  | succ second ih =>
      rw [daysBeforeMonth_succ year (by omega)]
      by_cases hlast : first = second
      · subst hlast
        omega
      · have := ih (by omega)
        omega

theorem one_le_daysInMonth (year : Int) (month : Nat) : 1 ≤ daysInMonth year month := by
  unfold daysInMonth
  split
  · split <;> omega
  · split <;> omega

theorem daysInMonth_le (year : Int) (month : Nat) : daysInMonth year month ≤ 31 := by
  unfold daysInMonth
  split
  · split <;> omega
  · split <;> omega

/-- A day of the year falls on one day of one month. -/
theorem month_day_unique {year : Int} {month month' day day' : Nat} (hmonth : 1 ≤ month)
    (hmonth' : 1 ≤ month') (hday : 1 ≤ day ∧ day ≤ daysInMonth year month)
    (hday' : 1 ≤ day' ∧ day' ≤ daysInMonth year month')
    (h : daysBeforeMonth year month + (day - 1) = daysBeforeMonth year month' + (day' - 1)) :
    month = month' ∧ day = day' := by
  obtain hlt | rfl | hgt := Nat.lt_trichotomy month month'
  · have := daysBeforeMonth_add_le year hmonth hlt
    omega
  · omega
  · have := daysBeforeMonth_add_le year hmonth' hgt
    omega

/-- Moving on from month to month ends in the month that holds the day, if
one of the months still to come does. -/
theorem monthAndDay_spec {year : Int} {fuel month rest : Nat} (hmonth : 1 ≤ month)
    (hrest : daysBeforeMonth year month + rest < daysBeforeMonth year (month + fuel + 1)) :
    let found := Date.monthAndDay year fuel month rest
    (month ≤ found.1 ∧ found.1 ≤ month + fuel) ∧
      (1 ≤ found.2 ∧ found.2 ≤ daysInMonth year found.1) ∧
      daysBeforeMonth year found.1 + (found.2 - 1) = daysBeforeMonth year month + rest := by
  induction fuel generalizing month rest with
  | zero =>
      rw [Nat.add_zero, daysBeforeMonth_succ year hmonth] at hrest
      simp only [Date.monthAndDay]
      omega
  | succ fuel ih =>
      rw [Date.monthAndDay]
      split
      · next hlt =>
          dsimp only
          omega
      · next hlt =>
          have hsucc := daysBeforeMonth_succ year hmonth
          have hfuel : month + (fuel + 1) + 1 = month + 1 + fuel + 1 := by omega
          rw [hfuel] at hrest
          have hrest' : daysBeforeMonth year (month + 1) + (rest - daysInMonth year month) <
              daysBeforeMonth year (month + 1 + fuel + 1) := by omega
          have hnext := ih (by omega) hrest'
          omega

/-! ## dates -/

namespace Date

/-- A date that is made of its parts has just these parts. -/
theorem of?_eq_some_iff {year : Int} {month day : Nat} {d : Date} :
    of? year month day = some d ↔ d.year = year ∧ d.month = month ∧ d.day = day := by
  unfold of?
  constructor
  · intro h
    split at h
    · obtain rfl := Option.some.inj h
      exact ⟨rfl, rfl, rfl⟩
    · contradiction
  · rintro ⟨rfl, rfl, rfl⟩
    rw [dif_pos d.valid]

/-- A day of the calendar is a date exactly if its year is in the range. -/
theorem isSome_of?_iff {year : Int} {month day : Nat} (hmonth : 1 ≤ month ∧ month ≤ 12)
    (hday : 1 ≤ day ∧ day ≤ daysInMonth year month) :
    (of? year month day).isSome ↔ -9999 ≤ year ∧ year ≤ 9999 := by
  unfold of?
  by_cases hyear : -9999 ≤ year ∧ year ≤ 9999
  · rw [dif_pos ⟨hyear, hmonth, hday⟩]
    simp [hyear]
  · rw [dif_neg fun h => hyear h.1]
    simp [hyear]

theorem fallsInYear_dayNumber (d : Date) : FallsInYear d.dayNumber d.year := by
  obtain ⟨-, ⟨hmonth, hlast⟩, hday, hlength⟩ := d.valid
  have hend := daysBeforeMonth_add_le d.year hmonth (show d.month < 13 by omega)
  rw [daysBeforeMonth_thirteen] at hend
  rw [FallsInYear, daysBeforeYear_succ]
  unfold dayNumber
  omega

/-- The month and day that the search for a day number stops at. -/
theorem monthAndDay_of_dayNumber (n : Int) :
    let found := monthAndDay (yearOfDay n) 11 1 (n - daysBeforeYear (yearOfDay n)).toNat
    (1 ≤ found.1 ∧ found.1 ≤ 12) ∧
      (1 ≤ found.2 ∧ found.2 ≤ daysInMonth (yearOfDay n) found.1) ∧
      daysBeforeYear (yearOfDay n) + daysBeforeMonth (yearOfDay n) found.1 +
        (found.2 - 1 : Nat) = n := by
  obtain ⟨hbefore, hbehind⟩ := fallsInYear_yearOfDay n
  rw [daysBeforeYear_succ] at hbehind
  have hrest : daysBeforeMonth (yearOfDay n) 1 + (n - daysBeforeYear (yearOfDay n)).toNat <
      daysBeforeMonth (yearOfDay n) (1 + 11 + 1) := by
    rw [daysBeforeMonth_thirteen, daysBeforeMonth]
    omega
  have hfound := monthAndDay_spec (Nat.le_refl 1) hrest
  rw [daysBeforeMonth, Nat.zero_add] at hfound
  dsimp only at hfound ⊢
  omega

/-- The search for the date of a day finds the date with its number. -/
theorem ofDayNumber?_eq_some_iff {n : Int} {d : Date} :
    ofDayNumber? n = some d ↔ d.dayNumber = n := by
  have hfound := monthAndDay_of_dayNumber n
  unfold ofDayNumber?
  dsimp only at hfound ⊢
  rw [of?_eq_some_iff]
  generalize monthAndDay (yearOfDay n) 11 1 (n - daysBeforeYear (yearOfDay n)).toNat = found
    at hfound ⊢
  constructor
  · rintro ⟨hyear, hmonth, hday⟩
    rw [dayNumber, hyear, hmonth, hday]
    exact hfound.2.2
  · intro hnumber
    have hyear : d.year = yearOfDay n :=
      FallsInYear.unique (hnumber ▸ d.fallsInYear_dayNumber) (fallsInYear_yearOfDay n)
    obtain ⟨-, hmonth, hday⟩ := d.valid
    rw [dayNumber, hyear] at hnumber
    rw [hyear] at hday
    refine ⟨hyear, month_day_unique hmonth.1 hfound.1.1 hday hfound.2.1 ?_⟩
    omega

/-- A day is a date if it falls in the range of years. -/
theorem isSome_ofDayNumber?_iff {n : Int} :
    (ofDayNumber? n).isSome ↔ ∃ year, (-9999 ≤ year ∧ year ≤ 9999) ∧ FallsInYear n year := by
  have hfound := monthAndDay_of_dayNumber n
  have hrange : (ofDayNumber? n).isSome ↔ -9999 ≤ yearOfDay n ∧ yearOfDay n ≤ 9999 :=
    isSome_of?_iff hfound.1 hfound.2.1
  rw [hrange]
  constructor
  · intro hyear
    exact ⟨yearOfDay n, hyear, fallsInYear_yearOfDay n⟩
  · rintro ⟨year, hyear, hfalls⟩
    exact hfalls.unique (fallsInYear_yearOfDay n) ▸ hyear

/-- In a later month the day number is greater. -/
theorem dayNumber_lt_of_monthIndex_lt {d d' : Date} (h : d.monthIndex < d'.monthIndex) :
    d.dayNumber < d'.dayNumber := by
  obtain ⟨-, ⟨hmonth, hlast⟩, hday⟩ := d.valid
  obtain ⟨-, ⟨hmonth', hlast'⟩, hday'⟩ := d'.valid
  unfold monthIndex at h
  by_cases hyear : d.year = d'.year
  · have hend := daysBeforeMonth_add_le d.year hmonth (show d.month < d'.month by omega)
    unfold dayNumber
    rw [← hyear]
    omega
  · have hbefore := d.fallsInYear_dayNumber.2
    have hbehind := d'.fallsInYear_dayNumber.1
    by_cases hnext : d.year + 1 = d'.year
    · rw [hnext] at hbefore
      omega
    · have := daysBeforeYear_lt (show d.year + 1 < d'.year by omega)
      omega

/-! ## the range of dates -/

def first : Date := ⟨-9999, 1, 1, by decide⟩

def last : Date := ⟨9999, 12, 31, by decide⟩

/-- The days that are dates are those from the first to the last. -/
theorem isSome_ofDayNumber?_iff_between {n : Int} :
    (ofDayNumber? n).isSome ↔ first.dayNumber ≤ n ∧ n ≤ last.dayNumber := by
  have hfirst : first.dayNumber = daysBeforeYear (-9999) := by decide
  have hlast : last.dayNumber + 1 = daysBeforeYear 10000 := by decide
  rw [isSome_ofDayNumber?_iff]
  constructor
  · rintro ⟨year, hyear, hbefore, hbehind⟩
    unfold daysBeforeYear at *
    omega
  · rintro ⟨hbefore, hbehind⟩
    obtain ⟨hstart, hend⟩ := fallsInYear_yearOfDay n
    refine ⟨yearOfDay n, ?_, hstart, hend⟩
    unfold daysBeforeYear at *
    omega

theorem eq_of_dayNumber {d d' : Date} (h : d.dayNumber = d'.dayNumber) : d = d' :=
  Option.some.inj ((ofDayNumber?_eq_some_iff.mpr h).symm.trans (ofDayNumber?_eq_some_iff.mpr rfl))

theorem dayNumber_between (d : Date) :
    first.dayNumber ≤ d.dayNumber ∧ d.dayNumber ≤ last.dayNumber := by
  rw [← isSome_ofDayNumber?_iff_between, ofDayNumber?_eq_some_iff.mpr (rfl : d.dayNumber = _)]
  rfl

/-! ## adding days and months -/

/-- Adding days adds to the day number. -/
theorem addDays?_eq_some_iff {d d' : Date} {days : Int} :
    d.addDays? days = some d' ↔ d'.dayNumber = d.dayNumber + days :=
  ofDayNumber?_eq_some_iff

/-- Adding days fails only where the day falls outside of the range of years.
-/
theorem isSome_addDays?_iff {d : Date} {days : Int} :
    (d.addDays? days).isSome ↔
      ∃ year, (-9999 ≤ year ∧ year ≤ 9999) ∧ FallsInYear (d.dayNumber + days) year :=
  isSome_ofDayNumber?_iff

/-- The year of a month position and the month within it. -/
theorem monthIndex_eq_iff {d : Date} {index : Int} :
    d.monthIndex = index ↔ d.year = index / 12 ∧ d.month = (index % 12).toNat + 1 := by
  obtain ⟨-, ⟨hfirst, hlast⟩, -⟩ := d.valid
  unfold monthIndex
  omega

/-- Only the last date has no day after it. -/
theorem addDays?_one_eq_none_iff {d : Date} : d.addDays? 1 = none ↔ d = last := by
  have hrange := d.dayNumber_between
  rw [addDays?, ← Option.not_isSome_iff_eq_none, isSome_ofDayNumber?_iff_between]
  constructor
  · intro hout
    exact eq_of_dayNumber (by omega)
  · rintro rfl
    omega

/-- Only the first date has no day before it. -/
theorem addDays?_neg_one_eq_none_iff {d : Date} : d.addDays? (-1) = none ↔ d = first := by
  have hrange := d.dayNumber_between
  rw [addDays?, ← Option.not_isSome_iff_eq_none, isSome_ofDayNumber?_iff_between]
  constructor
  · intro hout
    exact eq_of_dayNumber (by omega)
  · rintro rfl
    omega

/-- The month reached is as far away as asked, and the day is the same or
the last one that the month has. -/
theorem addMonths?_eq_some_iff {d d' : Date} {months : Int} :
    d.addMonths? months = some d' ↔
      d'.monthIndex = d.monthIndex + months ∧
        d'.day = min d.day (daysInMonth d'.year d'.month) := by
  unfold addMonths? ofMonthIndex?
  dsimp only
  rw [of?_eq_some_iff, monthIndex_eq_iff, and_assoc]
  refine and_congr_right fun hyear => and_congr_right fun hmonth => ?_
  rw [hyear, hmonth]

/-- Adding months fails only where the month falls outside of the range of
years. -/
theorem isSome_addMonths?_iff {d : Date} {months : Int} :
    (d.addMonths? months).isSome ↔
      -9999 ≤ (d.monthIndex + months) / 12 ∧ (d.monthIndex + months) / 12 ≤ 9999 := by
  obtain ⟨-, -, hday, -⟩ := d.valid
  have hlength := one_le_daysInMonth ((d.monthIndex + months) / 12)
    (((d.monthIndex + months) % 12).toNat + 1)
  exact isSome_of?_iff (by omega) (by omega)

end Date

end FormCompiler
