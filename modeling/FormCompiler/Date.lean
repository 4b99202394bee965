/-!
# FormCompiler.Date

Dates of the proleptic Gregorian calendar from the year -9999 to 9999.

* `Date.dayNumber` counts days from the first of January of the year zero;
  `Date.ofDayNumber?` goes back.
* `Date.addDays?` moves by a number of days, `Date.addMonths?` by a number
  of months, where a day that the month reached does not have becomes its
  last one.  Both answer nothing outside the range of years.
-/

namespace FormCompiler

/-! ## years and months -/

/-- Every fourth year is a leap year, of the centuries every fourth. -/
def isLeapYear (year : Int) : Bool :=
  year % 4 == 0 && (year % 100 != 0 || year % 400 == 0)

def daysInMonth (year : Int) (month : Nat) : Nat :=
  if month = 2 then (if isLeapYear year then 29 else 28)
  else if month = 4 ∨ month = 6 ∨ month = 9 ∨ month = 11 then 30
  else 31

/-- The number of days before a year, counted from the year zero. -/
def daysBeforeYear (year : Int) : Int :=
  365 * year + (year - 1) / 4 - (year - 1) / 100 + (year - 1) / 400 + 1

/-- The number of days of a year before a month. -/
def daysBeforeMonth (year : Int) : Nat → Nat
  | 0 => 0
  | 1 => 0
  | month + 2 => daysBeforeMonth year (month + 1) + daysInMonth year (month + 1)

/-! ## dates -/

/-- Year, month and day make a date of the calendar, in the range of years. -/
def IsDate (year : Int) (month day : Nat) : Prop :=
  (-9999 ≤ year ∧ year ≤ 9999) ∧ (1 ≤ month ∧ month ≤ 12) ∧
    (1 ≤ day ∧ day ≤ daysInMonth year month)

instance (year : Int) (month day : Nat) : Decidable (IsDate year month day) := by
  unfold IsDate
  infer_instance

/-- A date of the calendar. -/
structure Date where
  year : Int
  month : Nat
  day : Nat
  valid : IsDate year month day
deriving DecidableEq, Repr

namespace Date

/-- The date of a year, month and day, where there is one. -/
def of? (year : Int) (month day : Nat) : Option Date :=
  if h : IsDate year month day then some ⟨year, month, day, h⟩ else none

/-- The number of days before the date, counted from the year zero. -/
def dayNumber (d : Date) : Int :=
  daysBeforeYear d.year + daysBeforeMonth d.year d.month + (d.day - 1 : Nat)

/-- The year in which a day falls.  The average length of a year brings the
estimate within one year of it. -/
def yearOfDay (n : Int) : Int :=
  let estimate := n * 400 / 146097
  if n < daysBeforeYear estimate then estimate - 1
  else if daysBeforeYear (estimate + 1) ≤ n then estimate + 1
  else estimate

/-- The month and day that lie `rest` days behind the first of `month`,
moving on by at most `fuel` months. -/
def monthAndDay (year : Int) : Nat → Nat → Nat → Nat × Nat
  | 0, month, rest => (month, rest + 1)
  | fuel + 1, month, rest =>
    if rest < daysInMonth year month then (month, rest + 1)
    else monthAndDay year fuel (month + 1) (rest - daysInMonth year month)

/-- The date with a day number. -/
def ofDayNumber? (n : Int) : Option Date :=
  let year := yearOfDay n
  let (month, day) := monthAndDay year 11 1 (n - daysBeforeYear year).toNat
  of? year month day

def addDays? (d : Date) (days : Int) : Option Date := ofDayNumber? (d.dayNumber + days)

/-- The position of the date's month, counted from the year zero. -/
def monthIndex (d : Date) : Int := d.year * 12 + d.month - 1

/-- The date with this month position and at most this day: a later day
becomes the last one of the month. -/
def ofMonthIndex? (index : Int) (day : Nat) : Option Date :=
  let year := index / 12
  let month := (index % 12).toNat + 1
  of? year month (min day (daysInMonth year month))

def addMonths? (d : Date) (months : Int) : Option Date :=
  ofMonthIndex? (d.monthIndex + months) d.day

/-- Is it the last day of its month? -/
def isLastOfMonth (d : Date) : Bool := d.day == daysInMonth d.year d.month

end Date

end FormCompiler
