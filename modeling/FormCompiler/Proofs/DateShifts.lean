import FormCompiler.DateExpression
import FormCompiler.Proofs.CalendarDays

/-!
# FormCompiler.Proofs.DateShifts

Moving an instant by days and months, exactly.  A `Shift` of days is stated
in elapsed time, one of months on the calendar; `Shift.Leads` says where it
leads and `Shift.LandsInYear` in which year, with no bound on years.

* `Shift.target?_eq_some_iff` and `Shift.isSome_target?_iff`: a shift leads
  just there, and gives an instant exactly if it lands in the range of years.
* `DateExpression.checked_shift?_eq`: the checks that amounts and their
  multiples fit 64 bits never stop a shift that lands in that range.
-/

namespace FormCompiler

/-! ## elapsed time -/

/-- The nanoseconds of the day before a time. -/
def TimeOfDay.nanoseconds (time : TimeOfDay) : Int :=
  ((time.hour * 60 + time.minute) * 60 + time.second : Int) * 1000000000 + time.nanosecond

namespace TimeOfDay

theorem nanoseconds_range (time : TimeOfDay) :
    0 ≤ time.nanoseconds ∧ time.nanoseconds < 86400 * 1000000000 := by
  obtain ⟨hhour, hminute, hsecond, hnanosecond⟩ := time.valid
  unfold nanoseconds
  omega

/-- The nanoseconds of a day tell the time of day. -/
theorem eq_of_nanoseconds {first second : TimeOfDay}
    (h : first.nanoseconds = second.nanoseconds) : first = second := by
  obtain ⟨hour, minute, sec, nanosecond, hvalid⟩ := first
  obtain ⟨hour', minute', sec', nanosecond', hvalid'⟩ := second
  simp only [nanoseconds] at h
  have hnanosecond : nanosecond = nanosecond' := by omega
  have hsecond : sec = sec' := by omega
  have hminute : minute = minute' := by omega
  have hhour : hour = hour' := by omega
  subst hnanosecond hsecond hminute hhour
  rfl

end TimeOfDay

namespace Timestamp

/-- The nanoseconds that went by, in UTC, since the year zero began. -/
def instant (t : Timestamp) : Int :=
  (t.date.dayNumber * 86400 - t.offset.seconds) * 1000000000 + t.time.nanoseconds

variable {start t : Timestamp}

/-- Days later it is the same time, so many times 86400 seconds on. -/
theorem addDays?_eq_some_iff {days : Int} :
    start.addDays? days = some t ↔
      t.instant = start.instant + days * 86400 * 1000000000 ∧ t.offset = start.offset := by
  unfold addDays?
  rw [Option.map_eq_some_iff]
  constructor
  · rintro ⟨date, hdate, rfl⟩
    rw [Date.addDays?_eq_some_iff] at hdate
    refine ⟨?_, rfl⟩
    simp only [instant, hdate]
    omega
  · rintro ⟨hinstant, hoffset⟩
    have htime := t.time.nanoseconds_range
    have hstart := start.time.nanoseconds_range
    simp only [instant, hoffset] at hinstant
    refine ⟨t.date, Date.addDays?_eq_some_iff.mpr (by omega), ?_⟩
    have hsame : start.time = t.time := TimeOfDay.eq_of_nanoseconds (by omega)
    rw [hsame, ← hoffset]

/-- Months later it is the same time of the day on the date reached. -/
theorem addMonths?_eq_some_iff {months : Int} :
    start.addMonths? months = some t ↔
      t.date.monthIndex = start.date.monthIndex + months ∧
        t.date.day = min start.date.day (daysInMonth t.date.year t.date.month) ∧
        t.time = start.time ∧ t.offset = start.offset := by
  unfold addMonths?
  rw [Option.map_eq_some_iff]
  constructor
  · rintro ⟨date, hdate, rfl⟩
    obtain ⟨hmonth, hday⟩ := Date.addMonths?_eq_some_iff.mp hdate
    exact ⟨hmonth, hday, rfl, rfl⟩
  · rintro ⟨hmonth, hday, htime, hoffset⟩
    exact ⟨t.date, Date.addMonths?_eq_some_iff.mpr ⟨hmonth, hday⟩, by rw [← htime, ← hoffset]⟩

end Timestamp

/-! ## shifts -/

/-- What a relative date adds: days of 86400 seconds, or calendar months. -/
inductive Shift where
  | days (n : Int)
  | months (n : Int)

/-- So many units. -/
def DateExpression.DateUnit.times : DateUnit → Int → Shift
  | day, n => .days n
  | week, n => .days (7 * n)
  | month, n => .months n
  | year, n => .months (12 * n)

namespace Shift

variable {start t : Timestamp}

/-- The instant that lies exactly that far away.  Days are counted in
seconds; months keep the time of the day, and the day as far as the month
reached has it. -/
def Leads (start t : Timestamp) : Shift → Prop
  | days n => t.instant = start.instant + n * 86400 * 1000000000 ∧ t.offset = start.offset
  | months n =>
    t.date.year * 12 + t.date.month = start.date.year * 12 + start.date.month + n ∧
      t.date.day = min start.date.day (daysInMonth t.date.year t.date.month) ∧
      t.time = start.time ∧ t.offset = start.offset

/-- The local date that lies that far away is one of a year, with no bound
on years. -/
def LandsInYear (start : Timestamp) (year : Int) : Shift → Prop
  | days n => FallsInYear (start.date.dayNumber + n) year
  | months n =>
    year * 12 + 1 ≤ start.date.year * 12 + start.date.month + n ∧
      start.date.year * 12 + start.date.month + n ≤ year * 12 + 12

def target? (start : Timestamp) : Shift → Option Timestamp
  | days n => start.addDays? n
  | months n => start.addMonths? n

/-- A shift gives an instant exactly if it leads there. -/
theorem target?_eq_some_iff {shift : Shift} :
    shift.target? start = some t ↔ shift.Leads start t := by
  cases shift with
  | days n => exact Timestamp.addDays?_eq_some_iff
  | months n =>
      refine Timestamp.addMonths?_eq_some_iff.trans (and_congr_left fun _ => ?_)
      simp only [Date.monthIndex]
      omega

/-- A shift gives some instant exactly if it lands in the range of years. -/
theorem isSome_target?_iff {shift : Shift} :
    (shift.target? start).isSome ↔
      ∃ year, (-9999 ≤ year ∧ year ≤ 9999) ∧ shift.LandsInYear start year := by
  cases shift with
  | days n =>
      rw [target?, Timestamp.addDays?, Option.isSome_map]
      exact Date.isSome_addDays?_iff
  | months n =>
      rw [target?, Timestamp.addMonths?, Option.isSome_map, Date.isSome_addMonths?_iff]
      simp only [LandsInYear, Date.monthIndex]
      constructor
      · intro hyear
        exact ⟨_, hyear, by omega, by omega⟩
      · rintro ⟨year, hyear, hfirst, hlast⟩
        omega

/-- No date lies ten million units from another. -/
theorem target?_eq_none_of_far (start : Timestamp) (unit : DateExpression.DateUnit) {n : Int}
    (h : n < -10000000 ∨ 10000000 < n) : (unit.times n).target? start = none := by
  rw [← Option.not_isSome_iff_eq_none, isSome_target?_iff]
  rintro ⟨year, hyear, hlands⟩
  obtain ⟨hrange, hmonth, -⟩ := start.date.valid
  have hstart := start.date.fallsInYear_dayNumber.near hrange
  have hday : ∀ days, LandsInYear start year (.days days) → -8000000 < days ∧ days < 8000000 := by
    intro days hfalls
    have := FallsInYear.near hfalls hyear
    omega
  cases unit with
  | day | week =>
      have := hday _ hlands
      omega
  | month | year =>
      simp only [DateExpression.DateUnit.times, LandsInYear] at hlands
      omega

end Shift

/-! ## checks for 64 bits -/

namespace DateExpression

/-- A number fits 64 bits and is kept, or it is far from zero. -/
theorem fitting?_cases (n : Int) :
    fitting? n = some n ∨
      fitting? n = none ∧ (n < -1000000000000000000 ∨ 1000000000000000000 < n) := by
  unfold fitting?
  split
  · exact .inl rfl
  · exact .inr ⟨rfl, by omega⟩

/-- The check for 64 bits does not change a number. -/
theorem eq_of_fitting? {n m : Int} (h : fitting? n = some m) : n = m := by
  obtain hkept | ⟨hnone, -⟩ := fitting?_cases n
  · exact Option.some.inj (hkept.symm.trans h)
  · rw [hnone] at h
    cases h

/-- A number need not be checked where numbers far from zero lead nowhere. -/
theorem bind_fitting?_eq {n : Int} {next : Int → Option Timestamp}
    (h : n < -1000000000000000000 ∨ 1000000000000000000 < n → next n = none) :
    (fitting? n).bind next = next n := by
  obtain hfits | ⟨hnone, hfar⟩ := fitting?_cases n
  · rw [hfits, Option.bind_some]
  · rw [hnone, h hfar, Option.bind_none]

/-- Positions of months fit wherever the months lead to a date. -/
theorem checkedMonths?_eq (start : Timestamp) (months : Int) :
    shift?.addMonths? start months = (Shift.months months).target? start := by
  refine bind_fitting?_eq fun hfar => Shift.target?_eq_none_of_far start .month ?_
  obtain ⟨hrange, hmonth, -⟩ := start.date.valid
  unfold Date.monthIndex at hfar
  omega

/-- Multiples of an amount fit wherever the amount leads to a date. -/
theorem shift?_eq (start : Timestamp) (amount : Int) (unit : DateUnit) :
    shift? start amount unit = (unit.times amount).target? start := by
  cases unit with
  | day =>
      have hdays : amount * 86400 / 86400 = amount := by omega
      refine (bind_fitting?_eq fun hfar => ?_).trans (congrArg start.addDays? hdays)
      rw [secondsPerDay] at hfar ⊢
      rw [hdays]
      exact Shift.target?_eq_none_of_far start .day (by omega)
  | week =>
      have hdays : amount * (7 * 86400) / 86400 = 7 * amount := by omega
      refine (bind_fitting?_eq fun hfar => ?_).trans (congrArg start.addDays? hdays)
      rw [secondsPerDay] at hfar ⊢
      rw [hdays]
      exact Shift.target?_eq_none_of_far start .week (by omega)
  | month => exact checkedMonths?_eq start amount
  | year =>
      have hchecked : shift?.addMonths? start (amount * 12) =
          (Shift.months (12 * amount)).target? start := by
        rw [Int.mul_comm amount 12]
        exact checkedMonths?_eq start (12 * amount)
      refine (bind_fitting?_eq fun hfar => ?_).trans hchecked
      rw [hchecked]
      exact Shift.target?_eq_none_of_far start .year (by omega)

/-- Amounts fit wherever they lead to a date, in either direction. -/
theorem checked_shift?_eq (start : Timestamp) (amount : Int) (direction : Direction)
    (unit : DateUnit) :
    ((fitting? amount).bind fun n => (fitting? (direction.apply n)).bind fun n =>
      shift? start n unit) = (unit.times (direction.apply amount)).target? start := by
  have hturned : ((fitting? (direction.apply amount)).bind fun n => shift? start n unit) =
      (unit.times (direction.apply amount)).target? start := by
    rw [← shift?_eq]
    refine bind_fitting?_eq fun hfar => ?_
    rw [shift?_eq]
    exact Shift.target?_eq_none_of_far start unit (by omega)
  refine (bind_fitting?_eq fun hfar => ?_).trans hturned
  rw [hturned]
  refine Shift.target?_eq_none_of_far start unit ?_
  cases direction <;> simp only [Direction.apply] <;> omega

end DateExpression

end FormCompiler
