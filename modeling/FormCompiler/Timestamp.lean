import FormCompiler.Date

/-!
# FormCompiler.Timestamp

Instants as they are written: a local date, a local time of day to the
nanosecond, and the offset from UTC in whole minutes.  Days and months are
added to the local date; the time and the offset stay.
-/

namespace FormCompiler

/-- A time of day. -/
structure TimeOfDay where
  hour : Nat
  minute : Nat
  second : Nat
  nanosecond : Nat
  valid : hour < 24 ∧ minute < 60 ∧ second < 60 ∧ nanosecond < 1000000000
deriving DecidableEq, Repr

/-- Midnight, the first instant of a day. -/
def TimeOfDay.midnight : TimeOfDay := ⟨0, 0, 0, 0, by decide⟩

/-- An offset from UTC in minutes, less than a day. -/
structure UtcOffset where
  minutes : Int
  valid : -1440 < minutes ∧ minutes < 1440
deriving DecidableEq, Repr

def UtcOffset.utc : UtcOffset := ⟨0, by decide⟩

def UtcOffset.seconds (offset : UtcOffset) : Int := offset.minutes * 60

/-- A local date and time with its offset from UTC. -/
structure Timestamp where
  date : Date
  time : TimeOfDay
  offset : UtcOffset
deriving DecidableEq, Repr

namespace Timestamp

/-- The first of January 1970 at midnight, UTC. -/
def unixEpoch : Timestamp :=
  ⟨⟨1970, 1, 1, by decide⟩, .midnight, .utc⟩

/-- The instant some seconds after 1970 began, in UTC. -/
def ofUnixSeconds? (seconds : Int) (nanosecond : Nat) : Option Timestamp :=
  let second := (seconds % 86400).toNat
  (unixEpoch.date.addDays? (seconds / 86400)).map fun date =>
    let time : TimeOfDay :=
      ⟨second / 3600, second % 3600 / 60, second % 60, nanosecond % 1000000000, by omega⟩
    ⟨date, time, .utc⟩

/-- The start of the local day. -/
def startOfDay (t : Timestamp) : Timestamp := { t with time := .midnight }

/-- The same local time some days later. -/
def addDays? (t : Timestamp) (days : Int) : Option Timestamp :=
  (t.date.addDays? days).map fun date => { t with date }

/-- The same local time some months later, on the last day of the month
where it has no such day. -/
def addMonths? (t : Timestamp) (months : Int) : Option Timestamp :=
  (t.date.addMonths? months).map fun date => { t with date }

/-- Minutes of the day in UTC; negative on the day before, 1440 or more on
the day after. -/
def utcMinutes (t : Timestamp) : Int := t.time.hour * 60 + t.time.minute - t.offset.minutes

/-- The date in UTC, unless it leaves the range of years. -/
def utcDate? (t : Timestamp) : Option Date := t.date.addDays? (t.utcMinutes / 1440)

/-- Does the last minute of a month run, in UTC? -/
def isLastMinuteOfMonth (t : Timestamp) : Bool :=
  t.utcMinutes % 1440 == 1439 && t.utcDate?.any Date.isLastOfMonth

end Timestamp

end FormCompiler
