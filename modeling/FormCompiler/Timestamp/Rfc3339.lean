import FormCompiler.Timestamp

/-!
# FormCompiler.Timestamp.Rfc3339

Timestamps as RFC 3339 text, `2024-03-31T15:30:00.5+02:00`.

* The reader takes four digits of year, two of every other number, any one
  byte between date and time, and drops fraction digits after the ninth.
  `60` seconds are accepted in the last minute of a month in UTC and stand
  for the instant before the next minute.
* The writer leaves out a fraction of zero and the zeros that end one, and
  writes `Z` for no offset.  Years before zero have no such text.
-/

namespace FormCompiler

/-! ## failures -/

inductive TimestampPart where
  | year
  | month
  | day
  | separator
  | hour
  | minute
  | second
  | subsecond
  | offsetHour
  | offsetMinute
deriving DecidableEq, Repr

def TimestampPart.label : TimestampPart → String
  | year => "year"
  | month => "month"
  | day => "day"
  | separator => "separator"
  | hour => "hour"
  | minute => "minute"
  | second => "second"
  | subsecond => "subsecond"
  | offsetHour => "offset hour"
  | offsetMinute => "offset minute"

/-- Why a text is no timestamp. -/
inductive TimestampError where
  | unreadable (part : TimestampPart)
  /-- A dash or colon is missing. -/
  | badLiteral
  | outOfRange (part : TimestampPart)
  | trailing
deriving DecidableEq, Repr

def TimestampError.message : TimestampError → String
  | unreadable part => "the '" ++ part.label ++ "' component could not be parsed"
  | badLiteral => "a character literal was not valid"
  | outOfRange part => part.label ++ " was not in range"
  | trailing => "unexpected trailing characters; the end of input was expected"

namespace Timestamp

/-! ## reading -/

/-- The value of a run of decimal digits. -/
def digitsValue (digits : List Char) : Nat :=
  digits.foldl (fun n d => n * 10 + (d.toNat - '0'.toNat)) 0

/-- Takes exactly `count` decimal digits. -/
def takeDigits? (count : Nat) (cs : List Char) : Option (Nat × List Char) :=
  let digits := cs.take count
  if digits.length = count ∧ digits.all Char.isDigit then some (digitsValue digits, cs.drop count)
  else none

/-- Takes a part of `count` digits. -/
def readPart (part : TimestampPart) (count : Nat) (cs : List Char) :
    Except TimestampError (Nat × List Char) :=
  match takeDigits? count cs with
  | some result => .ok result
  | none => .error (.unreadable part)

/-- Takes a dash or colon. -/
def readLiteral (literal : Char) : List Char → Except TimestampError (List Char)
  | [] => .error .badLiteral
  | c :: cs => if c = literal then .ok cs else .error .badLiteral

/-- Takes the one byte between date and time.  A character of several bytes
leaves bytes behind, which are no hour. -/
def readSeparator : List Char → Except TimestampError (List Char)
  | [] => .error (.unreadable .separator)
  | c :: cs => if c.utf8Size = 1 then .ok cs else .error (.unreadable .hour)

/-- The nanoseconds that the digits of a fraction stand for. -/
def fractionValue (digits : List Char) : Nat :=
  digitsValue ((digits ++ List.replicate 9 '0').take 9)

/-- Takes a fraction of a second, if one follows. -/
def readFraction : List Char → Except TimestampError (Nat × List Char)
  | '.' :: cs =>
    let digits := cs.takeWhile Char.isDigit
    if digits.isEmpty then .error (.unreadable .subsecond)
    else .ok (fractionValue digits, cs.dropWhile Char.isDigit)
  | cs => .ok (0, cs)

/-- The offset of a sign, hours and minutes. -/
def offsetOf? (negative : Bool) (hours minutes : Nat) : Option UtcOffset :=
  let minutes : Int := hours * 60 + minutes
  let total := if negative then -minutes else minutes
  if h : -1440 < total ∧ total < 1440 then some ⟨total, h⟩ else none

/-- Takes the hours and minutes of an offset, behind its sign. -/
def readSignedOffset (negative : Bool) (cs : List Char) :
    Except TimestampError (UtcOffset × List Char) := do
  let (hours, cs) ← readPart .offsetHour 2 cs
  if 23 < hours then throw (.unreadable .offsetHour)
  let cs ← readLiteral ':' cs
  let (minutes, cs) ← readPart .offsetMinute 2 cs
  if 59 < minutes then throw (.outOfRange .offsetMinute)
  match offsetOf? negative hours minutes with
  | some offset => return (offset, cs)
  | none => throw (.outOfRange .offsetMinute)

/-- Takes the offset from UTC. -/
def readOffset : List Char → Except TimestampError (UtcOffset × List Char)
  | 'Z' :: cs => .ok (.utc, cs)
  | 'z' :: cs => .ok (.utc, cs)
  | '+' :: cs => readSignedOffset false cs
  | '-' :: cs => readSignedOffset true cs
  | _ => .error (.unreadable .offsetHour)

/-- The date of a year, month and day, or the part that is out of range. -/
def dateOf (year month day : Nat) : Except TimestampError Date :=
  if month < 1 ∨ 12 < month then .error (.outOfRange .month)
  else match Date.of? year month day with
    | some date => .ok date
    | none => .error (.outOfRange .day)

/-- The time of day, or the part that is out of range. -/
def timeOf (hour minute second nanosecond : Nat) : Except TimestampError TimeOfDay :=
  if 24 ≤ hour then .error (.outOfRange .hour)
  else if 60 ≤ minute then .error (.outOfRange .minute)
  else if h : hour < 24 ∧ minute < 60 ∧ second < 60 ∧ nanosecond < 1000000000 then
    .ok ⟨hour, minute, second, nanosecond, h⟩
  else .error (.outOfRange .second)

/-- Reads RFC 3339 text. -/
def parse (cs : List Char) : Except TimestampError Timestamp := do
  let (year, cs) ← readPart .year 4 cs
  let cs ← readLiteral '-' cs
  let (month, cs) ← readPart .month 2 cs
  if month = 0 then throw (.unreadable .month)
  let cs ← readLiteral '-' cs
  let (day, cs) ← readPart .day 2 cs
  let cs ← readSeparator cs
  let (hour, cs) ← readPart .hour 2 cs
  let cs ← readLiteral ':' cs
  let (minute, cs) ← readPart .minute 2 cs
  let cs ← readLiteral ':' cs
  let (second, cs) ← readPart .second 2 cs
  let (nanosecond, cs) ← readFraction cs
  let (offset, cs) ← readOffset cs
  if !cs.isEmpty then throw .trailing
  let isLeap := second = 60
  let date ← dateOf year month day
  let time ← timeOf hour minute (if isLeap then 59 else second)
    (if isLeap then 999999999 else nanosecond)
  let t : Timestamp := ⟨date, time, offset⟩
  if isLeap && !t.isLastMinuteOfMonth then throw (.outOfRange .second)
  return t

/-! ## writing -/

/-- The digits of a number, with zeros in front up to `width`. -/
def padded (width n : Nat) : List Char :=
  let digits := Nat.toDigits 10 n
  List.replicate (width - digits.length) '0' ++ digits

/-- The fraction of a second, without the zeros that end it. -/
def renderFraction (nanosecond : Nat) : List Char :=
  if nanosecond = 0 then []
  else '.' :: ((padded 9 nanosecond).reverse.dropWhile (· = '0')).reverse

def renderOffset (offset : UtcOffset) : List Char :=
  if offset.minutes = 0 then ['Z']
  else (if offset.minutes < 0 then '-' else '+') ::
    (padded 2 (offset.minutes.natAbs / 60) ++ ':' :: padded 2 (offset.minutes.natAbs % 60))

/-- The RFC 3339 text of a timestamp from the year zero on. -/
def render? (t : Timestamp) : Option (List Char) :=
  if t.date.year < 0 then none
  else some <|
    padded 4 t.date.year.toNat ++ '-' :: padded 2 t.date.month ++ '-' :: padded 2 t.date.day ++
      'T' :: padded 2 t.time.hour ++ ':' :: padded 2 t.time.minute ++
      ':' :: padded 2 t.time.second ++ renderFraction t.time.nanosecond ++ renderOffset t.offset

end Timestamp

end FormCompiler
