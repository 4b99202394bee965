import FormCompiler.Text.Blank
import FormCompiler.Timestamp.Rfc3339

/-!
# FormCompiler.DateExpression

Dates as people write them, relative to a reference instant:

1. RFC 3339 text, or `[+|-]yyyy-mm-dd` for midnight UTC;
2. `now`, `today`, `tomorrow` and `yesterday`;
3. `<n> <unit> ago`, `in <n> <unit>`, `+<n> <unit>` and `-<n> <unit>`,
   where the unit is a day, week, month or year, in the singular or plural.

Letters count regardless of ASCII case, blanks around and between words do
not count.  Amounts are 64-bit integers with a sign of their own; what
leaves 64 bits or the range of years is no date.
-/

namespace FormCompiler.DateExpression

/-! ## amounts -/

/-- An integer that fits 64 bits. -/
def fitting? (n : Int) : Option Int :=
  if -9223372036854775808 ≤ n ∧ n < 9223372036854775808 then some n else none

def digits? (cs : List Char) : Option Nat :=
  if !cs.isEmpty && cs.all Char.isDigit then some (Timestamp.digitsValue cs) else none

/-- A 64-bit integer, with at most one sign. -/
def amount? (cs : List Char) : Option Int :=
  let value := match cs with
    | '+' :: ds => (digits? ds).map Int.ofNat
    | '-' :: ds => (digits? ds).map fun n => -(n : Int)
    | ds => (digits? ds).map Int.ofNat
  value.bind fitting?

/-! ## units -/

/-- The units of relative dates. -/
inductive DateUnit where
  | day
  | week
  | month
  | year
deriving DecidableEq, Repr

/-- The name of a unit, in the singular. -/
def DateUnit.name : DateUnit → String
  | day => "day"
  | week => "week"
  | month => "month"
  | year => "year"

/-- The unit that a word names, once every `s` at its end is dropped. -/
def unit? (word : List Char) : Option DateUnit :=
  let singular := (word.reverse.dropWhile (· = 's')).reverse
  [.day, .week, .month, .year].find? fun unit => unit.name.toList = singular

/-- The number of seconds of a day. -/
def secondsPerDay : Int := 86400

/-- The instant some units later. -/
def shift? (start : Timestamp) (amount : Int) : DateUnit → Option Timestamp
  | .day => do
    let seconds ← fitting? (amount * secondsPerDay)
    start.addDays? (seconds / secondsPerDay)
  | .week => do
    let seconds ← fitting? (amount * (7 * secondsPerDay))
    start.addDays? (seconds / secondsPerDay)
  | .month => addMonths? amount
  | .year => do addMonths? (← fitting? (amount * 12))
where
  /-- The instant some months later. -/
  addMonths? (months : Int) : Option Timestamp := do
    let _ ← fitting? (start.date.monthIndex + months)
    start.addMonths? months

/-! ## expressions -/

/-- The direction of a relative date. -/
inductive Direction where
  | past
  | future
deriving DecidableEq, Repr

/-- An amount counted in a direction. -/
def Direction.apply : Direction → Int → Int
  | past, n => -n
  | future, n => n

/-- Amount, unit and direction of a relative date, as words. -/
def relative? : List (List Char) → Option (List Char × List Char × Direction)
  | [n, unit, last] =>
    if last = "ago".toList then some (n, unit, .past)
    else if n = "in".toList then some (unit, last, .future)
    else none
  | ['+' :: n, unit] => some (n, unit, .future)
  | ['-' :: n, unit] => some (n, unit, .past)
  | _ => none

/-- A date in its short form, at midnight UTC. -/
def shortDate? (cs : List Char) : Option Timestamp := do
  let (negative, cs) := match cs with
    | '-' :: cs => (true, cs)
    | '+' :: cs => (false, cs)
    | cs => (false, cs)
  let (year, cs) ← Timestamp.takeDigits? 4 cs
  let cs ← (Timestamp.readLiteral '-' cs).toOption
  let (month, cs) ← Timestamp.takeDigits? 2 cs
  let cs ← (Timestamp.readLiteral '-' cs).toOption
  let (day, cs) ← Timestamp.takeDigits? 2 cs
  if !cs.isEmpty then none
  let date ← Date.of? (if negative then -(year : Int) else year) month day
  return ⟨date, .midnight, .utc⟩

/-- A keyword or relative date, in lower case. -/
def resolveWords? (lower : List Char) (now : Timestamp) : Option Timestamp :=
  if lower = "now".toList then some now
  else if lower = "today".toList then some now.startOfDay
  else if lower = "tomorrow".toList then now.startOfDay.addDays? 1
  else if lower = "yesterday".toList then now.startOfDay.addDays? (-1)
  else do
    let (word, unit, direction) ← relative? (Text.words lower)
    let amount ← fitting? (direction.apply (← amount? word))
    shift? now amount (← unit? unit)

/-- The instant that an expression means at the reference instant. -/
def resolve? (expression : String) (now : Timestamp) : Option Timestamp :=
  let cs := Text.trim expression.toList
  match Timestamp.parse cs with
  | .ok t => some t
  | .error _ =>
    match shortDate? cs with
    | some t => some t
    | none => resolveWords? (cs.map Char.toLower) now

end FormCompiler.DateExpression
