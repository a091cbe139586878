import EventQuery.Time.Granularity
import EventQuery.Time.Timestamp

/-!
Wildcard patterns such as `2017-06-** **:**:**`, each of which denotes the range of instants that
agree with its fixed fields. Wildcards fill every field from the first wildcarded one to the
seconds; the year is always fixed.
-/

namespace EventQuery.Time

open Text

/-- A half-open range of instants in milliseconds. -/
structure Interval where
  start : Int64
  stop : Int64
  deriving DecidableEq, Repr

/-- The offset in seconds that follows a pattern: none, or a sign and four digits with colons
anywhere. -/
def patternOffset (cs : List Char) : Option Int :=
  let read (sign : Int) (rest : List Char) : Option Int :=
    let digits := rest.filter (· ≠ ':')
    if digits.length = 4 ∧ digits.all Char.isDigit then
      let seconds := digitsValue (digits.take 2) * 3600 + digitsValue (digits.drop 2) * 60
      if seconds < 86400 then some (sign * seconds) else none
    else none
  match trim cs with
  | [] => some 0
  | '+' :: rest => read 1 rest
  | '-' :: rest => read (-1) rest
  | _ => none

/-- The granularity of the range of a pattern by the column of its first wildcard. -/
def wildcardUnit : Nat → Option Granularity
  | 5 => some .years
  | 8 => some .months
  | 11 => some .days
  | 14 => some .hours
  | 17 => some .minutes
  | _ => none

/-- The first value of the wildcard in a column: months and days count from one. -/
def wildcardDigit (column : Nat) : Char := if column = 6 ∨ column = 9 then '1' else '0'

/-- The text with every wildcard replaced by the first value of its field. Behind the first wildcard
only wildcards and separators may stand. -/
def fillWildcards (first : Nat) : Nat → List Char → Option (List Char)
  | _, [] => some []
  | column, c :: cs => do
    let d ←
      if column < first then (if c = '*' then none else some c)
      else if c = '-' ∨ c = ' ' ∨ c = ':' then some c
      else if c = '*' then some (wildcardDigit column)
      else none
    let rest ← fillWildcards first (column + c.utf8Size) cs
    some (d :: rest)

/-- The instant that lies a number of milliseconds after a civil date and time, where its date is
supported. -/
def shift? (millis : Int) : Option Int := (Date.ofMillis? millis).map fun _ => millis

/-- The end of the range that starts at a civil date and time, in the same local time. -/
def rangeEnd (unit : Granularity) (t : DateTime) : Option Int :=
  match unit with
  | .years =>
    let next : Date := ⟨t.date.year + 1, 1, 1⟩
    if next.isValid then some next.toMillis else none
  | .months =>
    let next := t.date.addMonths 1
    if next.isValid then some ({ t with date := next } : DateTime).toMillis else none
  | .days => shift? (t.toMillis + millisPerDay)
  | .hours => shift? (t.toMillis + millisPerHour)
  | _ => shift? (t.toMillis + millisPerMinute)

/-- The range that a trimmed pattern denotes. -/
def readPattern (cs : List Char) : Option Interval := do
  let (dateTime, offsetText) ← splitAtByte dateTimeLength cs
  let offset ← patternOffset offsetText
  let fixed := dateTime.takeWhile (· ≠ '*')
  let first := byteLength fixed
  let unit ← wildcardUnit first
  let filled ← fillWildcards first 0 dateTime
  let (t, rest) ← readDateTime filled
  if rest.isEmpty then
    let stop ← rangeEnd unit t
    let start ← shift? (t.toMillis - offset * millisPerSecond)
    let stop ← shift? (stop - offset * millisPerSecond)
    some ⟨.ofInt start, .ofInt stop⟩
  else none

/-- The range of instants that a pattern denotes. -/
def expandPattern (pattern : String) : Except TimeError Interval :=
  match readPattern (trim pattern.toList) with
  | some interval => .ok interval
  | none => .error (.invalidPattern pattern)

end EventQuery.Time
