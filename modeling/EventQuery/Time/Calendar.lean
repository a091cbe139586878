/-!
The proleptic Gregorian calendar. Days are counted from 1970-01-01 and milliseconds from its
midnight in UTC. The supported years are those of `minYear` to `maxYear`.
-/

namespace EventQuery.Time

/-- A civil date. -/
structure Date where
  year : Int
  month : Nat
  day : Nat
  deriving DecidableEq, Repr

/-- A civil date and a time of day. The second 60 stands for the first second of the next minute. -/
structure DateTime where
  date : Date
  hour : Nat
  minute : Nat
  second : Nat
  deriving DecidableEq, Repr

/-- The first supported year. -/
def minYear : Int := -262143

/-- The last supported year. -/
def maxYear : Int := 262142

def isLeapYear (year : Int) : Bool := year % 4 = 0 && (year % 100 ≠ 0 || year % 400 = 0)

/-- The number of days of a month. -/
def monthLength (year : Int) : Nat → Nat
  | 2 => if isLeapYear year then 29 else 28
  | 4 | 6 | 9 | 11 => 30
  | _ => 31

/-- The number of days from 0001-01-01 to the first day of a year. -/
def daysBeforeYear (year : Int) : Int :=
  let elapsed := year - 1
  365 * elapsed + elapsed / 4 - elapsed / 100 + elapsed / 400

/-- The number of days from the first day of a year to the first day of its `n + 1`st month. -/
def daysBeforeMonth (year : Int) : Nat → Nat
  | 0 => 0
  | n + 1 => daysBeforeMonth year n + monthLength year (n + 1)

/-- The number of days from 0001-01-01 to 1970-01-01. -/
def epochOffset : Int := 719162

/-- Whether a date is one of the calendar, in a supported year. -/
def Date.isValid (d : Date) : Bool :=
  minYear ≤ d.year && d.year ≤ maxYear && 1 ≤ d.month && d.month ≤ 12 && 1 ≤ d.day &&
    d.day ≤ monthLength d.year d.month

/-- The number of days from 1970-01-01 to a date. -/
def Date.toDays (d : Date) : Int :=
  daysBeforeYear d.year + daysBeforeMonth d.year (d.month - 1) + (d.day - 1 : Nat) - epochOffset

/-- The year that holds the `n`th day from 0001-01-01. The mean length of a year gives it up to
one. -/
def yearOfDay (n : Int) : Int :=
  let guess := n * 400 / 146097 + 1
  if n < daysBeforeYear guess then guess - 1
  else if daysBeforeYear (guess + 1) ≤ n then guess + 1
  else guess

/-- The month and day of the `n`th day from the first of `month`, looking at no more than `months`
months. -/
def monthOfDay (year : Int) (month : Nat) (n : Nat) : Nat → Nat × Nat
  | 0 => (month, n + 1)
  | months + 1 =>
    if n < monthLength year month then (month, n + 1)
    else monthOfDay year (month + 1) (n - monthLength year month) months

/-- The date that lies a number of days from 1970-01-01. -/
def Date.ofDays (days : Int) : Date :=
  let n := days + epochOffset
  let year := yearOfDay n
  let (month, day) := monthOfDay year 1 (n - daysBeforeYear year).toNat 11
  ⟨year, month, day⟩

/-- The first day of the month that lies a number of months from that of `d`. -/
def Date.addMonths (d : Date) (months : Nat) : Date :=
  let total := d.year * 12 + (d.month - 1 : Nat) + months
  let year := total / 12
  let month := (total % 12).toNat + 1
  ⟨year, month, min d.day (monthLength year month)⟩

def millisPerSecond : Int := 1000

def millisPerMinute : Int := 60 * millisPerSecond

def millisPerHour : Int := 60 * millisPerMinute

def millisPerDay : Int := 24 * millisPerHour

/-- Midnight at the start of a date. -/
def Date.toMillis (d : Date) : Int := d.toDays * millisPerDay

/-- The date of an instant, where its year is supported. -/
def Date.ofMillis? (millis : Int) : Option Date :=
  let date := Date.ofDays (millis / millisPerDay)
  if minYear ≤ date.year ∧ date.year ≤ maxYear then some date else none

/-- The instant of a civil date and time in UTC. -/
def DateTime.toMillis (t : DateTime) : Int :=
  t.date.toMillis + t.hour * millisPerHour + t.minute * millisPerMinute + t.second * millisPerSecond

end EventQuery.Time
