import EventQuery.Text.Blank
import EventQuery.Time.Calendar
import EventQuery.Time.Error

/-!
Granularities: the widths of the buckets that partition time. Seconds to days have a fixed width;
months and years follow the calendar in UTC.
-/

namespace EventQuery

open Time

/-- The width of a time bucket. -/
inductive Granularity where
  | seconds
  | minutes
  | hours
  | days
  | months
  | years
  deriving DecidableEq, Repr, Inhabited

namespace Granularity

/-- All granularities, finest first. -/
def all : List Granularity := [.seconds, .minutes, .hours, .days, .months, .years]

/-- The place among all granularities, finest first. -/
def rank : Granularity → Nat
  | .seconds => 0
  | .minutes => 1
  | .hours => 2
  | .days => 3
  | .months => 4
  | .years => 5

def name : Granularity → String
  | .seconds => "SECONDS"
  | .minutes => "MINUTES"
  | .hours => "HOURS"
  | .days => "DAYS"
  | .months => "MONTHS"
  | .years => "YEARS"

/-- The width in milliseconds, where it is fixed. -/
def fixedWidth : Granularity → Option Int
  | .seconds => some millisPerSecond
  | .minutes => some millisPerMinute
  | .hours => some millisPerHour
  | .days => some millisPerDay
  | .months | .years => none

/-- The granularity of a name in singular or plural, in any case, with white space around it. -/
def ofName (text : String) : Except TimeError Granularity :=
  match String.ofList ((Text.trim text.toList).map Char.toLower) with
  | "sec" | "secs" | "second" | "seconds" => .ok .seconds
  | "min" | "mins" | "minute" | "minutes" => .ok .minutes
  | "hour" | "hours" => .ok .hours
  | "day" | "days" => .ok .days
  | "month" | "months" => .ok .months
  | "year" | "years" => .ok .years
  | _ => .error (.unknownGranularity text)

/-- A number of milliseconds as a timestamp; the failure names the timestamp that it was computed
from. -/
def timestampFrom (source : Int64) (millis : Int) : Except TimeError Int64 :=
  if Int64.minValue.toInt ≤ millis ∧ millis ≤ Int64.maxValue.toInt then .ok (.ofInt millis)
  else .error (.outOfRange source)

/-- The first day of the month or year that holds a date. -/
def firstDate (g : Granularity) (d : Date) : Date :=
  match g with
  | .years => ⟨d.year, 1, 1⟩
  | _ => ⟨d.year, d.month, 1⟩

/-- The number of months in a bucket that follows the calendar. -/
def monthCount : Granularity → Nat
  | .years => 12
  | _ => 1

/-- The start of the bucket that holds a timestamp. -/
def startTime (g : Granularity) (timestamp : Int64) : Except TimeError Int64 :=
  let millis := timestamp.toInt
  match g.fixedWidth with
  | some width => timestampFrom timestamp (millis - millis % width)
  | none =>
    match Date.ofMillis? millis with
    | some date => .ok (.ofInt (g.firstDate date).toMillis)
    | none => .error (.outOfRange timestamp)

/-- The start of the bucket after the one that holds a timestamp. -/
def nextStartTime (g : Granularity) (timestamp : Int64) : Except TimeError Int64 := do
  let start ← g.startTime timestamp
  match g.fixedWidth with
  | some width => timestampFrom timestamp (start.toInt + width)
  | none =>
    match Date.ofMillis? start.toInt with
    | none => .error (.outOfRange start)
    | some date =>
      let next := date.addMonths g.monthCount
      if next.isValid then .ok (.ofInt next.toMillis) else .error (.outOfRange timestamp)

end Granularity

end EventQuery
