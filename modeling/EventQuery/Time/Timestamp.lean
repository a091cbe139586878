import EventQuery.Text.Blank
import EventQuery.Time.Calendar
import EventQuery.Time.Error

/-!
Timestamps in text: `yyyy-MM-dd HH:mm:ss` in UTC, or the same followed by an offset.

The reader is lenient. White space may stand before every number, the space between date and time
may be any white space or none, numbers may be shorter than their columns, and a year may carry a
sign, which also lifts its limit of four digits. The second 60 is accepted. The form is chosen by
length: nineteen bytes have no offset, all other texts need one.
-/

namespace EventQuery.Time

open Text

/-- The value of decimal digits. -/
def digitsValue (cs : List Char) : Nat := cs.foldl (fun n c => 10 * n + (c.toNat - '0'.toNat)) 0

/-- Read one to `limit` decimal digits. -/
def readDigits (limit : Nat) (cs : List Char) : Option (Nat × List Char) :=
  let digits := (cs.take limit).takeWhile Char.isDigit
  if digits.isEmpty then none else some (digitsValue digits, cs.drop digits.length)

/-- Read a number of at most two digits within bounds, after white space. -/
def readField (least greatest : Nat) (cs : List Char) : Option (Nat × List Char) := do
  let (n, rest) ← readDigits 2 (trimStart cs)
  if least ≤ n ∧ n ≤ greatest then some (n, rest) else none

/-- Read a year, after white space. -/
def readYear (cs : List Char) : Option (Int × List Char) :=
  match trimStart cs with
  | '-' :: rest => (readDigits rest.length rest).map fun (n, rest) => (-(n : Int), rest)
  | '+' :: rest => (readDigits rest.length rest).map fun (n, rest) => ((n : Int), rest)
  | rest => (readDigits 4 rest).map fun (n, rest) => ((n : Int), rest)

/-- Read one given character. -/
def readChar (c : Char) : List Char → Option (List Char)
  | d :: rest => if c = d then some rest else none
  | [] => none

/-- Read a civil date and time and give the text after it. -/
def readDateTime (cs : List Char) : Option (DateTime × List Char) := do
  let (year, cs) ← readYear cs
  let cs ← readChar '-' cs
  let (month, cs) ← readField 1 12 cs
  let cs ← readChar '-' cs
  let (day, cs) ← readField 1 31 cs
  let (hour, cs) ← readField 0 23 cs
  let cs ← readChar ':' cs
  let (minute, cs) ← readField 0 59 cs
  let cs ← readChar ':' cs
  let (second, cs) ← readField 0 60 cs
  let date : Date := ⟨year, month, day⟩
  if date.isValid then some (⟨date, hour, minute, second⟩, cs) else none

/-- Read a sign of an offset; a minus sign may be written with its own character. -/
def readSign : List Char → Option (Int × List Char)
  | '+' :: rest => some (1, rest)
  | '-' :: rest => some (-1, rest)
  | '\u2212' :: rest => some (-1, rest)
  | _ => none

/-- Read two digits. -/
def readPair : List Char → Option (Nat × List Char)
  | a :: b :: rest => if a.isDigit && b.isDigit then some (digitsValue [a, b], rest) else none
  | _ => none

/-- Read an offset in seconds, after white space: a sign, two digits of hours, colons and white
space, two digits of minutes. It is less than a day. -/
def readOffset (cs : List Char) : Option (Int × List Char) := do
  let (sign, cs) ← readSign (trimStart cs)
  let (hours, cs) ← readPair cs
  let (minutes, cs) ← readPair (cs.dropWhile fun c => c = ':' || isBlank c)
  if minutes < 60 ∧ hours < 24 then some (sign * (hours * 3600 + minutes * 60 : Nat), cs) else none

/-- The number of bytes of a timestamp without an offset. -/
def dateTimeLength : Nat := 19

/-- The instant of a civil date and time at an offset in seconds, where its date in UTC is
supported. -/
def DateTime.toMillisAt? (t : DateTime) (offset : Int) : Option Int :=
  let millis := t.toMillis - offset * millisPerSecond
  let wholeMinute := { t with second := 0 }.toMillis - offset * millisPerSecond
  (Date.ofMillis? wholeMinute).map fun _ => millis

/-- The instant that a trimmed text denotes. -/
def readTimestamp (cs : List Char) : Option Int := do
  let (t, rest) ← readDateTime cs
  if byteLength cs = dateTimeLength then
    if rest.isEmpty then some t.toMillis else none
  else
    let (offset, rest) ← readOffset rest
    if rest.isEmpty then t.toMillisAt? offset else none

/-- The milliseconds since the epoch that a text denotes. -/
def parseTimestamp (text : String) : Except TimeError Int64 :=
  let cs := trim text.toList
  match readTimestamp cs with
  | some millis => .ok (.ofInt millis)
  | none => .error (.invalidTimestamp (String.ofList cs))

end EventQuery.Time
