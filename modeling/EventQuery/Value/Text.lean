import EventQuery.Number.Decimal
import EventQuery.Value.Basic

/-!
The text of values: with marks of their types where a value is shown, bare where strings are joined.
-/

namespace EventQuery.Value

/-- A value as it is shown: longs end in `L`, singles in `f`, and strings stand in single quotes. -/
def text : Value → String
  | .null => "null"
  | .bool b => if b then "true" else "false"
  | .int i => toString i.toInt
  | .long l => toString l.toInt ++ "L"
  | .float x => x.text ++ "f"
  | .double x => x.text
  | .string s => "'" ++ s ++ "'"

/-- The bare content of a value; that of null is empty. -/
def plainText : Value → String
  | .null => ""
  | .bool b => if b then "true" else "false"
  | .int i => toString i.toInt
  | .long l => toString l.toInt
  | .float x => x.text
  | .double x => x.text
  | .string s => s

end EventQuery.Value
