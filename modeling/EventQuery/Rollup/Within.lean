import EventQuery.Expr.Basic
import EventQuery.Rollup.Definition
import EventQuery.Time.Wildcard

/-!
The time range of an aggregate lookup as a condition on the timestamp of the rows.
-/

namespace EventQuery.Within

/-- A bound as an expression for milliseconds. Constant texts are read at once, other expressions
when they are evaluated. -/
def bound (e : Expr) : Except RollupError Expr :=
  match e with
  | .const (.string text) =>
    match Time.parseTimestamp text with
    | .ok millis => .ok (.const (.long millis))
    | .error cause => .error (.invalidWithin (.time cause))
  | .const (.int _) | .const (.long _) => .ok e
  | .const v => .error (.invalidWithin (.notATimestamp v))
  | e => .ok (.call (some "time") "toMillis" [e])

/-- The start and the end of the range. A pattern must be a constant. -/
def bounds (w : Within) : Except RollupError (Expr × Expr) :=
  match w with
  | .range start stop => do
    let start ← bound start
    let stop ← bound stop
    .ok (start, stop)
  | .pattern (.const (.string text)) =>
    match Time.expandPattern text with
    | .ok interval => .ok (.const (.long interval.start), .const (.long interval.stop))
    | .error cause => .error (.invalidWithin (.time cause))
  | .pattern e => .error (.invalidWithin (.patternNotConstant e.text))

/-- The two conditions on the rows of an aggregation: not before the start, and before the end. -/
def conditions (w : Within) (aggregation : String) : Except RollupError (Expr × Expr) := do
  let (start, stop) ← w.bounds
  let timestamp : Expr := .var ⟨timestampColumn, some aggregation⟩
  .ok (.compare .greaterEqual timestamp start, .compare .less timestamp stop)

/-- Both conditions in one. -/
def condition (w : Within) (aggregation : String) : Except RollupError Expr := do
  let (start, stop) ← w.conditions aggregation
  .ok (.and start stop)

end EventQuery.Within
