import EventQuery.Eval.Error
import EventQuery.Stream.Event

/-!
Running aggregates: `count`, and the folds `sum`, `avg`, `min` and `max` of one argument. A current
event adds to the running state, an expired one takes away from it, and a reset clears it.
-/

namespace EventQuery

open Number

/-- The aggregates of one argument. -/
inductive FoldKind where
  | sum
  | avg
  | min
  | max
  deriving DecidableEq, Repr, Inhabited

/-- The aggregates: the number of events, or a fold of an argument. -/
inductive AggregateKind where
  | count
  | fold (kind : FoldKind)
  deriving DecidableEq, Repr, Inhabited

namespace FoldKind

def name : FoldKind → String
  | .sum => "sum"
  | .avg => "avg"
  | .min => "min"
  | .max => "max"

/-- The type of the result for an argument type. -/
def resultType (kind : FoldKind) (argument : AttributeType) : Except EvalError AttributeType :=
  if argument.isNumeric || argument = .object then
    .ok <| match kind with
      | .sum => if argument = .int || argument = .long then .long else .double
      | .avg => .double
      | .min | .max => argument
  else .error (.invalidArgument kind.name (.nonNumeric argument))

end FoldKind

namespace AggregateKind

def name : AggregateKind → String
  | .count => "count"
  | .fold kind => kind.name

def ofName? : String → Option AggregateKind
  | "sum" => some (.fold .sum)
  | "count" => some .count
  | "avg" => some (.fold .avg)
  | "min" => some (.fold .min)
  | "max" => some (.fold .max)
  | _ => none

/-- The number of arguments. -/
def arity : AggregateKind → Nat
  | .count => 0
  | .fold _ => 1

end AggregateKind

/-- The running state of an aggregate. `values` counts the live values in ascending order; of equal
values it keeps the first one. -/
structure Accumulator where
  count : Int
  sumLong : Int64
  sumDouble : Double
  values : List (Value × Nat)
  deriving DecidableEq, Repr

namespace Accumulator

/-- The state before any event. -/
def empty : Accumulator := ⟨0, 0, .zero, []⟩

instance : Inhabited Accumulator := ⟨empty⟩

/-- Add one copy of a value to a counted list in ascending order. -/
def addValue (v : Value) : List (Value × Nat) → List (Value × Nat)
  | [] => [(v, 1)]
  | (w, n) :: rest =>
    match v.order w with
    | .lt => (v, 1) :: (w, n) :: rest
    | .eq => (w, n + 1) :: rest
    | .gt => (w, n) :: addValue v rest

/-- Take one copy of a value away; a value that is not there changes nothing. -/
def removeValue (v : Value) : List (Value × Nat) → List (Value × Nat)
  | [] => []
  | (w, n) :: rest =>
    if v.same w then (if n ≤ 1 then rest else (w, n - 1) :: rest) else (w, n) :: removeValue v rest

/-- Move the count by one; a count beyond the 64-bit integers has no representation. -/
def step (a : Accumulator) (added : Bool) : Except EvalError Accumulator :=
  let count := if added then a.count + 1 else a.count - 1
  if Int64.minValue.toInt ≤ count ∧ count ≤ Int64.maxValue.toInt then .ok { a with count := count }
  else .error .overflow

/-- Add a value to the sums or take it away. The least 64-bit integer has no opposite to be taken
away. -/
def addToSums (a : Accumulator) (v : Value) (added : Bool) : Except EvalError Accumulator := do
  let sumLong ←
    match v.asLong with
    | none => .ok a.sumLong
    | some l =>
      if added then .ok (a.sumLong + l)
      else if l = Int64.minValue then .error .overflow
      else .ok (a.sumLong - l)
  let sumDouble :=
    match v.asDouble with
    | none => a.sumDouble
    | some x => if added then a.sumDouble.add x else a.sumDouble.sub x
  .ok { a with sumLong := sumLong, sumDouble := sumDouble }

/-- Fold one value into the state. Null changes nothing. -/
def fold (a : Accumulator) (kind : FoldKind) (v : Value) (added : Bool) :
    Except EvalError Accumulator :=
  if v.isNull then .ok a
  else do
    let a ← a.step added
    match kind with
    | .sum | .avg => a.addToSums v added
    | .min | .max =>
      .ok { a with values := if added then addValue v a.values else removeValue v a.values }

/-- The value of a fold whose result has a given type. -/
def result (a : Accumulator) (kind : FoldKind) (type : AttributeType) : Value :=
  match kind with
  | .sum => if type = .long then .long a.sumLong else .double a.sumDouble
  | .avg => if a.count = 0 then .null else .double (a.sumDouble.div (.ofInt a.count))
  | .min => (a.values.head?.map (·.1)).getD .null
  | .max => (a.values.getLast?.map (·.1)).getD .null

/-- The value of a fold after a reset. -/
def identity (kind : FoldKind) (type : AttributeType) : Value :=
  match kind with
  | .sum => if type = .long then .long 0 else .double .zero
  | .avg | .min | .max => .null

end Accumulator

end EventQuery
