import EventQuery.Eval.Arithmetic
import EventQuery.Eval.Function
import EventQuery.Eval.Memory

/-!
Compiled expressions and their evaluation on a frame of events.

A comparison with null is false. Conjunction and disjunction stop at the first operand that decides
them and treat all but `true` as false, so the negation of null is true. Arithmetic on null is null.
-/

namespace EventQuery

/-- A compiled expression. Variables are places in the frame, aggregates own a cell of the memory,
and `member` sees each row of its source in a slot of its own. -/
inductive Code where
  | const (v : Value)
  | read (slot position : Nat) (type : AttributeType)
  | and (left right : Code)
  | or (left right : Code)
  | not (inner : Code)
  | compare (op : Comparison) (left right : Code)
  | arith (op : Arithmetic) (left right : Code) (type : AttributeType)
  | call (f : Function) (args : List Code) (type : AttributeType)
  | count (cell : Nat)
  | fold (kind : FoldKind) (argument : Code) (type : AttributeType) (cell : Nat)
  | member (condition : Code) (source : String) (slot : Nat)
  | isNull (inner : Code)
  | slotEmpty (slot : Nat)
  deriving Repr, Inhabited

/-- The rows of the sources that `in` conditions search, by source. -/
abbrev SourceRows := String → List Event

namespace Code

/-- The static type of the value. -/
def type : Code → AttributeType
  | .const v => v.type
  | .read _ _ t | .arith _ _ _ t | .call _ _ t | .fold _ _ t _ => t
  | .count _ => .long
  | .and .. | .or .. | .not _ | .compare .. | .member .. | .isNull _ | .slotEmpty _ => .bool

/-- A numeric result follows its static type. -/
def conform (type : AttributeType) (v : Value) : Value :=
  if type.isNumeric && v.type ≠ type then (v.castNumeric type).getD v else v

/-- Count an event and give the number counted. -/
def runCount (cell : Nat) (kind : EventKind) : Run EvalError Value :=
  match kind with
  | .reset => do
    Run.writeCell cell .empty
    return .long 0
  | kind => do
    let a ← Run.readCell cell
    let a ← Run.ofExcept (a.step (kind = .current))
    Run.writeCell cell a
    return .long (.ofInt a.count)

/-- Fold a value into a cell and give the value of the aggregate. -/
def runFold (cell : Nat) (kind : FoldKind) (type : AttributeType) (added : Bool) (v : Value) :
    Run EvalError Value := do
  let a ← Run.readCell cell
  let a ← Run.ofExcept (a.fold kind v added)
  Run.writeCell cell a
  return a.result kind type

mutual

/-- The value of a compiled expression on a frame. -/
def run (rows : SourceRows) : Code → Frame → Run EvalError Value
  | .const v, _ => pure v
  | .read slot position _, f => pure (((f.slot slot).map (·.get position)).getD .null)
  | .and l r, f => do
    if (← run rows l f).isTrue then return .bool (← run rows r f).isTrue
    return .bool false
  | .or l r, f => do
    if (← run rows l f).isTrue then return .bool true
    return .bool (← run rows r f).isTrue
  | .not e, f => do return .bool (!(← run rows e f).isTrue)
  | .compare op l r, f => do
    let a ← run rows l f
    let b ← run rows r f
    return .bool (op.holds a b)
  | .arith op l r type, f => do
    let a ← run rows l f
    let b ← run rows r f
    Run.ofExcept (op.apply a b type)
  | .call fn args type, f => do
    let vs ← runAll rows args f
    let v ← Run.ofExcept (fn.apply vs)
    return conform type v
  | .count cell, f => runCount cell f.kind
  | .fold kind argument type cell, f =>
    match f.kind with
    | .reset => do
      Run.writeCell cell .empty
      return Accumulator.identity kind type
    | .current => do runFold cell kind type true (← run rows argument f)
    | .expired => do runFold cell kind type false (← run rows argument f)
  | .member condition source slot, f => do
    let found ← Run.anyM
      (fun row => do return (← run rows condition (f.setSlot slot (some row))).isTrue)
      (rows source)
    return .bool found
  | .isNull e, f => do return .bool (← run rows e f).isNull
  | .slotEmpty slot, f => pure (.bool (f.slot slot).isNone)

/-- The values of a list of arguments. -/
def runAll (rows : SourceRows) : List Code → Frame → Run EvalError (List Value)
  | [], _ => pure []
  | c :: cs, f => do
    let v ← run rows c f
    let vs ← runAll rows cs f
    return v :: vs

end

/-- Evaluate as a condition: all but `true` is false. -/
def test (rows : SourceRows) (c : Code) (f : Frame) : Run EvalError Bool := do
  return (← run rows c f).isTrue

end Code

end EventQuery
