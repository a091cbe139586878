import EventQuery.Eval.Error

/-!
Arithmetic on values. An operation is carried out in a target type: integers wrap at 64 bits and are
then narrowed to the target, floating point numbers are computed as doubles. A null operand gives
null.
-/

namespace EventQuery.Arithmetic

open Number

/-- The result of an operator on 64-bit integers; division truncates toward zero. -/
def onLongs (op : Arithmetic) (a b : Int64) : Except EvalError Int64 :=
  match op with
  | .add => .ok (a + b)
  | .subtract => .ok (a - b)
  | .multiply => .ok (a * b)
  | .divide => if b = 0 then .error .divisionByZero else .ok (a / b)
  | .remainder => if b = 0 then .error .divisionByZero else .ok (a % b)

/-- The result of an operator on doubles. -/
def onDoubles (op : Arithmetic) (x y : Double) : Double :=
  match op with
  | .add => x.add y
  | .subtract => x.sub y
  | .multiply => x.mul y
  | .divide => x.div y
  | .remainder => x.rem y

/-- The operator does not apply to the types of these values. -/
def mismatch (op : Arithmetic) (a b : Value) : EvalError :=
  .unsupportedOperator op.symbol a.type b.type

/-- Apply an operator to two values that are not null, in a numeric target type. -/
def applyIn (op : Arithmetic) (a b : Value) (target : AttributeType) : Except EvalError Value :=
  match target with
  | .int | .long =>
    match a.castNumeric .long, b.castNumeric .long with
    | some (.long x), some (.long y) => do
      let result ← op.onLongs x y
      .ok (if target = .int then .int result.toInt32 else .long result)
    | _, _ => .error (op.mismatch a b)
  | .float | .double =>
    match a.asDouble, b.asDouble with
    | some x, some y =>
      let result := op.onDoubles x y
      .ok (if target = .float then .float result.toSingle else .double result)
    | _, _ => .error (op.mismatch a b)
  | .string | .bool | .object => .error (op.mismatch a b)

/-- Apply an operator in a target type. An untyped target stands for the wider of the types of the
operands. -/
def apply (op : Arithmetic) (a b : Value) (target : AttributeType) : Except EvalError Value :=
  if a.isNull || b.isNull then .ok .null
  else if target = .object then
    match a.type.widen b.type with
    | some wider => op.applyIn a b wider
    | none => .error (op.mismatch a b)
  else op.applyIn a b target

end EventQuery.Arithmetic
