import EventQuery.Eval.Code

/-!
Compilation: variables are bound to slots, functions and sources are looked up, and types are
checked. Untyped operands are accepted everywhere.
-/

namespace EventQuery

/-- A source that `in` conditions search: the id that they name it by, and the shape of its rows,
whose definition may have another id. -/
structure Source where
  id : String
  definition : Definition
  deriving Repr

/-- What expressions can refer to besides the slots of their layout: a registry of functions, and
sources. -/
structure Context where
  functions : List Function
  sources : List Source
  deriving Repr

namespace Context

/-- The standard functions and no sources. -/
def standard : Context := ⟨Function.standard, []⟩

/-- Register a source under its id, in place of an earlier one of the same id. -/
def register (c : Context) (s : Source) : Context :=
  { c with sources := c.sources.filter (·.id ≠ s.id) ++ [s] }

/-- Register a table as a source; its id is that of its definition. -/
def addSource (c : Context) (d : Definition) : Context := c.register ⟨d.id, d⟩

/-- The shape of the rows of a source. -/
def source? (c : Context) (id : String) : Option Definition :=
  (c.sources.find? (·.id = id)).map (·.definition)

end Context

namespace Compile

/-- Only boolean and untyped expressions can be conditions. -/
def expectBool (type : AttributeType) : Except EvalError Unit :=
  match type with
  | .bool | .object => .ok ()
  | type => .error (.typeMismatch AttributeType.bool.name type.name)

/-- Numbers compare with numbers; strings and booleans only for equality. -/
def checkComparable (op : Comparison) (left right : AttributeType) : Except EvalError Unit :=
  if left = .object || right = .object || (left.isNumeric && right.isNumeric) ||
      (left = right && op.isEquality) then .ok ()
  else .error (.unsupportedOperator op.symbol left right)

/-- The type of an arithmetic expression: that of the other operand where one is untyped, the wider
one elsewhere. -/
def arithType (op : Arithmetic) (left right : AttributeType) : Except EvalError AttributeType :=
  if left = .object && (right.isNumeric || right = .object) then .ok right
  else if right = .object && left.isNumeric then .ok left
  else
    match left.widen right with
    | some wider => .ok wider
    | none => .error (.unsupportedOperator op.symbol left right)

/-- The aggregate of the given kind over compiled arguments. -/
def aggregate (kind : AggregateKind) (args : List Code) : Allot EvalError Code :=
  match kind, args with
  | .count, [] => do return .count (← Allot.cell)
  | .fold fold, [argument] => do
    let type ← fold.resultType argument.type
    return .fold fold argument type (← Allot.cell)
  | kind, args => throw (.argumentCount kind.name (.exactly kind.arity) args.length)

/-- The aggregate that a function name means; a namespace means none. -/
def aggregateOf (space : Option String) (name : String) : Option AggregateKind :=
  match space with
  | none => AggregateKind.ofName? name
  | some _ => none

mutual

/-- Compile an expression for a layout. -/
def code (context : Context) : Expr → Layout → Allot EvalError Code
  | .const v, _ => pure (.const v)
  | .var v, layout =>
    match layout.resolve v with
    | .ok b => pure (.read b.slot b.position b.type)
    | .error e => throw (.ofResolve e)
  | .and l r, layout => do
    let l ← code context l layout
    expectBool l.type
    let r ← code context r layout
    expectBool r.type
    return .and l r
  | .or l r, layout => do
    let l ← code context l layout
    expectBool l.type
    let r ← code context r layout
    expectBool r.type
    return .or l r
  | .not e, layout => do
    let e ← code context e layout
    expectBool e.type
    return .not e
  | .compare op l r, layout => do
    let l ← code context l layout
    let r ← code context r layout
    checkComparable op l.type r.type
    return .compare op l r
  | .arith op l r, layout => do
    let l ← code context l layout
    let r ← code context r layout
    let type ← arithType op l.type r.type
    return .arith op l r type
  | .call space name args, layout =>
    match aggregateOf space name with
    | some kind =>
      if 1 < args.length then throw (.argumentCount kind.name (.exactly kind.arity) args.length)
      else do
        let args ← codes context args layout
        aggregate kind args
    | none => do
      let qualified := Expr.qualifiedName space name
      match Function.find? context.functions qualified with
      | none => throw (.undefinedFunction qualified)
      | some f =>
        f.arity.check f.name args.length
        let args ← codes context args layout
        let type ← f.resultType (args.map Code.type)
        return .call f args type
  | .member e source, layout =>
    match context.source? source with
    | none => throw (.undefinedSource source)
    | some d => do
      let condition ← code context e (layout.extend d source)
      expectBool condition.type
      return .member condition source layout.slots.length
  | .isNull e, layout => do return .isNull (← code context e layout)
  | .slotEmpty stream, layout =>
    match layout.slotOf stream with
    | some slot => pure (.slotEmpty slot)
    | none => throw (.undefinedStream stream)

/-- Compile a list of arguments. -/
def codes (context : Context) : List Expr → Layout → Allot EvalError (List Code)
  | [], _ => pure []
  | e :: es, layout => do
    let c ← code context e layout
    let cs ← codes context es layout
    return c :: cs

end

/-- Compile a condition. -/
def condition (context : Context) (e : Expr) (layout : Layout) : Allot EvalError Code := do
  let c ← code context e layout
  expectBool c.type
  return c

end Compile

/-- A compiled expression with its memory. -/
abbrev Evaluator := Stateful Code

namespace Evaluator

/-- Compile any expression. -/
def ofExpr (context : Context) (e : Expr) (layout : Layout) : Except EvalError Evaluator :=
  (Compile.code context e layout).finish

/-- Compile a condition. -/
def ofCondition (context : Context) (e : Expr) (layout : Layout) : Except EvalError Evaluator :=
  (Compile.condition context e layout).finish

/-- The value on a frame, with the evaluator afterwards. -/
def eval (e : Evaluator) (rows : SourceRows) (f : Frame) : Except EvalError Value × Evaluator :=
  e.run fun c => c.run rows f

end Evaluator

end EventQuery
