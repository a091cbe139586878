import EventQuery.Eval.Compile
import EventQuery.Rollup.Definition

/-!
The rows that an aggregation keeps: the start of the bucket, the group-by attributes, and partial
aggregates that can be aggregated again. An average is kept as a sum and a count, every partial
folds by an aggregate of its own kind, and a count folds as a sum. Equal partials of several outputs
are one column.
-/

namespace EventQuery

/-- A column of an aggregation row: what an input event contributes to it, and how rows are folded
in it. -/
structure RollupColumn where
  name : String
  type : AttributeType
  incoming : Expr
  base : Expr
  deriving Repr

/-- The columns after the timestamp, the output expressions over them, and the definition of the
rows. -/
structure RollupLayout where
  id : String
  input : Definition
  groupCount : Nat
  columns : List RollupColumn
  outputs : List (String × Expr)
  internal : Definition
  deriving Repr

namespace RollupColumn

/-- A group-by attribute is carried over. -/
def group (name : String) (type : AttributeType) : RollupColumn :=
  ⟨name, type, .named name, .named name⟩

/-- A partial that an aggregate of the same kind folds. -/
def partialOf (name : String) (type : AttributeType) (kind : FoldKind) (argument : String) :
    RollupColumn :=
  ⟨name, type, .named argument, .call none kind.name [.named name]⟩

/-- The name of the column of counts. -/
def countName : String := "AGG_COUNT"

/-- The count of events, which rows add up. -/
def count : RollupColumn :=
  ⟨countName, .long, .const (.long 1), .call none FoldKind.sum.name [.named countName]⟩

def sumName (argument : String) : String := "AGG_SUM_" ++ argument

/-- Add a column unless one of its name is there. -/
def addTo (c : RollupColumn) (columns : List RollupColumn) : List RollupColumn :=
  if columns.any (·.name = c.name) then columns else columns ++ [c]

end RollupColumn

namespace RollupLayout

open RollupColumn

/-- The type of an input attribute. -/
def inputType (d : RollupDefinition) (name : String) : Except RollupError AttributeType :=
  match d.input.typeOf name with
  | some type => .ok type
  | none => .error (.invalidDefinition d.id (.undefinedColumn name))

/-- The column of the sums of an attribute. -/
def sumColumn (d : RollupDefinition) (argument : String) : Except RollupError RollupColumn := do
  let type ← inputType d argument
  match FoldKind.sum.resultType type with
  | .ok type => .ok (partialOf (sumName argument) type .sum argument)
  | .error cause => .error (.eval cause)

/-- The columns that an aggregate needs, and its value over them. -/
def columnsFor (d : RollupDefinition) (a : AggregateOutput) :
    Except RollupError (List RollupColumn × Expr) :=
  let argument := a.argument.getD ""
  let extremum (kind : FoldKind) (name : String) :
      Except RollupError (List RollupColumn × Expr) := do
    let type ← inputType d argument
    .ok ([partialOf name type kind argument], .named name)
  match a.kind with
  | .count => .ok ([RollupColumn.count], .named countName)
  | .fold .sum => do .ok ([← sumColumn d argument], .named (sumName argument))
  | .fold .avg => do
    let sum ← sumColumn d argument
    .ok ([sum, RollupColumn.count],
      .arith .divide (.arith .multiply (.named sum.name) (.const (.double (.ofInt 1))))
        (.named countName))
  | .fold .min => extremum .min ("AGG_MIN_" ++ argument)
  | .fold .max => extremum .max ("AGG_MAX_" ++ argument)

/-- The columns of the group-by attributes; a repeated attribute has one column. -/
def groupColumns (d : RollupDefinition) (columns : List RollupColumn) :
    List String → Except RollupError (List RollupColumn)
  | [] => .ok columns
  | name :: rest => do
    let type ← inputType d name
    groupColumns d ((group name type).addTo columns) rest

/-- The columns and outputs of aggregates, after columns that are already there. -/
def aggregateColumns (d : RollupDefinition) (columns : List RollupColumn) :
    List AggregateOutput → Except RollupError (List RollupColumn × List (String × Expr))
  | [] => .ok (columns, [])
  | a :: rest => do
    let (needed, output) ← columnsFor d a
    let (columns, outputs) ←
      aggregateColumns d (needed.foldl (fun columns c => c.addTo columns) columns) rest
    .ok (columns, (a.name, output) :: outputs)

/-- The layout of an aggregation. -/
def ofDefinition (d : RollupDefinition) : Except RollupError RollupLayout := do
  let groups ← groupColumns d [] d.groupBy
  let (columns, outputs) ← aggregateColumns d groups d.aggregates
  let attributes := ⟨timestampColumn, .long⟩ :: columns.map fun c => (⟨c.name, c.type⟩ : Attribute)
  .ok ⟨d.id, d.input, d.groupBy.length, columns, outputs, ⟨d.id, attributes⟩⟩

/-- The definition of the rows kept for a granularity. -/
def tableDefinition (l : RollupLayout) (g : Granularity) : Definition :=
  { l.internal with id := l.id ++ "_" ++ g.name }

def isGrouped (l : RollupLayout) : Bool := 0 < l.groupCount

/-- Compile a list of expressions for the events of one definition. -/
def compileAll (context : Context) (d : Definition) (es : List Expr) :
    Allot RollupError (List Code) :=
  (Compile.codes context es (.single d)).mapError .eval

/-- What an input event contributes to the columns. -/
def incomingCodes (l : RollupLayout) (context : Context) : Allot RollupError (List Code) :=
  compileAll context l.input (l.columns.map (·.incoming))

/-- How rows are folded in the columns. -/
def baseCodes (l : RollupLayout) (context : Context) : Allot RollupError (List Code) :=
  compileAll context l.internal (l.columns.map (·.base))

/-- The names and values of an output row: the timestamp, the group-by attributes and the
outputs. -/
def outputColumns (l : RollupLayout) : Except RollupError (List (String × Expr)) :=
  if l.columns.length < l.groupCount then .error (.groupOverrun l.groupCount l.columns.length)
  else
    let groups := (l.columns.take l.groupCount).map fun c => (c.name, Expr.named c.name)
    .ok ((timestampColumn, .named timestampColumn) :: (groups ++ l.outputs))

/-- Compile the output row, and give its definition. -/
def outputCodes (l : RollupLayout) (context : Context) :
    Allot RollupError (List Code × Definition) := do
  let columns ← l.outputColumns
  let codes ← compileAll context l.internal (columns.map (·.2))
  let attributes :=
    (columns.zip codes).map fun (column, code) => (⟨column.1, code.type⟩ : Attribute)
  return (codes, ⟨l.id, attributes⟩)

end RollupLayout

end EventQuery
