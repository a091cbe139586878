import EventQuery.Expr.Operator
import EventQuery.Stream.Definition
import EventQuery.Value.Text

/-!
Condition expressions and their text.
-/

namespace EventQuery

/-- A condition expression. `member e source` is true where some event of the named source satisfies
`e`, and `slotEmpty stream` where the slot of the named stream holds no event. -/
inductive Expr where
  | const (v : Value)
  | var (v : Variable)
  | and (left right : Expr)
  | or (left right : Expr)
  | not (inner : Expr)
  | compare (op : Comparison) (left right : Expr)
  | arith (op : Arithmetic) (left right : Expr)
  | call (space : Option String) (name : String) (args : List Expr)
  | member (inner : Expr) (source : String)
  | isNull (inner : Expr)
  | slotEmpty (stream : String)
  deriving Repr, Inhabited

namespace Expr

/-- An unqualified attribute. -/
def named (name : String) : Expr := .var ⟨name, none⟩

/-- A function name with its namespace. -/
def qualifiedName (space : Option String) (name : String) : String :=
  match space with
  | some s => s ++ ":" ++ name
  | none => name

/-- The name of the kind of a node in diagnostics. -/
def kindName : Expr → String
  | .const _ => "Constant"
  | .var _ => "Variable"
  | .and .. => "And"
  | .or .. => "Or"
  | .not _ => "Not"
  | .compare .. => "Compare"
  | .arith .. => "Math"
  | .call .. => "FunctionCall"
  | .member .. => "In"
  | .isNull _ => "IsNull"
  | .slotEmpty _ => "StreamIsNull"

mutual

/-- An expression as it is written. Conjunctions, disjunctions and arithmetic stand in
parentheses. -/
def text : Expr → String
  | .const v => v.text
  | .var v => v.text
  | .and l r => "(" ++ text l ++ " and " ++ text r ++ ")"
  | .or l r => "(" ++ text l ++ " or " ++ text r ++ ")"
  | .not e => "not " ++ text e
  | .compare op l r => text l ++ " " ++ op.symbol ++ " " ++ text r
  | .arith op l r => "(" ++ text l ++ " " ++ op.symbol ++ " " ++ text r ++ ")"
  | .call space name args =>
    qualifiedName space name ++ "(" ++ String.intercalate ", " (texts args) ++ ")"
  | .member e source => text e ++ " in " ++ source
  | .isNull e => text e ++ " is null"
  | .slotEmpty stream => stream ++ " is null"

/-- The texts of a list of arguments. -/
def texts : List Expr → List String
  | [] => []
  | e :: es => text e :: texts es

end

end Expr

/-- The time range of an aggregate lookup: from a start up to an end, or a wildcard pattern. -/
inductive Within where
  | range (start stop : Expr)
  | pattern (e : Expr)
  deriving Repr, Inhabited

end EventQuery
