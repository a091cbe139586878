import EventQuery.Value.Order

/-!
The operators of condition expressions: comparisons and arithmetic.
-/

namespace EventQuery

/-- Comparison operators. -/
inductive Comparison where
  | equal
  | notEqual
  | less
  | lessEqual
  | greater
  | greaterEqual
  deriving DecidableEq, Repr, Inhabited

namespace Comparison

def all : List Comparison := [.equal, .notEqual, .less, .lessEqual, .greater, .greaterEqual]

def symbol : Comparison → String
  | .equal => "=="
  | .notEqual => "!="
  | .less => "<"
  | .lessEqual => "<="
  | .greater => ">"
  | .greaterEqual => ">="

/-- The operator that holds between the swapped operands. -/
def converse : Comparison → Comparison
  | .equal => .equal
  | .notEqual => .notEqual
  | .less => .greater
  | .lessEqual => .greaterEqual
  | .greater => .less
  | .greaterEqual => .lessEqual

def isEquality : Comparison → Bool
  | .equal | .notEqual => true
  | _ => false

/-- Whether an ordering of the operands satisfies the operator. -/
def accepts (op : Comparison) (o : Ordering) : Bool :=
  match op with
  | .equal => o == .eq
  | .notEqual => o != .eq
  | .less => o == .lt
  | .lessEqual => o != .gt
  | .greater => o == .gt
  | .greaterEqual => o != .lt

/-- Whether the operator holds between two values; it never does where a side is null or the kinds
differ. -/
def holds (op : Comparison) (a b : Value) : Bool :=
  match a.compare? b with
  | some o => op.accepts o
  | none => false

end Comparison

/-- Arithmetic operators. -/
inductive Arithmetic where
  | add
  | subtract
  | multiply
  | divide
  | remainder
  deriving DecidableEq, Repr, Inhabited

def Arithmetic.all : List Arithmetic := [.add, .subtract, .multiply, .divide, .remainder]

def Arithmetic.symbol : Arithmetic → String
  | .add => "+"
  | .subtract => "-"
  | .multiply => "*"
  | .divide => "/"
  | .remainder => "%"

end EventQuery
