import EventQuery.Number.Binary

/-!
The values that event attributes hold at run time and the types that definitions declare for them.

Integers wrap at their declared width, floating point numbers are held as words, and `null` stands
for a missing value of any type.
-/

namespace EventQuery

open Number

/-- The declared type of an attribute. `object` is untyped: the static type of a null constant. -/
inductive AttributeType where
  | string
  | int
  | long
  | float
  | double
  | bool
  | object
  deriving DecidableEq, Repr, Inhabited

def AttributeType.all : List AttributeType :=
  [.string, .int, .long, .float, .double, .bool, .object]

/-- The name of a type in error messages. -/
def AttributeType.name : AttributeType → String
  | .string => "STRING"
  | .int => "INT"
  | .long => "LONG"
  | .float => "FLOAT"
  | .double => "DOUBLE"
  | .bool => "BOOL"
  | .object => "OBJECT"

/-- The place of a numeric type in the order of widening. -/
def AttributeType.numericRank : AttributeType → Option Nat
  | .int => some 0
  | .long => some 1
  | .float => some 2
  | .double => some 3
  | .string | .bool | .object => none

def AttributeType.isNumeric (t : AttributeType) : Bool := t.numericRank.isSome

/-- The wider of two numeric types. -/
def AttributeType.widen (s t : AttributeType) : Option AttributeType :=
  match s.numericRank, t.numericRank with
  | some a, some b => some (if b ≤ a then s else t)
  | _, _ => none

/-- A value of an attribute. -/
inductive Value where
  | null
  | bool (b : Bool)
  | int (i : Int32)
  | long (l : Int64)
  | float (x : Single)
  | double (x : Double)
  | string (s : String)
  deriving DecidableEq, Repr, Inhabited

namespace Value

/-- The comparison class of a value: values of different classes are never compared by content. -/
inductive Kind where
  | null
  | bool
  | numeric
  | string
  deriving DecidableEq, Repr

def kind : Value → Kind
  | .null => .null
  | .bool _ => .bool
  | .int _ | .long _ | .float _ | .double _ => .numeric
  | .string _ => .string

def isNull : Value → Bool
  | .null => true
  | _ => false

/-- True for the boolean `true` alone; null and values of other types are not. -/
def isTrue : Value → Bool
  | .bool true => true
  | _ => false

/-- The type of a value; null is untyped. -/
def type : Value → AttributeType
  | .null => .object
  | .bool _ => .bool
  | .int _ => .int
  | .long _ => .long
  | .float _ => .float
  | .double _ => .double
  | .string _ => .string

def asBool : Value → Option Bool
  | .bool b => some b
  | _ => none

/-- The content of an integer of either width. -/
def asLong : Value → Option Int64
  | .int i => some i.toInt64
  | .long l => some l
  | _ => none

/-- The double nearest to a value of any numeric type. -/
def asDouble : Value → Option Double
  | .int i => some (.ofInt i.toInt)
  | .long l => some (.ofInt l.toInt)
  | .float x => some x.toDouble
  | .double x => some x
  | _ => none

def asString : Value → Option String
  | .string s => some s
  | _ => none

/-- Convert a numeric value to a numeric type. Long to int keeps the low bits, a floating point
number is truncated into the range of the integer type, and a single is reached through a double. -/
def castNumeric (v : Value) : AttributeType → Option Value
  | .int =>
    match v with
    | .int i => some (.int i)
    | .long l => some (.int l.toInt32)
    | .float x => some (.int x.toDouble.toInt32)
    | .double x => some (.int x.toInt32)
    | _ => none
  | .long =>
    match v with
    | .float x => some (.long x.toDouble.toInt64)
    | .double x => some (.long x.toInt64)
    | v => v.asLong.map .long
  | .float => v.asDouble.map fun x => .float x.toSingle
  | .double => v.asDouble.map .double
  | .string | .bool | .object => none

end Value

end EventQuery
