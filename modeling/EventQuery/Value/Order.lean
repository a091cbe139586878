import EventQuery.Value.Basic

/-!
The two orders of values. `Value.order` is total and serves indexes: null comes first, then
booleans, numbers and strings. Numbers of all types are compared as the exact numbers that they
denote. `Value.compare?` serves conditions: it has no answer where a side is null or the kinds
differ, and is `Value.order` elsewhere.
-/

namespace EventQuery.Value

open Number

/-- The place of a kind among the kinds. -/
def Kind.rank : Kind → Nat
  | .null => 0
  | .bool => 1
  | .numeric => 2
  | .string => 3

/-- The place of a numeric value in the order of all numbers. -/
def numberRank : Value → Int × Int
  | .int i => rankOfInt i.toInt
  | .long l => rankOfInt l.toInt
  | .float x => x.toDouble.rank
  | .double x => x.rank
  | .null | .bool _ | .string _ => (0, 0)

/-- Lexicographic order of pairs. -/
def compareRanks (a b : Int × Int) : Ordering := (compare a.1 b.1).then (compare a.2 b.2)

/-- The order of the contents of two values of one kind. -/
def contentOrder : Value → Value → Ordering
  | .bool x, .bool y => compare x y
  | .string x, .string y => compare x y
  | a, b => compareRanks a.numberRank b.numberRank

/-- The total order of values. -/
def order (a b : Value) : Ordering := (compare a.kind.rank b.kind.rank).then (contentOrder a b)

/-- Equality of values: equal numbers of different types are the same value. -/
def same (a b : Value) : Bool := order a b == .eq

/-- The order that conditions see. -/
def compare? (a b : Value) : Option Ordering :=
  if a.isNull || b.isNull || a.kind != b.kind then none else some (order a b)

/-- The data that a value gives to a hash table: its kind, and a number read as a double with one
zero. -/
inductive HashData where
  | null
  | bool (b : Bool)
  | number (word : UInt64)
  | string (s : String)
  deriving DecidableEq, Hashable, Repr

/-- The word of a double, both zeros sharing one. -/
def hashWord (x : Double) : UInt64 :=
  match x.datum with
  | .finite _ 0 => 0
  | _ => x.word

def hashData : Value → HashData
  | .null => .null
  | .bool b => .bool b
  | .string s => .string s
  | v => .number (hashWord (v.asDouble.getD .zero))

instance : Hashable Value := ⟨fun v => hash v.hashData⟩

/-- The values without the later ones of equal values. -/
def distinct (vs : List Value) : List Value :=
  vs.foldl (fun seen v => if seen.any (same v) then seen else seen ++ [v]) []

/-- The values in ascending order, equal ones in their given order. -/
def ascending (vs : List Value) : List Value := vs.mergeSort fun a b => order a b != .gt

end EventQuery.Value
