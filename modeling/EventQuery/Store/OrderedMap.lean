import EventQuery.Expr.Operator

/-!
Maps from values to anything, kept in the total order of values. Keys that are equal as values are
one key; the first of them is kept.
-/

namespace EventQuery

/-- An association of values in ascending order. -/
abbrev OrderedMap (β : Type) := List (Value × β)

namespace OrderedMap

variable {β : Type}

def find? (m : OrderedMap β) (key : Value) : Option β :=
  (List.find? (fun (k, _) => key.same k) m).map (·.2)

def has (m : OrderedMap β) (key : Value) : Bool := m.any fun (k, _) => key.same k

/-- Update the entry of a key, or make one from nothing. -/
def update (key : Value) (f : Option β → β) : OrderedMap β → OrderedMap β
  | [] => [(key, f none)]
  | (k, b) :: rest =>
    match key.order k with
    | .lt => (key, f none) :: (k, b) :: rest
    | .eq => (k, f (some b)) :: rest
    | .gt => (k, b) :: update key f rest

def erase (m : OrderedMap β) (key : Value) : OrderedMap β := m.filter fun (k, _) => !key.same k

/-- The entries whose key satisfies a test, in ascending order. -/
def select (m : OrderedMap β) (test : Value → Bool) : List β :=
  (m.filter fun (k, _) => test k).map (·.2)

end OrderedMap

end EventQuery
