import EventQuery.Expr.Operator
import EventQuery.Stream.Event

/-!
Stored events have an identity of their own, so that rows of equal content stay apart. Sets of
stored events are lists without repetition, in the order of insertion.
-/

namespace EventQuery

/-- An event with the number under which it was stored. -/
structure StoredEvent where
  id : Nat
  event : Event
  deriving DecidableEq, Repr, Inhabited

/-- A set of stored events in the order of insertion. -/
abbrev EventSet := List StoredEvent

namespace EventSet

/-- Whether a set has an event, by identity. -/
def has (s : EventSet) (e : StoredEvent) : Bool := s.any (·.id = e.id)

/-- The set without an event. -/
def remove (s : EventSet) (e : StoredEvent) : EventSet := s.filter (·.id ≠ e.id)

/-- The common events, in the order of the smaller set. -/
def intersect (s t : EventSet) : EventSet :=
  if s.length ≤ t.length then s.filter t.has else t.filter s.has

/-- The events of the first set, and then those that only the second has. -/
def union (s t : EventSet) : EventSet := s ++ t.filter (!s.has ·)

/-- The events of the first set that the second lacks. -/
def difference (s t : EventSet) : EventSet := s.filter (!t.has ·)

end EventSet

end EventQuery
