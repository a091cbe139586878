import EventQuery.Value.Basic

/-!
Events, and the frames in which conditions see them: one possibly empty slot for each stream that
takes part.
-/

namespace EventQuery

/-- What an event does to aggregates: a current event adds, an expired one takes away, and a reset
clears. -/
inductive EventKind where
  | current
  | expired
  | reset
  deriving DecidableEq, Repr, Inhabited

/-- An event of a stream. Its data is not checked against a definition. -/
structure Event where
  timestamp : Int64
  data : List Value
  kind : EventKind
  deriving DecidableEq, Repr, Inhabited

namespace Event

/-- A current event. -/
def current (timestamp : Int64) (data : List Value) : Event := ⟨timestamp, data, .current⟩

/-- A reset, which carries no data. -/
def reset (timestamp : Int64) : Event := ⟨timestamp, [], .reset⟩

/-- The value of the attribute at a position; a missing one is null. -/
def get (e : Event) (position : Nat) : Value := e.data[position]?.getD .null

end Event

/-- The events that a condition sees, one possibly missing for each slot. -/
structure Frame where
  slots : List (Option Event)
  deriving DecidableEq, Repr, Inhabited

namespace Frame

/-- A frame of empty slots. -/
def empty (count : Nat) : Frame := ⟨List.replicate count none⟩

/-- A frame of one slot that holds an event. -/
def single (e : Event) : Frame := ⟨[some e]⟩

/-- The event in a slot; slots behind the last are empty. -/
def slot (f : Frame) (i : Nat) : Option Event := f.slots[i]?.join

/-- Put an event into a slot or empty it. The frame grows with empty slots where it is too short. -/
def setSlot (f : Frame) (i : Nat) (e : Option Event) : Frame :=
  ⟨(f.slots ++ List.replicate (i + 1 - f.slots.length) none).set i e⟩

/-- The event of the first occupied slot. -/
def first (f : Frame) : Option Event := f.slots.findSome? id

/-- The timestamp of the first occupied slot. -/
def timestamp (f : Frame) : Option Int64 := f.first.map (·.timestamp)

/-- The kind of the first occupied slot; a frame of empty slots counts as current. -/
def kind (f : Frame) : EventKind := (f.first.map (·.kind)).getD .current

end Frame

end EventQuery
