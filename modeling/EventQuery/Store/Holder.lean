import EventQuery.Eval.Error
import EventQuery.Store.EventSet
import EventQuery.Store.OrderedMap

/-!
Stores of events with a primary key and secondary indexes, each of which is optional.
`Holder.findEvents` answers `attribute op value`, ascending by attribute where the attribute is a
key or has an index and in order of storage elsewhere.
-/

namespace EventQuery

/-- A secondary index: the stored events by the value of one attribute. -/
structure Index where
  name : String
  position : Nat
  buckets : OrderedMap EventSet
  deriving Repr

/-- A store of events. The next event that is accepted is stored under the number `nextId`. -/
structure Holder where
  definition : Definition
  primaryKey : Option (String × Nat)
  nextId : Nat
  events : EventSet
  primary : OrderedMap StoredEvent
  indexes : List Index
  deriving Repr

/-- Whether a value answers a probe. A comparison with null never holds, but an equality probe with
null finds null. -/
def Comparison.probes (op : Comparison) (probe : Value) (found : Value) : Bool :=
  if op = .equal && probe.isNull then found.isNull else op.holds found probe

namespace Index

/-- Add an event to its bucket. -/
def insert (i : Index) (e : StoredEvent) : Index :=
  { i with
    buckets :=
      OrderedMap.update (e.event.get i.position) (fun bucket => bucket.getD [] ++ [e]) i.buckets }

/-- Take an event out of its bucket; a bucket without events is dropped. -/
def remove (i : Index) (e : StoredEvent) : Index :=
  let key := e.event.get i.position
  let buckets := i.buckets.filterMap fun (k, bucket) =>
    if key.same k then
      let bucket := EventSet.remove bucket e
      if bucket.isEmpty then none else some (k, bucket)
    else some (k, bucket)
  { i with buckets := buckets }

end Index

namespace Holder

/-- The position of an attribute that a key or index names. -/
def keyPosition (d : Definition) (name : String) : Except EvalError Nat :=
  match d.position name with
  | some position => .ok position
  | none => .error (.undefinedAttribute (d.id ++ "." ++ name))

/-- An empty store with secondary indexes on the named attributes; an attribute that is named again
is passed over. -/
def addIndexes (h : Holder) : List String → Except EvalError Holder
  | [] => .ok h
  | name :: rest => do
    let position ← keyPosition h.definition name
    if h.indexes.any (·.name = name) then h.addIndexes rest
    else addIndexes { h with indexes := h.indexes ++ [⟨name, position, []⟩] } rest

/-- An empty store without key and indexes. -/
def unindexed (d : Definition) : Holder := ⟨d, none, 0, [], [], []⟩

/-- An empty store. -/
def build (d : Definition) (primaryKey : Option String) (indexes : List String) :
    Except EvalError Holder :=
  match primaryKey with
  | none => (unindexed d).addIndexes indexes
  | some name => do
    let position ← keyPosition d name
    { unindexed d with primaryKey := some (name, position) }.addIndexes indexes

def isPrimaryKey (h : Holder) (name : String) : Bool := h.primaryKey.any (·.1 = name)

def index? (h : Holder) (name : String) : Option Index := h.indexes.find? (·.name = name)

/-- Whether an attribute is the primary key or has a secondary index. -/
def isIndexed (h : Holder) (name : String) : Bool := h.isPrimaryKey name || (h.index? name).isSome

/-- Whether an operator on an attribute is answered from an index. A primary key answers equality
alone. -/
def supports (h : Holder) (name : String) (op : Comparison) : Bool :=
  (h.index? name).isSome || (h.isPrimaryKey name && op.isEquality)

/-- The stored events whose attribute answers a probe; none for an attribute that the definition
lacks. -/
def findEvents (h : Holder) (name : String) (op : Comparison) (probe : Value) : EventSet :=
  if h.isPrimaryKey name then h.primary.select (op.probes probe)
  else
    match h.index? name with
    | some index => (index.buckets.select (op.probes probe)).flatten
    | none =>
      match h.definition.position name with
      | none => []
      | some position => h.events.filter fun e => op.probes probe (e.event.get position)

/-- Whether some stored event answers a probe. A key or index is searched no further than the first
value that does. -/
def containsEvent (h : Holder) (name : String) (op : Comparison) (probe : Value) : Bool :=
  if h.isPrimaryKey name then h.primary.any fun (k, _) => op.probes probe k
  else
    match h.index? name with
    | some index => index.buckets.any fun (k, bucket) => op.probes probe k && !bucket.isEmpty
    | none => !(h.findEvents name op probe).isEmpty

/-- Store an event. An event whose primary key is taken is rejected and changes nothing. -/
def add (h : Holder) (event : Event) : Option StoredEvent × Holder :=
  let stored : StoredEvent := ⟨h.nextId, event⟩
  let accepted (primary : OrderedMap StoredEvent) : Option StoredEvent × Holder :=
    (some stored,
      { h with
        nextId := h.nextId + 1
        events := h.events ++ [stored]
        primary := primary
        indexes := h.indexes.map (·.insert stored) })
  match h.primaryKey with
  | none => accepted h.primary
  | some (_, position) =>
    let key := event.get position
    if h.primary.has key then (none, h) else accepted (h.primary.update key fun _ => stored)

/-- Store events in order and give those that were accepted. -/
def addAll (h : Holder) : List Event → List StoredEvent × Holder
  | [] => ([], h)
  | event :: rest =>
    let (stored, h) := h.add event
    let (others, h) := h.addAll rest
    (stored.toList ++ others, h)

/-- Remove a stored event from the store and its indexes. -/
def removeStored (h : Holder) (e : StoredEvent) : Holder :=
  { h with
    events := EventSet.remove h.events e
    primary := match h.primaryKey with
      | some (_, position) => h.primary.erase (e.event.get position)
      | none => h.primary
    indexes := h.indexes.map (·.remove e) }

/-- The event that is stored under the number of a handle. -/
def stored? (h : Holder) (handle : StoredEvent) : Option StoredEvent :=
  h.events.find? (·.id = handle.id)

/-- Remove the events that handles stand for, and give the number of those that were stored. -/
def deleteEvents (h : Holder) : EventSet → Nat × Holder
  | [] => (0, h)
  | handle :: rest =>
    match h.stored? handle with
    | some e =>
      let (removed, h) := (h.removeStored e).deleteEvents rest
      (removed + 1, h)
    | none => h.deleteEvents rest

/-- Remove the events whose attribute answers a probe and give their number. -/
def delete (h : Holder) (name : String) (op : Comparison) (probe : Value) : Nat × Holder :=
  h.deleteEvents (h.findEvents name op probe)

/-- Remove all events. Numbers are not given out again. -/
def clear (h : Holder) : Holder :=
  { h with events := [], primary := [], indexes := h.indexes.map fun i => { i with buckets := [] } }

/-- The number of stored events. -/
def size (h : Holder) : Nat := h.events.length

/-- The content of the store. -/
def rows (h : Holder) : List Event := h.events.map (·.event)

end Holder

end EventQuery
