import EventQuery.Value.Basic

/-!
Definitions of streams and tables, and the layout of the slots that a condition sees.
`Layout.resolve` binds a variable to a slot and a position.
-/

namespace EventQuery

/-- A named, typed attribute. -/
structure Attribute where
  name : String
  type : AttributeType
  deriving DecidableEq, Repr, Inhabited

/-- The shape of the events of a stream or table. Names may repeat; the first one is meant. -/
structure Definition where
  id : String
  attributes : List Attribute
  deriving DecidableEq, Repr, Inhabited

namespace Definition

/-- The position of an attribute in the data of an event. -/
def position (d : Definition) (name : String) : Option Nat := d.attributes.findIdx? (·.name = name)

def typeOf (d : Definition) (name : String) : Option AttributeType :=
  (d.attributes.find? (·.name = name)).map (·.type)

def names (d : Definition) : List String := d.attributes.map (·.name)

end Definition

/-- One slot of a layout: a definition and possibly an alias. -/
structure Slot where
  definition : Definition
  reference : Option String
  deriving DecidableEq, Repr

/-- Whether a stream name means this slot, by alias or by id. -/
def Slot.answersTo (s : Slot) (name : String) : Bool :=
  s.reference = some name || s.definition.id = name

/-- A reference to an attribute, possibly qualified by a stream id or alias. -/
structure Variable where
  name : String
  stream : Option String
  deriving DecidableEq, Repr

/-- A variable as it is written. -/
def Variable.text (v : Variable) : String :=
  match v.stream with
  | some id => id ++ "." ++ v.name
  | none => v.name

/-- The place that a variable reads. -/
structure Binding where
  slot : Nat
  position : Nat
  type : AttributeType
  deriving DecidableEq, Repr

/-- Why a variable has no binding. -/
inductive ResolveError where
  | undefinedStream (id : String)
  | undefinedAttribute (name : String)
  deriving DecidableEq, Repr

def ResolveError.message : ResolveError → String
  | .undefinedStream id => "Undefined stream: " ++ id
  | .undefinedAttribute name => "Undefined attribute: " ++ name

/-- The slots that a condition sees, and the slot that unqualified variables try first. -/
structure Layout where
  slots : List Slot
  defaultSlot : Nat
  deriving DecidableEq, Repr

namespace Layout

/-- The layout of a single slot. -/
def single (d : Definition) : Layout := ⟨[⟨d, none⟩], 0⟩

/-- The first slot that answers to a name. -/
def slotOf (l : Layout) (name : String) : Option Nat := l.slots.findIdx? (·.answersTo name)

/-- The layout with one more slot at the end. -/
def extend (l : Layout) (d : Definition) (reference : String) : Layout :=
  { l with slots := l.slots ++ [⟨d, some reference⟩] }

/-- Bind an attribute name in a given slot. -/
def bindIn (l : Layout) (name : String) (slot : Nat) : Option Binding := do
  let s ← l.slots[slot]?
  let position ← s.definition.position name
  let found ← s.definition.attributes[position]?
  some ⟨slot, position, found.type⟩

/-- Bind a variable. A qualified one belongs to the first slot that answers to its qualifier. An
unqualified one tries the default slot and then the others in order. -/
def resolve (l : Layout) (v : Variable) : Except ResolveError Binding :=
  match v.stream with
  | some id =>
    match l.slotOf id with
    | none => .error (.undefinedStream id)
    | some slot =>
      match l.bindIn v.name slot with
      | some binding => .ok binding
      | none => .error (.undefinedAttribute v.text)
  | none =>
    let others := (List.range l.slots.length).filter (· ≠ l.defaultSlot)
    match (l.defaultSlot :: others).findSome? (l.bindIn v.name) with
    | some binding => .ok binding
    | none => .error (.undefinedAttribute v.text)

end Layout

end EventQuery
