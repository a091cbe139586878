import EventQuery.Lookup.Plan

/-!
Operators: conditions compiled for one kind of container. An indexed store is searched by a plan; an
event chunk, a map and a collection are scanned in their order.
-/

namespace EventQuery

/-- The kinds of containers that can be searched. -/
inductive ContainerKind where
  | indexed
  | chunk
  | map
  | collection
  deriving DecidableEq, Repr

def ContainerKind.name : ContainerKind → String
  | .indexed => "indexed store"
  | .chunk => "event chunk"
  | .map => "map"
  | .collection => "collection"

/-- A container of candidate events; `other` is one that no operator can search. -/
inductive Container where
  | indexed (holder : Holder) (capability : Capability)
  | chunk (events : List StoredEvent)
  | map (entries : List (Value × StoredEvent))
  | collection (events : EventSet)
  | other (name : String)

namespace Container

def kind? : Container → Option ContainerKind
  | .indexed .. => some .indexed
  | .chunk _ => some .chunk
  | .map _ => some .map
  | .collection _ => some .collection
  | .other _ => none

def name : Container → String
  | .indexed .. => ContainerKind.indexed.name
  | .chunk _ => ContainerKind.chunk.name
  | .map _ => ContainerKind.map.name
  | .collection _ => ContainerKind.collection.name
  | .other name => name

/-- A chunk of events that are not stored, numbered in their order. -/
def ofEvents (events : List Event) : Container := .chunk (events.mapIdx fun i e => ⟨i, e⟩)

/-- The events of a container, in its order. -/
def events : Container → List StoredEvent
  | .indexed holder _ => holder.events
  | .chunk events | .collection events => events
  | .map entries => entries.map (·.2)
  | .other _ => []

end Container

/-- How an operator searches. -/
inductive Strategy where
  | plan (p : Plan)
  | scan (kind : ContainerKind) (condition : Code)
  deriving Repr

/-- A condition compiled for one kind of container. -/
structure Operator where
  strategy : Strategy
  storeSlot : Nat
  deriving Repr

namespace Operator

/-- Compile a condition for a container. The whole condition is checked first, as a plan compiles
parts of it only. -/
def compile (context : Context) (info : MatchLayout) (e : Expr) (container : Container) :
    Allot LookupError Operator := do
  let some kind := container.kind? | throw (.unsupportedContainer container.name)
  let condition ← (Compile.condition context e info.layout).mapError .eval
  match container with
  | .indexed _ capability => do
    let classified ← classify context capability info e
    let plan ← Plan.build context capability info classified true
    return ⟨.plan plan, info.storeSlot⟩
  | _ => return ⟨.scan kind condition, info.storeSlot⟩

def kind (o : Operator) : ContainerKind :=
  match o.strategy with
  | .plan _ => .indexed
  | .scan kind _ => kind

/-- The container is not of the kind that the operator was built for. -/
def mismatch (o : Operator) (c : Container) : LookupError := .containerMismatch o.kind.name c.name

/-- Whether a candidate satisfies a condition. -/
def accepts (o : Operator) (rows : SourceRows) (matching : Frame) (condition : Code)
    (e : StoredEvent) : Run LookupError Bool :=
  (condition.test rows (matching.setSlot o.storeSlot (some e.event))).mapError .eval

/-- The candidates that satisfy the condition. -/
def find (o : Operator) (rows : SourceRows) (matching : Frame) (c : Container) :
    Run LookupError (List StoredEvent) :=
  match o.strategy, c with
  | .plan p, .indexed holder _ => p.find ⟨rows, holder, o.storeSlot, matching⟩
  | .scan kind condition, c =>
    if c.kind? = some kind then Run.filterM (o.accepts rows matching condition) c.events
    else throw (o.mismatch c)
  | .plan _, c => throw (o.mismatch c)

/-- Whether some candidate satisfies the condition. -/
def contains (o : Operator) (rows : SourceRows) (matching : Frame) (c : Container) :
    Run LookupError Bool :=
  match o.strategy, c with
  | .plan p, .indexed holder _ => p.contains ⟨rows, holder, o.storeSlot, matching⟩
  | .scan kind condition, c =>
    if c.kind? = some kind then Run.anyM (o.accepts rows matching condition) c.events
    else throw (o.mismatch c)
  | .plan _, c => throw (o.mismatch c)

/-- Keep the entries that a test refuses. The entries after a failing one are still tested; an entry
whose test fails is kept, and the first failure is given with the rest. -/
def retain {ε α : Type} (test : α → Run ε Bool) : List α → StateM Memory (List α × Option ε)
  | [] => pure ([], none)
  | a :: rest => do
    let hit ← (test a).run
    let (kept, failure) ← retain test rest
    match hit with
    | .ok true => return (kept, failure)
    | .ok false => return (a :: kept, failure)
    | .error e => return (a :: kept, some e)

/-- Remove the entries of a list that satisfy the condition. -/
def retainIn {α : Type} (test : α → Run LookupError Bool) (entries : List α)
    (wrap : List α → Container) : StateM Memory (Except LookupError Nat × Container) := do
  let (kept, failure) ← retain test entries
  let result :=
    match failure with
    | some e => .error e
    | none => .ok (entries.length - kept.length)
  return (result, wrap kept)

/-- Remove the candidates that satisfy the condition, and give their number with the container that
is left. -/
def delete (o : Operator) (rows : SourceRows) (matching : Frame) (c : Container) :
    StateM Memory (Except LookupError Nat × Container) :=
  match o.strategy, c with
  | .plan p, .indexed holder capability => do
    match ← (p.delete ⟨rows, holder, o.storeSlot, matching⟩).run with
    | .ok (removed, holder) => return (.ok removed, .indexed holder capability)
    | .error e => return (.error e, .indexed holder capability)
  | .scan kind condition, c =>
    if c.kind? = some kind then
      let test := o.accepts rows matching condition
      match c with
      | .chunk events => retainIn test events .chunk
      | .map entries => retainIn (fun entry => test entry.2) entries .map
      | .collection events => retainIn test events .collection
      | c => pure (.ok 0, c)
    else pure (.error (o.mismatch c), c)
  | .plan _, c => pure (.error (o.mismatch c), c)

end Operator

end EventQuery
