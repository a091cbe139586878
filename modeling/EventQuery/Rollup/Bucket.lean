import EventQuery.Eval.Code

/-!
Buckets: the partial aggregates of one time bucket and group. Folding a row into a bucket adds to
what is there. A `BucketStore` holds the buckets of one granularity that are still in memory, in one
of four shapes: with or without groups, and with or without closed buckets that wait in a buffer.
-/

namespace EventQuery

/-- No source has rows; expressions without `in` need none. -/
def noRows : SourceRows := fun _ => []

/-- The code that folds rows into buckets, one for each column after the timestamp. -/
abbrev FoldCode := Stateful (List Code)

/-- The partial aggregates of one time bucket and group. -/
structure Bucket where
  timestamp : Int64
  columns : List Value
  memory : Memory
  processed : Bool
  deriving DecidableEq, Repr

namespace Bucket

/-- A bucket that no row has been folded into. -/
def empty (fold : FoldCode) (timestamp : Int64) : Bucket :=
  ⟨timestamp, fold.code.map fun _ => .null, fold.fresh.memory, false⟩

/-- Run the columns in order, up to the first failure; the columns from there on keep their
values. -/
def runColumns (f : Frame) :
    List Code → List Value → StateM Memory (List Value × Except EvalError Unit)
  | [], _ => pure ([], .ok ())
  | c :: cs, old => do
    match ← (c.run noRows f).run with
    | .error e => return (old, .error e)
    | .ok v =>
      let (vs, result) ← runColumns f cs old.tail
      return (v :: vs, result)

/-- Fold a row into a bucket. -/
def process (fold : FoldCode) (row : Event) (b : Bucket) : Except EvalError Unit × Bucket :=
  let ((columns, result), memory) := (runColumns (.single row) fold.code b.columns).run b.memory
  (result, { b with columns := columns, memory := memory, processed := b.processed || result.isOk })

/-- The values of the row of a bucket. -/
def values (b : Bucket) : List Value := .long b.timestamp :: b.columns

/-- A bucket as a row. -/
def toEvent (b : Bucket) : Event := .current b.timestamp b.values

/-- The row of a bucket, placed at another time. -/
def rowAt (b : Bucket) (timestamp : Int64) : Event :=
  .current timestamp (.long timestamp :: b.columns)

end Bucket

/-- The buckets of one time bucket by group, in the order of the first row of each group. -/
abbrev Groups := List (String × Bucket)

namespace Groups

/-- Update the bucket of a group, or a fresh one where the group is new. -/
def update (key : String) (fresh : Bucket) (f : Bucket → Except EvalError Unit × Bucket) :
    Groups → Except EvalError Unit × Groups
  | [] =>
    let (result, b) := f fresh
    (result, [(key, b)])
  | (k, b) :: rest =>
    if k = key then
      let (result, b) := f b
      (result, (k, b) :: rest)
    else
      let (result, rest) := update key fresh f rest
      (result, (k, b) :: rest)

/-- The start of the time bucket; none while it has no group. -/
def start (g : Groups) : Option Int64 := g.head?.map fun (_, b) => b.timestamp

/-- The rows of the groups that hold data. -/
def rows (g : Groups) : List Event := (g.filter (·.2.processed)).map (·.2.toEvent)

end Groups

/-- The buckets in memory. With a buffer the oldest come first and the last is the open one. -/
inductive BucketStore where
  | single (b : Bucket)
  | groups (g : Groups)
  | buffered (bs : List Bucket)
  | bufferedGroups (gs : List Groups)
  deriving Repr

namespace BucketStore

/-- All buckets with their groups. -/
def buckets : BucketStore → List (Option String × Bucket)
  | .single b => [(none, b)]
  | .groups g => g.map fun (key, b) => (some key, b)
  | .buffered bs => bs.map fun b => (none, b)
  | .bufferedGroups gs => gs.flatten.map fun (key, b) => (some key, b)

/-- The buckets that hold data, with their groups. -/
def entries (s : BucketStore) : List (Option String × Bucket) := s.buckets.filter (·.2.processed)

/-- The oldest bucket, the first of equally old ones. -/
def oldestOf : List Bucket → Option Bucket
  | [] => none
  | b :: rest =>
    some (rest.foldl (fun best c => if c.timestamp < best.timestamp then c else best) b)

/-- The newest bucket, the last of equally new ones. -/
def newestOf : List Bucket → Option Bucket
  | [] => none
  | b :: rest =>
    some (rest.foldl (fun best c => if c.timestamp < best.timestamp then best else c) b)

/-- The oldest and the newest bucket that hold data. -/
def oldestAndNewest (s : BucketStore) : Option (Bucket × Bucket) := do
  let held := s.entries.map (·.2)
  return (← oldestOf held, ← newestOf held)

/-- The store before any row. -/
def empty (fold : FoldCode) (isGrouped : Bool) (bufferSize : Nat) : BucketStore :=
  match isGrouped, bufferSize with
  | false, 0 => .single (.empty fold (-1))
  | true, 0 => .groups []
  | false, _ => .buffered []
  | true, _ => .bufferedGroups []

/-- Whether a bucket of the given start waits in the buffer. -/
def holds (s : BucketStore) (start : Int64) : Bool :=
  match s with
  | .single _ | .groups _ => false
  | .buffered bs => bs.any (·.timestamp = start)
  | .bufferedGroups gs => gs.any (Groups.start · = some start)

/-- Close the open bucket and open one with the given start. Gives the rows of the buckets that
leave the memory. -/
def advance (fold : FoldCode) (bufferSize : Nat) (start : Int64) :
    BucketStore → List Event × BucketStore
  | .single b => (if b.processed then [b.toEvent] else [], .single (.empty fold start))
  | .groups g => (Groups.rows g, .groups [])
  | .buffered bs =>
    let bs := bs ++ [.empty fold start]
    let excess := bs.length - (bufferSize + 1)
    (((bs.take excess).filter (·.processed)).map (·.toEvent), .buffered (bs.drop excess))
  | .bufferedGroups gs =>
    let gs := gs ++ [[]]
    let excess := gs.length - (bufferSize + 1)
    ((gs.take excess).flatMap Groups.rows, .bufferedGroups (gs.drop excess))

/-- Update the first element that passes a test. -/
def updateFirst {α : Type} (test : α → Bool) (f : α → Except EvalError Unit × α) :
    List α → Except EvalError Unit × List α
  | [] => (.ok (), [])
  | a :: rest =>
    if test a then
      let (result, a) := f a
      (result, a :: rest)
    else
      let (result, rest) := updateFirst test f rest
      (result, a :: rest)

/-- Update the last element that passes a test. -/
def updateLast {α : Type} (test : α → Bool) (f : α → Except EvalError Unit × α) (as : List α) :
    Except EvalError Unit × List α :=
  let (result, reversed) := updateFirst test f as.reverse
  (result, reversed.reverse)

/-- Fold a row into the bucket of the given start and group. -/
def fold (code : FoldCode) (target : Int64) (isOpen : Bool) (key : String) (row : Event) :
    BucketStore → Except EvalError Unit × BucketStore
  | .single b =>
    let (result, b) := b.process code row
    (result, .single b)
  | .groups g =>
    let (result, g) := Groups.update key (.empty code target) (Bucket.process code row) g
    (result, .groups g)
  | .buffered bs =>
    let (result, bs) := updateLast (·.timestamp = target) (Bucket.process code row) bs
    (result, .buffered bs)
  | .bufferedGroups gs =>
    let into := Groups.update key (.empty code target) (Bucket.process code row)
    let (result, gs) :=
      if isOpen then updateLast (fun _ => true) into gs
      else updateFirst (Groups.start · = some target) into gs
    (result, .bufferedGroups gs)

end BucketStore

end EventQuery
