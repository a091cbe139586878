import EventQuery.Rollup.Bucket
import EventQuery.Rollup.Layout
import EventQuery.Store.Holder

/-!
The levels of an aggregation, one for each granularity. A row is folded into the bucket of its
timestamp. A row of a newer bucket closes the open one, which stays in the buffer while there is
room and is then flushed to the table of the level. A late row goes to its own bucket while that is
buffered, and to the open bucket afterwards.
-/

namespace EventQuery

/-- One granularity of an aggregation: its buckets in memory and its table of flushed rows. -/
structure Level where
  granularity : Granularity
  fold : FoldCode
  store : BucketStore
  groupCount : Nat
  bufferSize : Nat
  table : Holder
  openStart : Option Int64

/-- The text of a group-by value in the key of a group. -/
def groupText : Value → String
  | .string s => s
  | v => v.text

/-- The key of the group of a row: the group-by values, joined by colons. -/
def groupKey (groupCount : Nat) (row : Event) : String :=
  String.intercalate ":" ((List.range groupCount).map fun i => groupText (row.get (i + 1)))

namespace Level

/-- A level before any row. -/
def start (g : Granularity) (layout : RollupLayout) (fold : FoldCode) (bufferSize : Nat)
    (table : Holder) : Level :=
  ⟨g, fold, .empty fold layout.isGrouped bufferSize, layout.groupCount, bufferSize, table, none⟩

def keyOf (l : Level) (row : Event) : String := groupKey l.groupCount row

/-- Close the open bucket and open another, and give the rows to flush. -/
def advance (l : Level) (start : Int64) : List Event × Level :=
  let (flushed, store) := l.store.advance l.fold l.bufferSize start
  (flushed, { l with store := store, openStart := some start })

/-- The start of the bucket that a row of the given bucket is folded into, after opening it where it
is newer than the open one, and the rows to flush. -/
def target (l : Level) (start : Int64) : Int64 × List Event × Level :=
  match l.openStart with
  | none => (start, l.advance start)
  | some opened =>
    if opened < start then (start, l.advance start)
    else if start = opened || l.store.holds start then (start, [], l)
    else (opened, [], l)

/-- Whether the number of buckets in memory, the open one and the buffered ones, is a 64-bit one. -/
def hasCapacity (l : Level) : Bool := l.bufferSize + 1 < UInt64.size

/-- Fold a row, and give the rows that have been flushed to the table. A level without capacity
never opens a bucket: the first row comes to an overflow. -/
def ingest (l : Level) (row : Event) : Except RollupError (List Event) × Level :=
  match l.granularity.startTime row.timestamp with
  | .error cause => (.error (.ofTime cause), l)
  | .ok start =>
    if l.hasCapacity then
      let (target, flushed, l) := l.target start
      let (result, store) :=
        l.store.fold l.fold target (l.openStart = some target) (l.keyOf row) row
      let l := { l with store := store }
      match result with
      | .error cause => (.error (.eval cause), l)
      | .ok () => (.ok flushed, { l with table := (l.table.addAll flushed).2 })
    else (.error (.eval .overflow), l)

/-- Fold rows in order, up to the first failure. -/
def ingestAll (l : Level) : List Event → Except RollupError (List Event) × Level
  | [] => (.ok [], l)
  | row :: rest =>
    match l.ingest row with
    | (.error cause, l) => (.error cause, l)
    | (.ok flushed, l) =>
      let (result, l) := l.ingestAll rest
      (result.map (flushed ++ ·), l)

end Level

end EventQuery
