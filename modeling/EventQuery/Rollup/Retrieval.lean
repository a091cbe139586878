import EventQuery.Lookup.Operator
import EventQuery.Rollup.Level
import EventQuery.Rollup.Within

/-!
Lookups in an aggregation: `on` a condition, `within` a time range, `per` a granularity. Rows come
from the table of the granularity and from the buckets in memory, of which those of the granularity
and of all finer ones are folded into buckets of the granularity, in a map that the lookup owns.
-/

namespace EventQuery

/-- What a lookup did. -/
structure RetrievalTrace where
  persistedMatches : Nat
  merged : Bool
  foldedEntries : Nat
  inMemoryMatches : Nat
  deriving DecidableEq, Repr

/-- A compiled lookup. The lower and the upper half of the time range are also kept apart, for a
test of the span of the buckets in memory. -/
structure Retrieval where
  aggregation : String
  within : List (Granularity × Operator)
  inMemory : Operator
  since : Operator
  before : Operator
  on : Operator
  per : Code
  fold : FoldCode
  outputs : List Code
  outputDefinition : Definition

/-- Buckets folded to one granularity, by start and then by group. -/
abbrev FoldedBuckets := List (Int64 × Groups)

namespace FoldedBuckets

/-- Update the bucket of a start and a group, or a fresh one. -/
def update (start : Int64) (key : String) (fresh : Bucket)
    (f : Bucket → Except EvalError Unit × Bucket) :
    FoldedBuckets → Except EvalError Unit × FoldedBuckets
  | [] =>
    let (result, g) := Groups.update key fresh f []
    (result, [(start, g)])
  | (s, g) :: rest =>
    if start < s then
      let (result, g') := Groups.update key fresh f []
      (result, (start, g') :: (s, g) :: rest)
    else if start = s then
      let (result, g) := Groups.update key fresh f g
      (result, (s, g) :: rest)
    else
      let (result, rest) := update start key fresh f rest
      (result, (s, g) :: rest)

/-- All buckets, ascending by start. -/
def buckets (m : FoldedBuckets) : List Bucket := m.flatMap fun (_, g) => g.map (·.2)

end FoldedBuckets

namespace Retrieval

/-- Compile the time range for the table of every granularity. -/
def compileWithin (context : Context) (aggregation : String) (matching : Definition)
    (within : Expr) :
    List (Granularity × Holder) → Allot RollupError (List (Granularity × Operator))
  | [] => pure []
  | (g, table) :: rest => do
    let info := MatchLayout.join matching table.definition (some aggregation)
    let operator ←
      (Operator.compile context info within (.indexed table table.capability)).mapError .lookup
    let others ← compileWithin context aggregation matching within rest
    return (g, operator) :: others

/-- Compile a condition for rows in memory. -/
def compileScan (context : Context) (aggregation : String) (matching row : Definition) (e : Expr) :
    Allot RollupError Operator :=
  (Operator.compile context (.join matching row (some aggregation)) e (.chunk [])).mapError .lookup

/-- Compile a lookup for events of the definition `matching`. In its conditions the attributes of
the aggregation are qualified by the id of the aggregation. -/
def compile (context : Context) (layout : RollupLayout) (tables : List (Granularity × Holder))
    (on : Expr) (within : Within) (per : Expr) (matching : Definition) :
    Allot RollupError Retrieval := do
  let (since, before) ← within.conditions layout.id
  let both : Expr := .and since before
  let perTable ← compileWithin context layout.id matching both tables
  let inMemory ← compileScan context layout.id matching layout.internal both
  let since ← compileScan context layout.id matching layout.internal since
  let before ← compileScan context layout.id matching layout.internal before
  let (outputs, outputDefinition) ← layout.outputCodes context
  let on ← compileScan context layout.id matching outputDefinition on
  let per ← (Compile.code context per (.single matching)).mapError .eval
  if per.type ≠ .string then throw (.perMismatch per.type)
  let fold ← (layout.baseCodes context).finish
  return ⟨layout.id, perTable, inMemory, since, before, on, per, fold, outputs, outputDefinition⟩

/-- The granularities that a lookup can answer. -/
def granularities (r : Retrieval) : List Granularity := r.within.map (·.1)

/-- The condition of the time range on the table of a granularity. -/
def withinFor (r : Retrieval) (g : Granularity) : Except RollupError Operator :=
  match r.within.lookup g with
  | some operator => .ok operator
  | none => .error (.granularityNotConfigured r.aggregation g r.granularities)

/-- The granularity that a matching frame asks for. -/
def perFor (r : Retrieval) (rows : SourceRows) (matching : Frame) :
    Run RollupError Granularity := do
  match ← (r.per.run rows matching).mapError .eval with
  | .string name =>
    let g ← Run.ofExcept ((Granularity.ofName name).mapError .ofTime)
    let _ ← Run.ofExcept (r.withinFor g)
    return g
  | v => throw (.perMismatch v.type)

/-- The oldest and newest of the buckets of several stores. -/
def span (stores : List BucketStore) : Option (Bucket × Bucket) :=
  (stores.filterMap BucketStore.oldestAndNewest).foldl (fun found pair =>
    match found with
    | none => some pair
    | some (oldest, newest) =>
      some (if pair.1.timestamp < oldest.timestamp then pair.1 else oldest,
        if newest.timestamp < pair.2.timestamp then pair.2 else newest)) none

/-- The row of a bucket at the start of its bucket of another granularity. -/
def probeRow (b : Bucket) (g : Granularity) : Except RollupError Event :=
  match g.startTime b.timestamp with
  | .ok start => .ok (b.rowAt start)
  | .error cause => .error (.ofTime cause)

/-- Whether the buckets in memory span a part of the time range. Folded rows start between the
oldest and the newest bucket, so the newest must not lie before the range and the oldest not behind
it. -/
def inMemoryInRange (r : Retrieval) (rows : SourceRows) (matching : Frame) (g : Granularity)
    (stores : List BucketStore) : Run RollupError Bool := do
  match span stores with
  | none => return false
  | some (oldest, newest) =>
    let newest ← Run.ofExcept (probeRow newest g)
    let oldest ← Run.ofExcept (probeRow oldest g)
    if ← (r.since.contains rows matching (.ofEvents [newest])).mapError .lookup then
      (r.before.contains rows matching (.ofEvents [oldest])).mapError .lookup
    else return false

/-- Fold buckets into buckets of a granularity. -/
def foldInto (code : FoldCode) (g : Granularity) :
    List (Option String × Bucket) → FoldedBuckets → Except RollupError FoldedBuckets
  | [], folded => .ok folded
  | (key, b) :: rest, folded =>
    match g.startTime b.timestamp with
    | .error cause => .error (.ofTime cause)
    | .ok start =>
      match folded.update start (key.getD "") (.empty code start)
          (Bucket.process code b.toEvent) with
      | (.error cause, _) => .error (.eval cause)
      | (.ok (), folded) => foldInto code g rest folded

/-- The buckets in memory, folded to a granularity. -/
def folded (r : Retrieval) (g : Granularity) (stores : List BucketStore) :
    Except RollupError FoldedBuckets :=
  foldInto r.fold g (stores.flatMap BucketStore.entries) []

/-- The output row of a row of an aggregation. -/
def output (r : Retrieval) (row : Event) : Run RollupError Event := do
  let data ← (Code.runAll noRows r.outputs (.single row)).mapError .eval
  return .current row.timestamp data

/-- The output rows of several rows. -/
def outputAll (r : Retrieval) : List Event → Run RollupError (List Event)
  | [] => pure []
  | row :: rest => do
    let first ← r.output row
    let others ← r.outputAll rest
    return first :: others

/-- The rows of a granularity that match. `stores` are the buckets in memory of the granularity and
of all finer ones. -/
def find (r : Retrieval) (rows : SourceRows) (matching : Frame) (g : Granularity) (table : Holder)
    (stores : List BucketStore) : Run RollupError (List Event × RetrievalTrace) := do
  let within ← Run.ofExcept (r.withinFor g)
  let persisted ← (within.find rows matching (.indexed table table.capability)).mapError .lookup
  let persisted := persisted.map (·.event)
  let (live, entries, merged) ←
    if ← r.inMemoryInRange rows matching g stores then do
      let folded ← Run.ofExcept (r.folded g stores)
      let candidates := folded.buckets.map (·.toEvent)
      let live ← (r.inMemory.find rows matching (.ofEvents candidates)).mapError .lookup
      pure (live.map (·.event), candidates.length, true)
    else pure ([], 0, false)
  let outputs ← r.outputAll (persisted ++ live)
  let _ ← (Code.runAll noRows r.outputs (.single (.reset 0))).mapError .eval
  let found ← (r.on.find rows matching (.ofEvents outputs)).mapError .lookup
  return (found.map (·.event), ⟨persisted.length, merged, entries, live.length⟩)

end Retrieval

end EventQuery
