import EventQuery.Rollup.Retrieval

/-!
Aggregations at work: a chain of levels, finest first. An event is folded into the finest level, and
the rows that a level flushes are folded into the next coarser one.
-/

namespace EventQuery

/-- A running aggregation. -/
structure Rollup where
  definition : RollupDefinition
  layout : RollupLayout
  incoming : List Code
  levels : List Level
  context : Context

namespace Rollup

/-- The levels of an aggregation over given tables; every granularity needs one. -/
def levelsOver (d : RollupDefinition) (layout : RollupLayout) (fold : FoldCode)
    (tables : List (Granularity × Holder)) : List Level :=
  d.granularities.filterMap fun g =>
    (tables.lookup g).map fun table => Level.start g layout fold d.bufferSize table

/-- An aggregation over given tables. -/
def withTables (d : RollupDefinition) (tables : List (Granularity × Holder)) (context : Context) :
    Except RollupError Rollup := do
  let layout ← RollupLayout.ofDefinition d
  match d.granularities.find? fun g => (tables.lookup g).isNone with
  | some g => .error (.invalidDefinition d.id (.noTable g))
  | none =>
    let fold ← (layout.baseCodes context).finish
    let incoming ← (layout.incomingCodes context).finish
    .ok ⟨d, layout, incoming.code, levelsOver d layout fold tables, context⟩

/-- The table of a granularity with an index on the timestamp. -/
def indexedTable (layout : RollupLayout) (g : Granularity) :
    Except RollupError (Granularity × Holder) :=
  match Holder.build (layout.tableDefinition g) none [timestampColumn] with
  | .ok table => .ok (g, table)
  | .error cause => .error (.eval cause)

/-- An aggregation over tables of its own. -/
def start (d : RollupDefinition) (context : Context) : Except RollupError Rollup := do
  let layout ← RollupLayout.ofDefinition d
  let tables ← d.granularities.mapM (indexedTable layout)
  withTables d tables context

/-- The tables of the granularities, finest first. -/
def tables (r : Rollup) : List (Granularity × Holder) :=
  r.levels.map fun l => (l.granularity, l.table)

/-- The level of a granularity. -/
def level? (r : Rollup) (g : Granularity) : Option Level := r.levels.find? (·.granularity = g)

/-- The number of buckets in memory that hold data, by granularity. -/
def openBuckets (r : Rollup) : List (Granularity × Nat) :=
  r.levels.map fun l => (l.granularity, l.store.entries.length)

/-- Fold rows into the first level and what it flushes into the next, up to the first failure. -/
def cascade : List Level → List Event → Except RollupError Unit × List Level
  | [], _ => (.ok (), [])
  | l :: rest, pending =>
    match l.ingestAll pending with
    | (.error cause, l) => (.error cause, l :: rest)
    | (.ok [], l) => (.ok (), l :: rest)
    | (.ok flushed, l) =>
      let (result, rest) := cascade rest flushed
      (result, l :: rest)

/-- The row that an event contributes. -/
def contribution (r : Rollup) (event : Event) : Except RollupError Event :=
  match (Code.runAll noRows r.incoming (.single event)).run ⟨[]⟩ with
  | (.ok data, _) => .ok (.current event.timestamp (.long event.timestamp :: data))
  | (.error cause, _) => .error (.eval cause)

/-- Fold an event into all granularities. Only current events count. -/
def process (r : Rollup) (event : Event) : Except RollupError Unit × Rollup :=
  if event.kind ≠ .current then (.ok (), r)
  else
    match r.contribution event with
    | .error cause => (.error cause, r)
    | .ok row =>
      let (result, levels) := cascade r.levels [row]
      (result, { r with levels := levels })

/-- Compile a lookup. A constant granularity is checked at once. -/
def compile (r : Rollup) (rows : SourceRows) (on : Expr) (within : Within) (per : Expr)
    (matching : Definition) : Except RollupError (Stateful Retrieval) := do
  let compiled ← (Retrieval.compile r.context r.layout r.tables on within per matching).finish
  match per with
  | .const _ =>
    let (result, compiled) := compiled.run fun c => c.perFor rows (.empty 1)
    let _ ← result
    .ok compiled
  | _ => .ok compiled

/-- The stores of the levels up to a granularity. -/
def storesUpTo (r : Rollup) (g : Granularity) : List BucketStore :=
  (r.levels.filter fun l => l.granularity.rank ≤ g.rank).map (·.store)

/-- The rows that match a lookup, and what the lookup did. -/
def find (r : Rollup) (rows : SourceRows) (matching : Frame) (c : Retrieval) :
    Run RollupError (List Event × RetrievalTrace) := do
  let g ← c.perFor rows matching
  match r.level? g with
  | none => throw (.granularityNotConfigured r.definition.id g r.definition.granularities)
  | some level => c.find rows matching g level.table (r.storesUpTo g)

end Rollup

end EventQuery
