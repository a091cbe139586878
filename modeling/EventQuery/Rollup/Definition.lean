import EventQuery.Eval.Aggregate
import EventQuery.Rollup.Error
import EventQuery.Stream.Definition

/-!
Declarations of aggregations: which attributes an input stream is grouped by, which aggregates are
kept for every group, and for which granularities.
-/

namespace EventQuery

/-- One aggregate of an aggregation, with the input attribute that it is taken over. -/
structure AggregateOutput where
  name : String
  kind : AggregateKind
  argument : Option String
  deriving DecidableEq, Repr

/-- An aggregation. The granularities are in ascending order without repetition, and `bufferSize`
closed buckets of each stay in memory. -/
structure RollupDefinition where
  id : String
  input : Definition
  groupBy : List String
  aggregates : List AggregateOutput
  granularities : List Granularity
  bufferSize : Nat
  deriving Repr

/-- The column that holds the start of the bucket of a row. -/
def timestampColumn : String := "AGG_TIMESTAMP"

/-- The granularities from one to another. -/
def Granularity.between (first last : Granularity) : List Granularity :=
  Granularity.all.filter fun g => first.rank ≤ g.rank && g.rank ≤ last.rank

namespace RollupDefinition

/-- Check that all group-by attributes are attributes of the input. -/
def checkGroups (input : Definition) : List String → Except DefinitionFault Unit
  | [] => .ok ()
  | name :: rest =>
    if (input.position name).isNone then .error (.undefinedGroup name input.id)
    else checkGroups input rest

/-- Check the argument of an aggregate. -/
def checkArgument (input : Definition) (a : AggregateOutput) : Except DefinitionFault Unit :=
  match a.argument, a.kind with
  | none, .count => .ok ()
  | none, .fold kind => .error (.missingArgument kind.name)
  | some argument, kind =>
    match input.typeOf argument with
    | none => .error (.undefinedArgument argument input.id)
    | some type =>
      match kind with
      | .count => .ok ()
      | .fold kind =>
        match kind.resultType type with
        | .ok _ => .ok ()
        | .error cause => .error (.unsuitableArgument cause)

/-- Check the aggregates: their names differ from each other and from the names that are taken. -/
def checkAggregates (input : Definition) (taken : List String) :
    List AggregateOutput → Except DefinitionFault Unit
  | [] => .ok ()
  | a :: rest =>
    if taken.contains a.name then .error (.duplicateOutput a.name)
    else do
      checkArgument input a
      checkAggregates input (taken ++ [a.name]) rest

/-- Check a declaration, whose granularities may be in any order. -/
def check (input : Definition) (groupBy : List String) (aggregates : List AggregateOutput)
    (granularities : List Granularity) : Except DefinitionFault Unit :=
  if granularities.isEmpty then .error .noGranularity
  else if aggregates.isEmpty then .error .noAggregate
  else do
    checkGroups input groupBy
    checkAggregates input (timestampColumn :: groupBy) aggregates

/-- Declare an aggregation. -/
def build (id : String) (input : Definition) (groupBy : List String)
    (aggregates : List AggregateOutput) (granularities : List Granularity) (bufferSize : Nat) :
    Except RollupError RollupDefinition :=
  match check input groupBy aggregates granularities with
  | .error fault => .error (.invalidDefinition id fault)
  | .ok () =>
    .ok ⟨id, input, groupBy, aggregates, Granularity.all.filter granularities.contains, bufferSize⟩

end RollupDefinition

end EventQuery
