import EventQuery.Lookup.Error
import EventQuery.Time.Granularity

/-!
What can go wrong when an aggregation is declared, fed or searched.
-/

namespace EventQuery

/-- What is wrong with the declaration of an aggregation. -/
inductive DefinitionFault where
  | noGranularity
  | noAggregate
  | undefinedGroup (name input : String)
  | duplicateOutput (name : String)
  | undefinedArgument (name input : String)
  | unsuitableArgument (cause : EvalError)
  | missingArgument (aggregate : String)
  | undefinedColumn (name : String)
  | noTable (granularity : Granularity)
  deriving DecidableEq, Repr

def DefinitionFault.message : DefinitionFault → String
  | .noGranularity => "at least one granularity is required"
  | .noAggregate => "at least one aggregate attribute is required"
  | .undefinedGroup name input => "group by attribute " ++ name ++ " is not defined on " ++ input
  | .duplicateOutput name => "duplicate output attribute " ++ name
  | .undefinedArgument name input => "attribute " ++ name ++ " is not defined on " ++ input
  | .unsuitableArgument cause => cause.message
  | .missingArgument aggregate => aggregate ++ " requires an argument"
  | .undefinedColumn name => "attribute " ++ name ++ " is not defined"
  | .noTable granularity => "no table for granularity " ++ granularity.name

/-- What is wrong with the time range of a lookup. -/
inductive WithinFault where
  | time (cause : TimeError)
  | patternNotConstant (text : String)
  | notATimestamp (v : Value)
  deriving DecidableEq, Repr

def WithinFault.message : WithinFault → String
  | .time cause => cause.message
  | .patternNotConstant text => "pattern must be a constant string, found " ++ text
  | .notATimestamp v => v.text ++ " is not a timestamp"

/-- The causes of failure of aggregations. `groupOverrun` reports more group-by attributes than
columns, which repeated attributes can cause. -/
inductive RollupError where
  | granularityNotConfigured (aggregation : String) (requested : Granularity)
    (available : List Granularity)
  | perMismatch (found : AttributeType)
  | unknownGranularity (name : String)
  | invalidWithin (fault : WithinFault)
  | invalidDefinition (aggregation : String) (fault : DefinitionFault)
  | groupOverrun (groups columns : Nat)
  | lookup (cause : LookupError)
  | eval (cause : EvalError)
  deriving DecidableEq, Repr

namespace RollupError

def message : RollupError → String
  | .granularityNotConfigured aggregation requested available =>
    "The aggregate values for " ++ requested.name ++
      " granularity cannot be provided since aggregation " ++ aggregation ++ " only keeps " ++
      String.intercalate ", " (available.map Granularity.name)
  | .perMismatch found =>
    "Type mismatch for per: expected " ++ AttributeType.string.name ++ ", found " ++ found.name
  | .unknownGranularity name => "Unknown granularity: " ++ name
  | .invalidWithin fault => "Invalid within clause: " ++ fault.message
  | .invalidDefinition aggregation fault =>
    "Invalid aggregation definition " ++ aggregation ++ ": " ++ fault.message
  | .groupOverrun groups columns =>
    toString groups ++ " group-by attributes in " ++ toString columns ++ " columns"
  | .lookup cause => cause.message
  | .eval cause => cause.message

/-- The failure of a granularity or timestamp. -/
def ofTime : TimeError → RollupError
  | .unknownGranularity name => .unknownGranularity name
  | cause => .eval (.invalidTimestamp cause)

end RollupError

end EventQuery
