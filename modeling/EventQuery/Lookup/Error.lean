import EventQuery.Eval.Error

/-!
What can go wrong when a condition is compiled for a container or a container is searched.
-/

namespace EventQuery

/-- The causes of failure of lookups. `internal` reports a condition that was taken apart
wrongly. -/
inductive LookupError where
  | unsupportedExpression (kind text : String)
  | unsupportedContainer (kind : String)
  | containerMismatch (expected found : String)
  | incompatibleCondition (condition table : String)
  | internal (message : String)
  | eval (cause : EvalError)
  deriving DecidableEq, Repr

def LookupError.message : LookupError → String
  | .unsupportedExpression kind text =>
    "Unsupported expression in collection condition: " ++ kind ++ " (" ++ text ++ ")"
  | .unsupportedContainer kind => "Unsupported candidate container: " ++ kind
  | .containerMismatch expected found =>
    "Operator built for " ++ expected ++ " containers cannot search a " ++ found ++ " container"
  | .incompatibleCondition condition table =>
    "Incompatible compiled condition: " ++ condition ++ " was not compiled by table " ++ table
  | .internal message => "Internal collection error: " ++ message
  | .eval cause => cause.message

end EventQuery
