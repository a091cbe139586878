/-!
What can go wrong with granularities and timestamps.
-/

namespace EventQuery

/-- The causes of failure of granularities and timestamps. -/
inductive TimeError where
  | unknownGranularity (name : String)
  | outOfRange (millis : Int64)
  | invalidTimestamp (text : String)
  | invalidPattern (pattern : String)
  deriving DecidableEq, Repr

def TimeError.message : TimeError → String
  | .unknownGranularity name => "Unknown granularity: " ++ name
  | .outOfRange millis =>
    "Timestamp " ++ toString millis.toInt ++ " is outside the supported calendar range"
  | .invalidTimestamp text =>
    "Invalid timestamp '" ++ text ++ "': expected yyyy-MM-dd HH:mm:ss with an optional offset"
  | .invalidPattern pattern => "Invalid within pattern '" ++ pattern ++ "'"

end EventQuery
