import EventQuery.Expr.Basic
import EventQuery.Time.Error

/-!
What can go wrong when an expression is compiled or evaluated, and the wording of each cause.
-/

namespace EventQuery

/-- The numbers of arguments that a function accepts; without a greatest one it accepts any number
from the least. -/
structure Arity where
  least : Nat
  greatest : Option Nat
  deriving DecidableEq, Repr

namespace Arity

def exactly (n : Nat) : Arity := ⟨n, some n⟩

def atLeast (n : Nat) : Arity := ⟨n, none⟩

def accepts (a : Arity) (count : Nat) : Bool :=
  a.least ≤ count && match a.greatest with
    | some greatest => count ≤ greatest
    | none => true

def text (a : Arity) : String :=
  match a.greatest with
  | some greatest =>
    if greatest = a.least then toString greatest else toString a.least ++ ".." ++ toString greatest
  | none => "at least " ++ toString a.least

end Arity

/-- What is wrong with an argument of a function; `custom` is what a function says in its own
words. -/
inductive ArgumentFault where
  | wrongType (expected found : AttributeType)
  | incompatible (left right : AttributeType)
  | nonNumericAmong (found : AttributeType)
  | nonNumeric (found : AttributeType)
  | malformedRegex
  | notAnInstant (v : Value)
  | custom (message : String)
  deriving DecidableEq, Repr

def ArgumentFault.message : ArgumentFault → String
  | .wrongType expected found => "expected " ++ expected.name ++ ", found " ++ found.name
  | .incompatible left right => "incompatible types " ++ left.name ++ " and " ++ right.name
  | .nonNumericAmong found => "expected numeric arguments, found " ++ found.name
  | .nonNumeric found => "expected a numeric argument, found " ++ found.name
  | .malformedRegex => "<regex error>"
  | .notAnInstant v => v.text
  | .custom message => message

/-- The causes of failure of expressions. `overflow` is the negation of the least 64-bit integer, or
a count or a number of buckets beyond the 64-bit integers: results that cannot be held. -/
inductive EvalError where
  | typeMismatch (expected found : String)
  | unsupportedOperator (operator : String) (left right : AttributeType)
  | undefinedAttribute (name : String)
  | undefinedStream (name : String)
  | undefinedFunction (name : String)
  | undefinedSource (name : String)
  | argumentCount (function : String) (expected : Arity) (found : Nat)
  | invalidArgument (function : String) (fault : ArgumentFault)
  | divisionByZero
  | invalidTimestamp (cause : TimeError)
  | overflow
  deriving DecidableEq, Repr

namespace EvalError

def message : EvalError → String
  | .typeMismatch expected found => "Type mismatch: expected " ++ expected ++ ", found " ++ found
  | .unsupportedOperator operator left right =>
    "Unsupported operator: " ++ operator ++ " for types " ++ left.name ++ ", " ++ right.name
  | .undefinedAttribute name => "Undefined attribute: " ++ name
  | .undefinedStream name => "Undefined stream: " ++ name
  | .undefinedFunction name => "Undefined function: " ++ name
  | .undefinedSource name => "Undefined source: " ++ name
  | .argumentCount function expected found =>
    "Function " ++ function ++ " expects " ++ expected.text ++ " arguments, found " ++
      toString found
  | .invalidArgument function fault => "Invalid argument for " ++ function ++ ": " ++ fault.message
  | .divisionByZero => "Division by zero"
  | .invalidTimestamp cause => "Invalid timestamp: " ++ cause.message
  | .overflow => "Arithmetic overflow"

/-- The failure of a variable without a binding. -/
def ofResolve : ResolveError → EvalError
  | .undefinedStream id => .undefinedStream id
  | .undefinedAttribute name => .undefinedAttribute name

end EvalError

/-- Check a number of arguments. -/
def Arity.check (a : Arity) (function : String) (found : Nat) : Except EvalError Unit :=
  if a.accepts found then .ok () else .error (.argumentCount function a found)

end EventQuery
