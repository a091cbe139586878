import EventQuery.Eval.Error
import EventQuery.Text.Regex.Search
import EventQuery.Time.Timestamp

/-!
Scalar functions. A function is known by its qualified name and can be any; the built-in ones are
those of the standard registry.
-/

namespace EventQuery

/-- A scalar function: its qualified name, the numbers of arguments that it accepts, the type of its
result for the types of its arguments, and its value, which depends on its arguments alone. -/
structure Function where
  name : String
  arity : Arity
  resultType : List AttributeType → Except EvalError AttributeType
  apply : List Value → Except EvalError Value

/-- Functions are shown by their names. -/
instance : Repr Function where
  reprPrec f _ := repr f.name

/-- The built-in functions. -/
inductive Builtin where
  | coalesce
  | ifThenElse
  | maximum
  | minimum
  | concat
  | length
  | regexMatches
  | toMillis
  deriving DecidableEq, Repr, Inhabited

namespace Builtin

def all : List Builtin :=
  [coalesce, ifThenElse, maximum, minimum, concat, length, regexMatches, toMillis]

def name : Builtin → String
  | coalesce => "coalesce"
  | ifThenElse => "ifThenElse"
  | maximum => "maximum"
  | minimum => "minimum"
  | concat => "str:concat"
  | length => "str:length"
  | regexMatches => "regex:matches"
  | toMillis => "time:toMillis"

def arity : Builtin → Arity
  | coalesce | maximum | minimum | concat => .atLeast 1
  | ifThenElse => .exactly 3
  | length | toMillis => .exactly 1
  | regexMatches => .exactly 2

/-- Check the type of an argument; an untyped one is always accepted. -/
def expectType (b : Builtin) (found expected : AttributeType) : Except EvalError Unit :=
  if found = expected || found = .object then .ok ()
  else .error (.invalidArgument b.name (.wrongType expected found))

/-- The common type of arguments that must agree, from that of those already seen. Untyped ones
adapt, numbers widen. -/
def unifyFrom (b : Builtin) (common : AttributeType) :
    List AttributeType → Except EvalError AttributeType
  | [] => .ok common
  | t :: rest =>
    if t = .object then unifyFrom b common rest
    else if common = .object || common = t then unifyFrom b t rest
    else
      match common.widen t with
      | some wider => unifyFrom b wider rest
      | none => .error (.invalidArgument b.name (.incompatible common t))

/-- The common type of arguments that must agree. -/
def unify (b : Builtin) (types : List AttributeType) : Except EvalError AttributeType :=
  b.unifyFrom .object types

/-- The common type of arguments that must be numbers. -/
def unifyNumeric (b : Builtin) (types : List AttributeType) : Except EvalError AttributeType :=
  match types.find? fun t => !t.isNumeric && t ≠ .object with
  | some t => .error (.invalidArgument b.name (.nonNumericAmong t))
  | none => b.unify types

/-- The type of the result for the types of the arguments. -/
def resultType (b : Builtin) (types : List AttributeType) : Except EvalError AttributeType :=
  match b, types with
  | .coalesce, types => b.unify types
  | .ifThenElse, condition :: branches => do
    b.expectType condition .bool
    b.unify branches
  | .maximum, types | .minimum, types => b.unifyNumeric types
  | .concat, _ => .ok .string
  | .length, text :: _ => do
    b.expectType text .string
    .ok .int
  | .regexMatches, pattern :: text :: _ => do
    b.expectType pattern .string
    b.expectType text .string
    .ok .bool
  | .toMillis, instant :: _ =>
    match instant with
    | .string | .int | .long | .object => .ok .long
    | .float | .double | .bool => .error (.typeMismatch "STRING or LONG" instant.name)
  | b, types => .error (.argumentCount b.name b.arity types.length)

/-- The greatest value; of equal ones the last. -/
def greatest : List Value → Option Value
  | [] => none
  | v :: rest => some (rest.foldl (fun best w => if best.order w = .gt then best else w) v)

/-- The least value; of equal ones the first. -/
def least : List Value → Option Value
  | [] => none
  | v :: rest => some (rest.foldl (fun best w => if best.order w = .gt then w else best) v)

/-- Whether a whole text matches a regular expression. The expression is put between anchors as
text. -/
def matchesWhole (pattern text : String) : Except EvalError Bool :=
  match Text.Regex.compile? ("^(?:" ++ pattern ++ ")$") with
  | some program => .ok (program.occursIn text)
  | none => .error (.invalidArgument regexMatches.name .malformedRegex)

/-- The value for the values of the arguments. -/
def apply (b : Builtin) (args : List Value) : Except EvalError Value :=
  match b, args with
  | .coalesce, args => .ok ((args.find? (!·.isNull)).getD .null)
  | .ifThenElse, [condition, yes, no] => .ok (if condition.isTrue then yes else no)
  | .maximum, args => .ok ((greatest (args.filter (!·.isNull))).getD .null)
  | .minimum, args => .ok ((least (args.filter (!·.isNull))).getD .null)
  | .concat, args =>
    .ok (if args.any (·.isNull) then .null else .string (String.join (args.map (·.plainText))))
  | .length, [.string s] => .ok (.int (.ofNat s.length))
  | .regexMatches, [.string pattern, .string text] => do
    let found ← matchesWhole pattern text
    .ok (.bool found)
  | .toMillis, [.string text] =>
    match Time.parseTimestamp text with
    | .ok millis => .ok (.long millis)
    | .error cause => .error (.invalidTimestamp cause)
  | .toMillis, [v] =>
    if v.isNull then .ok .null
    else
      match v.asLong with
      | some l => .ok (.long l)
      | none => .error (.invalidArgument b.name (.notAnInstant v))
  | _, _ => .ok .null

/-- A built-in function as a function among others. -/
def function (b : Builtin) : Function := ⟨b.name, b.arity, b.resultType, b.apply⟩

end Builtin

namespace Function

/-- The standard registry. -/
def standard : List Function := Builtin.all.map Builtin.function

/-- The function of a qualified name. -/
def find? (functions : List Function) (qualifiedName : String) : Option Function :=
  functions.find? (·.name = qualifiedName)

/-- Register a function under its name, in place of an earlier one of the same name. -/
def register (functions : List Function) (f : Function) : List Function :=
  functions.filter (·.name ≠ f.name) ++ [f]

/-- A name means the function that was last registered under it. -/
theorem find?_register (functions : List Function) (f : Function) (qualifiedName : String) :
    find? (register functions f) qualifiedName =
      if f.name = qualifiedName then some f else find? functions qualifiedName := by
  rw [find?, register, List.find?_append]
  by_cases hname : f.name = qualifiedName
  · have hgone : (functions.filter (·.name ≠ f.name)).find? (·.name = qualifiedName) = none := by
      rw [List.find?_eq_none]
      intro g hg
      simpa [hname] using (List.mem_filter.1 hg).2
    rw [hgone]
    simp [hname]
  · have hkept : (functions.filter (·.name ≠ f.name)).find? (·.name = qualifiedName) =
        functions.find? (·.name = qualifiedName) := by
      rw [List.find?_filter]
      congr 1
      funext g
      by_cases hg : g.name = qualifiedName <;> simp [hg, Ne.symm hname]
    rw [hkept]
    simp [find?, hname]

end Function

end EventQuery
