import EventQuery.Eval.Function

/-!
The built-in functions with their arguments read by position, as far as they do so; a position that
is not there has no type or value to read. Arguments as many as a function accepts have all
positions that it reads.
-/

namespace EventQuery.Builtin

/-- The type of the result, from types that are read by position; none where one is missing. -/
def resultTypeByPosition (b : Builtin) (types : List AttributeType) :
    Option (Except EvalError AttributeType) :=
  match b with
  | .ifThenElse => do
    let condition ← types[0]?
    match b.expectType condition .bool with
    | .error e => return .error e
    | .ok _ => if 1 ≤ types.length then return b.unify (types.drop 1) else none
  | .length => do
    let text ← types[0]?
    match b.expectType text .string with
    | .error e => return .error e
    | .ok _ => return .ok .int
  | .regexMatches => do
    let pattern ← types[0]?
    match b.expectType pattern .string with
    | .error e => return .error e
    | .ok _ => do
      let text ← types[1]?
      match b.expectType text .string with
      | .error e => return .error e
      | .ok _ => return .ok .bool
  | .toMillis => do
    let instant ← types[0]?
    match instant with
    | .string | .int | .long | .object => return .ok .long
    | other => return .error (.typeMismatch "STRING or LONG" other.name)
  | .coalesce => some (b.unify types)
  | .maximum | .minimum => some (b.unifyNumeric types)
  | .concat => some (.ok .string)

/-- The value of a function, from arguments that are read by position; none where one is missing. -/
def applyByPosition (b : Builtin) (args : List Value) : Option (Except EvalError Value) :=
  match b with
  | .ifThenElse => do
    let condition ← args[0]?
    let chosen ← if condition.isTrue then args[1]? else args[2]?
    return .ok chosen
  | .length => do
    match ← args[0]? with
    | .string s => return .ok (.int (.ofNat s.length))
    | _ => return .ok .null
  | .regexMatches => do
    let pattern ← args[0]?
    let text ← args[1]?
    match pattern, text with
    | .string pattern, .string text => return (do .ok (.bool (← matchesWhole pattern text)))
    | _, _ => return .ok .null
  | .toMillis => do
    match ← args[0]? with
    | .string text =>
      match Time.parseTimestamp text with
      | .ok millis => return .ok (.long millis)
      | .error cause => return .error (.invalidTimestamp cause)
    | .null => return .ok .null
    | other =>
      match other.asLong with
      | some l => return .ok (.long l)
      | none => return .error (.invalidArgument b.name (.notAnInstant other))
  | .coalesce | .maximum | .minimum | .concat => some (b.apply args)

/-- A function that takes an exact number of arguments is given just as many. -/
theorem length_eq_of_accepts {n count : Nat} (h : (Arity.exactly n).accepts count = true) :
    count = n := by
  obtain ⟨hleast, hgreatest⟩ := Bool.and_eq_true_iff.1 h
  exact Nat.le_antisymm (of_decide_eq_true hgreatest) (of_decide_eq_true hleast)

theorem resultTypeByPosition_eq {b : Builtin} {types : List AttributeType}
    (h : b.arity.accepts types.length = true) :
    b.resultTypeByPosition types = some (b.resultType types) := by
  cases b with
  | ifThenElse =>
      match types, length_eq_of_accepts h with
      | [condition, yes, no], _ =>
          simp only [resultTypeByPosition, resultType]
          cases hcondition : ifThenElse.expectType condition .bool <;> simp [hcondition] <;> rfl
  | length =>
      match types, length_eq_of_accepts h with
      | [text], _ =>
          simp only [resultTypeByPosition, resultType]
          cases htext : length.expectType text .string <;> simp [htext] <;> rfl
  | regexMatches =>
      match types, length_eq_of_accepts h with
      | [pattern, text], _ =>
          simp only [resultTypeByPosition, resultType]
          cases hpattern : regexMatches.expectType pattern .string <;>
            cases htext : regexMatches.expectType text .string <;> simp [hpattern, htext] <;> rfl
  | toMillis =>
      match types, length_eq_of_accepts h with
      | [instant], _ => cases instant <;> rfl
  | coalesce => rfl
  | maximum => rfl
  | minimum => rfl
  | concat => rfl

theorem applyByPosition_eq {b : Builtin} {args : List Value}
    (h : b.arity.accepts args.length = true) : b.applyByPosition args = some (b.apply args) := by
  cases b with
  | ifThenElse =>
      match args, length_eq_of_accepts h with
      | [condition, yes, no], _ =>
          simp only [applyByPosition, apply]
          cases hcondition : condition.isTrue <;> simp [hcondition]
  | length =>
      match args, length_eq_of_accepts h with
      | [v], _ => cases v <;> rfl
  | regexMatches =>
      match args, length_eq_of_accepts h with
      | [pattern, text], _ => cases pattern <;> cases text <;> rfl
  | toMillis =>
      match args, length_eq_of_accepts h with
      | [v], _ =>
          cases v with
          | string text =>
              simp only [applyByPosition, apply]
              cases hmillis : Time.parseTimestamp text <;> simp [hmillis]
          | _ => rfl
  | coalesce => rfl
  | maximum => rfl
  | minimum => rfl
  | concat => rfl

end EventQuery.Builtin
