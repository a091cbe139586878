import EventQuery.Rollup.Chain

/-!
Copies of compiled artifacts for the partition of a key. A copy is rebuilt part by part, and each of
its aggregates gets a new accumulator in the memory that the original lives in, so the two share
nothing that a run writes. The key does not matter.
-/

namespace EventQuery

/-- Take a new cell, with an accumulator that has seen no event. -/
def Memory.allot : StateM Memory Nat := fun m => (m.cells.length, ⟨m.cells ++ [.empty]⟩)

/-- The copy of an artifact, in the memory of the original. -/
def Stateful.clone {α : Type} (copy : α → StateM Memory α) (s : Stateful α) : Stateful α :=
  let (code, memory) := (copy s.code).run s.memory
  ⟨code, memory⟩

namespace Code

mutual

/-- The copy of a compiled expression. The argument of an aggregate is copied before the
aggregate. -/
def clone (key : String) : Code → StateM Memory Code
  | .const v => pure (.const v)
  | .read slot position type => pure (.read slot position type)
  | .and l r => do
    let l ← clone key l
    let r ← clone key r
    return .and l r
  | .or l r => do
    let l ← clone key l
    let r ← clone key r
    return .or l r
  | .not e => do return .not (← clone key e)
  | .compare op l r => do
    let l ← clone key l
    let r ← clone key r
    return .compare op l r
  | .arith op l r type => do
    let l ← clone key l
    let r ← clone key r
    return .arith op l r type
  | .call f args type => do return .call f (← cloneAll key args) type
  | .count _ => do return .count (← Memory.allot)
  | .fold kind argument type _ => do
    let argument ← clone key argument
    return .fold kind argument type (← Memory.allot)
  | .member condition source slot => do return .member (← clone key condition) source slot
  | .isNull e => do return .isNull (← clone key e)
  | .slotEmpty slot => pure (.slotEmpty slot)

/-- The copies of several compiled expressions. -/
def cloneAll (key : String) : List Code → StateM Memory (List Code)
  | [] => pure []
  | c :: cs => do
    let c ← clone key c
    let cs ← cloneAll key cs
    return c :: cs

end

end Code

namespace Plan

/-- The copy of a verifier, where there is one. -/
def cloneVerifier (key : String) : Option Code → StateM Memory (Option Code)
  | none => pure none
  | some condition => do return some (← condition.clone key)

/-- The copy of a plan. -/
def clone (key : String) : Plan → StateM Memory Plan
  | .compare name op position value => do return .compare name op position (← value.clone key)
  | .isNull name => pure (.isNull name)
  | .gate condition => do return .gate (← condition.clone key)
  | .gated condition inner => do
    let condition ← condition.clone key
    let inner ← clone key inner
    return .gated condition inner
  | .both l r verifier => do
    let l ← clone key l
    let r ← clone key r
    let verifier ← cloneVerifier key verifier
    return .both l r verifier
  | .narrowed indexed verifier => do
    let indexed ← clone key indexed
    let verifier ← cloneVerifier key verifier
    return .narrowed indexed verifier
  | .either l r verifier => do
    let l ← clone key l
    let r ← clone key r
    let verifier ← cloneVerifier key verifier
    return .either l r verifier
  | .complement inner verifier => do
    let inner ← clone key inner
    let verifier ← cloneVerifier key verifier
    return .complement inner verifier
  | .scan verifier => do return .scan (← cloneVerifier key verifier)

end Plan

/-- The copy of an operator. -/
def Operator.clone (key : String) (o : Operator) : StateM Memory Operator :=
  match o.strategy with
  | .plan p => do return ⟨.plan (← p.clone key), o.storeSlot⟩
  | .scan kind condition => do return ⟨.scan kind (← condition.clone key), o.storeSlot⟩

/-- The copy of the code that folds rows into buckets. Every bucket has a memory of its own, and so
has their template. -/
def FoldCode.clone (key : String) (fold : FoldCode) : FoldCode :=
  let (code, memory) := (Code.cloneAll key fold.code).run ⟨[]⟩
  ⟨code, memory⟩

namespace Retrieval

/-- The copies of the conditions on the tables. -/
def cloneWithin (key : String) :
    List (Granularity × Operator) → StateM Memory (List (Granularity × Operator))
  | [] => pure []
  | (g, operator) :: rest => do
    let operator ← operator.clone key
    let rest ← cloneWithin key rest
    return (g, operator) :: rest

/-- The copy of a compiled lookup. -/
def clone (key : String) (r : Retrieval) : StateM Memory Retrieval := do
  let within ← cloneWithin key r.within
  let inMemory ← r.inMemory.clone key
  let since ← r.since.clone key
  let before ← r.before.clone key
  let on ← r.on.clone key
  let per ← r.per.clone key
  let outputs ← Code.cloneAll key r.outputs
  return ⟨r.aggregation, within, inMemory, since, before, on, per, FoldCode.clone key r.fold,
    outputs, r.outputDefinition⟩

end Retrieval

end EventQuery
