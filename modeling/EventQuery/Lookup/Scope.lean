import EventQuery.Eval.Compile
import EventQuery.Lookup.Error
import EventQuery.Store.Holder

/-!
Classification of conditions against a store: which parts do not depend on the stored event at all,
which can be answered from an index, and which need a scan. Parts that are evaluated as a whole
either way stay together.
-/

namespace EventQuery

/-- Where the candidate event of a lookup stands among the slots that a condition sees. -/
structure MatchLayout where
  layout : Layout
  storeSlot : Nat
  deriving Repr

namespace MatchLayout

/-- A matching stream in the first slot and the store in the second. -/
def join (matching store : Definition) (reference : Option String) : MatchLayout :=
  ⟨⟨[⟨matching, none⟩, ⟨store, reference⟩], 0⟩, 1⟩

/-- The store alone. -/
def storeOnly (store : Definition) : MatchLayout := ⟨.single store, 0⟩

end MatchLayout

/-- What a store offers to conditions: its definition, the attributes that it has an index for, and
the comparisons that it answers from an index. -/
structure Capability where
  definition : Definition
  isIndexed : String → Bool
  supports : String → Comparison → Bool

def Holder.capability (h : Holder) : Capability := ⟨h.definition, h.isIndexed, h.supports⟩

/-- The same store without the support of some comparisons. -/
def Capability.deny (c : Capability) (denied : List (String × Comparison)) : Capability :=
  { c with supports := fun name op => !denied.contains (name, op) && c.supports name op }

/-- How a part of a condition can be answered: independently of the store, by a scan, as an indexed
attribute, by one index lookup, or by a combination of lookups. -/
inductive Scope where
  | independent
  | exhaustive
  | indexedAttribute
  | indexedResult
  | optimised
  deriving DecidableEq, Repr

/-- Whether an index can contribute to an answer. -/
def Scope.isIndexable : Scope → Bool
  | .indexedAttribute | .indexedResult | .optimised => true
  | .independent | .exhaustive => false

/-- A classified condition. Every node holds the expression that it classifies; a comparison has the
attribute on its left and a value that is independent of the store. -/
inductive Classified where
  | independent (e : Expr)
  | exhaustive (e : Expr)
  | named (e : Expr) (name : String)
  | compare (e : Expr) (name : String) (op : Comparison) (value : Expr)
  | isNull (e : Expr) (name : String)
  | and (e : Expr) (left right : Classified)
  | or (e : Expr) (left right : Classified)
  | not (e : Expr) (inner : Classified)
  deriving Repr, Inhabited

namespace Classified

/-- The expression that a node classifies. -/
def expr : Classified → Expr
  | .independent e | .exhaustive e | .named e _ | .compare e _ _ _ | .isNull e _ => e
  | .and e _ _ | .or e _ _ | .not e _ => e

def scope : Classified → Scope
  | .independent _ => .independent
  | .exhaustive _ => .exhaustive
  | .named .. => .indexedAttribute
  | .compare .. | .isNull .. => .indexedResult
  | .and .. | .or .. => .optimised
  | .not _ inner => if inner.scope = .indexedAttribute then .indexedResult else .optimised

/-- A node that is evaluated as a whole. -/
def whole (e : Expr) (isIndependent : Bool) : Classified :=
  if isIndependent then .independent e else .exhaustive e

/-- Conjunction keeps its sides apart unless both are independent or both need a scan. -/
def conjunction (e : Expr) (l r : Classified) : Classified :=
  match l.scope, r.scope with
  | .independent, .independent => .independent e
  | .exhaustive, .exhaustive => .exhaustive e
  | _, _ => .and e l r

/-- A disjunction needs a scan as soon as one side does. -/
def disjunction (e : Expr) (l r : Classified) : Classified :=
  match l.scope, r.scope with
  | .independent, .independent => .independent e
  | .exhaustive, _ | _, .exhaustive => .exhaustive e
  | _, _ => .or e l r

def negation (e : Expr) (inner : Classified) : Classified :=
  match inner.scope with
  | .independent => .independent e
  | .exhaustive => .exhaustive e
  | _ => .not e inner

/-- The lookup that a comparison amounts to: an indexed attribute on one side and an independent
value on the other. -/
def lookupOf (op : Comparison) (l r : Classified) : Option (String × Comparison × Expr) :=
  match l, r with
  | .named _ name, r => if r.scope = .independent then some (name, op, r.expr) else none
  | l, .named _ name => if l.scope = .independent then some (name, op.converse, l.expr) else none
  | _, _ => none

def comparison (c : Capability) (e : Expr) (op : Comparison) (l r : Classified) : Classified :=
  if l.scope = .independent && r.scope = .independent then .independent e
  else
    match lookupOf op l r with
    | some (name, op, value) =>
      if c.supports name op then .compare e name op value else .exhaustive e
    | none => .exhaustive e

def nullTest (c : Capability) (e : Expr) (inner : Classified) : Classified :=
  match inner with
  | .independent _ => .independent e
  | .named _ name => if c.supports name .equal then .isNull e name else .exhaustive e
  | _ => .exhaustive e

end Classified

mutual

/-- Classify a condition for a layout in which the stored event has a given slot. -/
def classifyIn (context : Context) (c : Capability) (storeSlot : Nat) :
    Expr → Layout → Except LookupError Classified
  | .const v, _ => .ok (.independent (.const v))
  | .var v, layout =>
    match layout.resolve v with
    | .error e => .error (.eval (.ofResolve e))
    | .ok b =>
      if b.slot ≠ storeSlot then .ok (.independent (.var v))
      else if c.isIndexed v.name then .ok (.named (.var v) v.name)
      else .ok (.exhaustive (.var v))
  | .and l r, layout => do
    let left ← classifyIn context c storeSlot l layout
    let right ← classifyIn context c storeSlot r layout
    return .conjunction (.and l r) left right
  | .or l r, layout => do
    let left ← classifyIn context c storeSlot l layout
    let right ← classifyIn context c storeSlot r layout
    return .disjunction (.or l r) left right
  | .not e, layout => do return .negation (.not e) (← classifyIn context c storeSlot e layout)
  | .compare op l r, layout => do
    let left ← classifyIn context c storeSlot l layout
    let right ← classifyIn context c storeSlot r layout
    return .comparison c (.compare op l r) op left right
  | .arith op l r, layout => do
    let left ← classifyIn context c storeSlot l layout
    let right ← classifyIn context c storeSlot r layout
    return .whole (.arith op l r) (left.scope = .independent && right.scope = .independent)
  | .call space name args, layout => do
    return .whole (.call space name args) (← allIndependent context c storeSlot args layout)
  | .member e source, layout =>
    match context.source? source with
    | none => .error (.eval (.undefinedSource source))
    | some d => do
      let inner ← classifyIn context c storeSlot e (layout.extend d source)
      return .whole (.member e source) (inner.scope = .independent)
  | .isNull e, layout => do
    return .nullTest c (.isNull e) (← classifyIn context c storeSlot e layout)
  | .slotEmpty stream, _ =>
    .error (.unsupportedExpression (Expr.slotEmpty stream).kindName (Expr.slotEmpty stream).text)

/-- Whether all arguments are independent of the store. -/
def allIndependent (context : Context) (c : Capability) (storeSlot : Nat) :
    List Expr → Layout → Except LookupError Bool
  | [], _ => .ok true
  | e :: es, layout => do
    let first ← classifyIn context c storeSlot e layout
    let rest ← allIndependent context c storeSlot es layout
    return first.scope = .independent && rest

end

/-- Classify a condition against a store. -/
def classify (context : Context) (c : Capability) (info : MatchLayout) (e : Expr) :
    Except LookupError Classified :=
  classifyIn context c info.storeSlot e info.layout

end EventQuery
