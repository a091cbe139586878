import EventQuery.Lookup.Candidates
import EventQuery.Lookup.Scope

/-!
Plans: what is left of a classified condition to search a store with. A plan narrows the store to
candidates; where they may be too many, a verifier compiled from the whole condition checks each.
Only the outermost node on a path has a verifier, so the root of a plan answers exactly and inner
nodes stay cheap.
-/

namespace EventQuery

/-- A plan for searching a store. `gate` and `gated` first test a condition that does not depend on
the store. -/
inductive Plan where
  | compare (name : String) (op : Comparison) (position : Nat) (value : Code)
  | isNull (name : String)
  | gate (condition : Code)
  | gated (condition : Code) (inner : Plan)
  | both (left right : Plan) (verifier : Option Code)
  | narrowed (indexed : Plan) (verifier : Option Code)
  | either (left right : Plan) (verifier : Option Code)
  | complement (inner : Plan) (verifier : Option Code)
  | scan (verifier : Option Code)
  deriving Repr, Inhabited

/-- What a lookup searches, and with which event. -/
structure Search where
  rows : SourceRows
  holder : Holder
  storeSlot : Nat
  matching : Frame

namespace Search

/-- The frame in which a candidate is tested. -/
def candidate (s : Search) (e : StoredEvent) : Frame :=
  s.matching.setSlot s.storeSlot (some e.event)

/-- The candidates that pass a test. -/
def filter (s : Search) (condition : Code) (events : EventSet) : Run EvalError EventSet :=
  Run.filterM (fun e => condition.test s.rows (s.candidate e)) events

/-- Check candidates that may be too many. -/
def verify (s : Search) (candidates : CandidateSet) (verifier : Option Code) :
    Run EvalError CandidateSet :=
  match candidates, verifier with
  | .superset events, some condition => do return .exact (← s.filter condition events)
  | .all, some condition => do return .exact (← s.filter condition s.holder.events)
  | candidates, _ => pure candidates

end Search

namespace Plan

/-- The name of the kind of a node in diagnostics. -/
def kindName : Plan → String
  | .compare .. => "Compare"
  | .isNull _ => "IsNull"
  | .gate _ => "Non"
  | .gated .. => "NonAnd"
  | .both .. => "AnyAnd"
  | .narrowed .. => "CompareExhaustiveAnd"
  | .either .. => "Or"
  | .complement .. => "Not"
  | .scan _ => "Exhaustive"

/-- The part of a plan that looks an attribute up. -/
def lookup (c : Capability) (name : String) (op : Comparison) (value : Code) :
    Allot LookupError Plan :=
  match c.definition.position name with
  | some position => pure (.compare name op position value)
  | none => throw (.eval (.undefinedAttribute name))

/-- Compile a condition for the layout of a lookup. -/
def condition (context : Context) (info : MatchLayout) (e : Expr) : Allot LookupError Code :=
  (Compile.condition context e info.layout).mapError .eval

/-- The verifier of a node, which outermost nodes alone have. -/
def verifierFor (context : Context) (info : MatchLayout) (isFirst : Bool) (e : Expr) :
    Allot LookupError (Option Code) :=
  if isFirst then do return some (← condition context info e) else pure none

/-- Build the plan of a classified condition. The plan of an outermost node answers exactly. -/
def build (context : Context) (c : Capability) (info : MatchLayout) :
    Classified → Bool → Allot LookupError Plan
  | .independent e, _ => do return .gate (← condition context info e)
  | .exhaustive e, isFirst => do return .scan (← verifierFor context info isFirst e)
  | .named e name, _ =>
    if c.supports name .equal then lookup c name .equal (.const (.bool true))
    else do return .scan (some (← condition context info e))
  | .compare _ name op value, _ => do
    let value ← (Compile.code context value info.layout).mapError .eval
    lookup c name op value
  | .isNull _ name, _ => pure (.isNull name)
  | .and e l r, isFirst =>
    if l.scope = .independent then do
      let gate ← condition context info l.expr
      return .gated gate (← build context c info r isFirst)
    else if r.scope = .independent then do
      let gate ← condition context info r.expr
      return .gated gate (← build context c info l isFirst)
    else if l.scope.isIndexable && r.scope.isIndexable then do
      let left ← build context c info l false
      let right ← build context c info r false
      return .both left right (← verifierFor context info isFirst e)
    else if l.scope.isIndexable then do
      let indexed ← build context c info l false
      return .narrowed indexed (← verifierFor context info isFirst e)
    else if r.scope.isIndexable then do
      let indexed ← build context c info r false
      return .narrowed indexed (← verifierFor context info isFirst e)
    else throw (.internal ("AND of two scans should have collapsed (" ++ e.text ++ ")"))
  | .or e l r, isFirst => do
    let left ← build context c info l isFirst
    let right ← build context c info r isFirst
    return .either left right (← verifierFor context info isFirst e)
  | .not e inner, isFirst => do
    let inner ← build context c info inner isFirst
    return .complement inner (← verifierFor context info isFirst e)

/-- Narrow the store to the candidates of a plan. -/
def findCandidates (s : Search) : Plan → Run EvalError CandidateSet
  | .compare name op position value => do
    let probe ← value.run s.rows s.matching
    if probe.isNull then return .exact []
    if op = .notEqual then
      return .exact (s.holder.events.filter fun e => op.holds (e.event.get position) probe)
    return .exact (s.holder.findEvents name op probe)
  | .isNull name => pure (.exact (s.holder.findEvents name .equal .null))
  | .gate condition => do
    if ← condition.test s.rows s.matching then return .exact s.holder.events
    return .exact []
  | .gated condition inner => do
    if ← condition.test s.rows s.matching then findCandidates s inner
    else return .exact []
  | .both l r verifier => do
    let left ← findCandidates s l
    if left.isExactlyEmpty then s.verify left verifier
    else do
      let right ← findCandidates s r
      s.verify (left.intersect right) verifier
  | .narrowed indexed verifier => do
    let candidates ← findCandidates s indexed
    if candidates.isExactlyEmpty then return candidates
    s.verify candidates.loosen verifier
  | .either l r verifier => do
    let left ← findCandidates s l
    let right ← findCandidates s r
    s.verify (left.union right) verifier
  | .complement inner verifier => do
    let candidates ← findCandidates s inner
    s.verify (candidates.negate s.holder.events) verifier
  | .scan verifier => s.verify .all verifier

/-- The stored events that satisfy the condition of a root. -/
def find (s : Search) (p : Plan) : Run LookupError EventSet := do
  match ← (p.findCandidates s).mapError .eval with
  | .exact events => return events
  | .all =>
    throw (.internal (p.kindName ++ " executor produced an unverified candidate set (all events)"))
  | .superset _ =>
    throw (.internal (p.kindName ++ " executor produced an unverified candidate set (superset)"))

/-- Whether some stored event satisfies the condition. Lookups and gates answer without listing
events. -/
def contains (s : Search) : Plan → Run LookupError Bool
  | .compare name op position value =>
    if op = .notEqual then do return !(← find s (.compare name op position value)).isEmpty
    else do
      let probe ← (value.run s.rows s.matching).mapError .eval
      return !probe.isNull && s.holder.containsEvent name op probe
  | .isNull name => pure (s.holder.containsEvent name .equal .null)
  | .gate condition => do
    let opened ← (condition.test s.rows s.matching).mapError .eval
    return opened && 0 < s.holder.size
  | .gated condition inner => do
    if ← (condition.test s.rows s.matching).mapError .eval then contains s inner
    else return false
  | p => do return !(← find s p).isEmpty

/-- Remove the stored events that satisfy the condition, and give their number with the store that
is left. -/
def delete (s : Search) (p : Plan) : Run LookupError (Nat × Holder) :=
  match p with
  | .compare name op position value =>
    if op = .notEqual then do
      return s.holder.deleteEvents (← find s (.compare name op position value))
    else do
      let probe ← (value.run s.rows s.matching).mapError .eval
      return if probe.isNull then (0, s.holder) else s.holder.delete name op probe
  | p => do return s.holder.deleteEvents (← find s p)

end Plan

end EventQuery
