import EventQuery.Lookup.Operator
import EventQuery.Proofs.Eval.Acceptance
import EventQuery.Proofs.Lookup.Deletion
import EventQuery.Proofs.Lookup.Shortcuts

/-!
Which conditions an indexed store has an operator for. Every condition that compiles is classified
unless it tests a slot for an event, and every classification of a condition has a plan. The plan
answers exactly, so its operator never runs into an internal error.
-/

namespace EventQuery

namespace Expr

mutual

/-- The streams whose slot an expression tests for an event, from left to right. -/
def slotTests : Expr → List String
  | .const _ | .var _ => []
  | .and l r | .or l r | .compare _ l r | .arith _ l r => slotTests l ++ slotTests r
  | .not e | .member e _ | .isNull e => slotTests e
  | .call _ _ args => allSlotTests args
  | .slotEmpty stream => [stream]

/-- The streams whose slot a list of arguments tests for an event. -/
def allSlotTests : List Expr → List String
  | [] => []
  | e :: es => slotTests e ++ allSlotTests es

end

end Expr

namespace LookupError

/-- A condition for an indexed store cannot test a slot for an event. -/
def slotTest (stream : String) : LookupError :=
  .unsupportedExpression (Expr.slotEmpty stream).kindName (Expr.slotEmpty stream).text

end LookupError

/-- A classification stops at the first slot test, and without one it has a result. -/
def StopsAt {α : Type} (tests : List String) (result : Except LookupError α) : Prop :=
  match tests with
  | [] => ∃ a, result = .ok a
  | stream :: _ => result = .error (.slotTest stream)

namespace StopsAt

variable {α β : Type} {tests others : List String} {result : Except LookupError α}

theorem ok (a : α) : StopsAt [] (Except.ok a : Except LookupError α) := ⟨a, rfl⟩

theorem bind (h : StopsAt tests result) {f : α → Except LookupError β}
    (hf : ∀ a, StopsAt others (f a)) : StopsAt (tests ++ others) (result >>= f) := by
  cases tests with
  | nil =>
      obtain ⟨a, rfl⟩ := h
      exact hf a
  | cons stream rest =>
      obtain rfl : result = .error (.slotTest stream) := h
      rfl

theorem map (h : StopsAt tests result) (f : α → β) :
    StopsAt tests (do return f (← result) : Except LookupError β) := by
  have hbind := h.bind fun a => StopsAt.ok (f a)
  rwa [List.append_nil] at hbind

end StopsAt

section Classification

/-! ### Classifications -/

open Compile

variable {context : Context} {capability : Capability} {slot : Nat}

mutual

/-- What compiles is classified, or it tests a slot for an event. -/
theorem stopsAt_classifyIn : ∀ (e : Expr) {layout : Layout} {n m : Nat} {c : Code},
    code context e layout n = .ok (c, m) →
      StopsAt e.slotTests (classifyIn context capability slot e layout)
  | .const v, layout, n, m, c, _ => .ok _
  | .var v, layout, n, m, c, h => by
      obtain ⟨b, hb, -⟩ := code_var.1 h
      simp only [classifyIn, hb]
      split
      · exact .ok _
      · split <;> exact .ok _
  | .and l r, layout, n, m, c, h => by
      obtain ⟨l', r', k, hl, hr, -⟩ := code_and.1 h
      simp only [classifyIn]
      exact (stopsAt_classifyIn l hl).bind fun left => (stopsAt_classifyIn r hr).map _
  | .or l r, layout, n, m, c, h => by
      obtain ⟨l', r', k, hl, hr, -⟩ := code_or.1 h
      simp only [classifyIn]
      exact (stopsAt_classifyIn l hl).bind fun left => (stopsAt_classifyIn r hr).map _
  | .not e, layout, n, m, c, h => by
      obtain ⟨e', he, -⟩ := code_not.1 h
      simp only [classifyIn]
      exact (stopsAt_classifyIn e he).map _
  | .compare op l r, layout, n, m, c, h => by
      obtain ⟨l', r', k, hl, hr, -⟩ := code_compare.1 h
      simp only [classifyIn]
      exact (stopsAt_classifyIn l hl).bind fun left => (stopsAt_classifyIn r hr).map _
  | .arith op l r, layout, n, m, c, h => by
      obtain ⟨l', r', k, type, hl, hr, -⟩ := code_arith.1 h
      simp only [classifyIn]
      exact (stopsAt_classifyIn l hl).bind fun left => (stopsAt_classifyIn r hr).map _
  | .call space name args, layout, n, m, c, h => by
      obtain ⟨k, args', m', hargs⟩ :
          ∃ k args' m', codes context args layout k = .ok (args', m') := by
        cases hkind : aggregateOf space name with
        | some kind =>
            obtain ⟨args', m', hargs, -⟩ := code_aggregate hkind h
            exact ⟨n, args', m', hargs⟩
        | none =>
            obtain ⟨f, args', type, -, -, hargs, -⟩ := (code_call hkind).1 h
            exact ⟨n, args', m, hargs⟩
      simp only [classifyIn]
      exact (stopsAt_allIndependent args hargs).map _
  | .member e source, layout, n, m, c, h => by
      obtain ⟨d, e', hd, he, -⟩ := code_member.1 h
      simp only [classifyIn, hd]
      exact (stopsAt_classifyIn e he).map _
  | .isNull e, layout, n, m, c, h => by
      obtain ⟨e', he, -⟩ := code_isNull.1 h
      simp only [classifyIn]
      exact (stopsAt_classifyIn e he).map _
  | .slotEmpty stream, layout, n, m, c, _ => rfl

theorem stopsAt_allIndependent : ∀ (es : List Expr) {layout : Layout} {n m : Nat} {cs : List Code},
    codes context es layout n = .ok (cs, m) →
      StopsAt (Expr.allSlotTests es) (allIndependent context capability slot es layout)
  | [], layout, n, m, cs, _ => .ok _
  | e :: es, layout, n, m, cs, h => by
      obtain ⟨c, cs', k, hc, hcs, -⟩ := codes_cons.1 h
      simp only [allIndependent]
      exact (stopsAt_classifyIn e hc).bind fun first => (stopsAt_allIndependent es hcs).map _

end

end Classification

namespace Capability

variable {c : Capability} {h : Holder}

/-- Every attribute that has an index is defined. -/
def IndexesDefined (c : Capability) : Prop :=
  ∀ name, c.isIndexed name = true → ∃ position, c.definition.position name = some position

theorem IndexesDefined.deny (hc : c.IndexesDefined) (denied : List (String × Comparison)) :
    (c.deny denied).IndexesDefined := hc

end Capability

theorem Holder.Consistent.indexesDefined {h : Holder} (hs : h.Consistent) :
    h.capability.IndexesDefined := by
  intro name hindexed
  rcases Bool.or_eq_true_iff.1 hindexed with hprimary | hindex
  · obtain ⟨position, hkey⟩ := isPrimaryKey_iff.1 hprimary
    exact ⟨position, hs.keyAt name position hkey⟩
  · obtain ⟨i, hi⟩ := Option.isSome_iff_exists.1 hindex
    obtain ⟨hmem, rfl⟩ := index?_eq_some hi
    exact ⟨i.position, hs.indexAt i hmem⟩

namespace Classified

open Allot Plan

variable {context : Context} {capability : Capability} {info : MatchLayout} {e : Expr}
  {cl l r inner : Classified}

/-! ### Plans -/

/-- A classified operand: its expression compiles, and an index that it names is there. -/
structure IsOperand (context : Context) (capability : Capability) (info : MatchLayout)
    (cl : Classified) : Prop where
  compiles : Succeeds (Compile.code context cl.expr info.layout)
  found : ∀ e name, cl = .named e name →
    ∃ position, capability.definition.position name = some position

/-- A classified condition has a plan, as an outermost node and as an inner one. -/
structure HasPlan (context : Context) (capability : Capability) (info : MatchLayout)
    (cl : Classified) : Prop where
  accepted : Succeeds (condition context info cl.expr)
  builds : ∀ isFirst, Succeeds (build context capability info cl isFirst)

theorem succeeds_verifierFor (he : Succeeds (condition context info e)) (isFirst : Bool) :
    Succeeds (verifierFor context info isFirst e) := by
  cases isFirst with
  | false => exact succeeds_pure none
  | true => exact he.bind fun c => succeeds_pure (some c)

theorem succeeds_condition {n m : Nat} {c : Code}
    (h : Compile.condition context e info.layout n = .ok (c, m)) :
    Succeeds (condition context info e) :=
  (Compile.succeeds_condition h).mapError LookupError.eval

theorem succeeds_lookup {name : String} {position : Nat} (op : Comparison) (value : Code)
    (hposition : capability.definition.position name = some position) :
    Succeeds (Plan.lookup capability name op value) :=
  fun n => ⟨_, n, lookup_eq_ok.2 ⟨_, hposition, rfl, rfl⟩⟩

theorem hasPlan_independent (he : Succeeds (condition context info e)) :
    HasPlan context capability info (.independent e) :=
  ⟨he, fun _ => he.bind fun _ => succeeds_pure _⟩

theorem hasPlan_exhaustive (he : Succeeds (condition context info e)) :
    HasPlan context capability info (.exhaustive e) :=
  ⟨he, fun isFirst => (succeeds_verifierFor he isFirst).bind fun _ => succeeds_pure _⟩

theorem hasPlan_whole (he : Succeeds (condition context info e)) (isIndependent : Bool) :
    HasPlan context capability info (whole e isIndependent) := by
  cases isIndependent with
  | false => exact hasPlan_exhaustive he
  | true => exact hasPlan_independent he

theorem hasPlan_named {name : String} {position : Nat} (he : Succeeds (condition context info e))
    (hposition : capability.definition.position name = some position) :
    HasPlan context capability info (.named e name) := by
  refine ⟨he, fun isFirst => ?_⟩
  unfold build
  split
  · exact succeeds_lookup _ _ hposition
  · exact he.bind fun _ => succeeds_pure _

theorem HasPlan.conjunction (he : Succeeds (condition context info e))
    (hl : HasPlan context capability info l) (hr : HasPlan context capability info r) :
    HasPlan context capability info (conjunction e l r) := by
  by_cases hindependent : l.scope = .independent ∧ r.scope = .independent
  · rw [Classified.conjunction, hindependent.1, hindependent.2]
    exact hasPlan_independent he
  by_cases hexhaustive : l.scope = .exhaustive ∧ r.scope = .exhaustive
  · rw [Classified.conjunction, hexhaustive.1, hexhaustive.2]
    exact hasPlan_exhaustive he
  have hand : Classified.conjunction e l r = .and e l r := by
    unfold Classified.conjunction
    split
    · exact absurd ⟨‹_›, ‹_›⟩ hindependent
    · exact absurd ⟨‹_›, ‹_›⟩ hexhaustive
    · rfl
  rw [hand]
  refine ⟨he, fun isFirst => ?_⟩
  have hverifier := succeeds_verifierFor he isFirst
  unfold build
  split
  · exact hl.accepted.bind fun _ => (hr.builds isFirst).bind fun _ => succeeds_pure _
  split
  · exact hr.accepted.bind fun _ => (hl.builds isFirst).bind fun _ => succeeds_pure _
  split
  · exact (hl.builds false).bind fun _ => (hr.builds false).bind fun _ =>
      hverifier.bind fun _ => succeeds_pure _
  split
  · exact (hl.builds false).bind fun _ => hverifier.bind fun _ => succeeds_pure _
  split
  · exact (hr.builds false).bind fun _ => hverifier.bind fun _ => succeeds_pure _
  · -- Sides that are neither independent nor indexable both need a scan.
    rename_i hli hri _ hl' hr'
    refine absurd ⟨?_, ?_⟩ hexhaustive
    · cases hscope : l.scope <;> simp_all [Scope.isIndexable]
    · cases hscope : r.scope <;> simp_all [Scope.isIndexable]

theorem HasPlan.disjunction (he : Succeeds (condition context info e))
    (hl : HasPlan context capability info l) (hr : HasPlan context capability info r) :
    HasPlan context capability info (disjunction e l r) := by
  unfold Classified.disjunction
  split
  · exact hasPlan_independent he
  · exact hasPlan_exhaustive he
  · exact hasPlan_exhaustive he
  · exact ⟨he, fun isFirst => (hl.builds isFirst).bind fun _ => (hr.builds isFirst).bind fun _ =>
      (succeeds_verifierFor he isFirst).bind fun _ => succeeds_pure _⟩

theorem HasPlan.negation (he : Succeeds (condition context info e))
    (hinner : HasPlan context capability info inner) :
    HasPlan context capability info (negation e inner) := by
  unfold Classified.negation
  split
  · exact hasPlan_independent he
  · exact hasPlan_exhaustive he
  · exact ⟨he, fun isFirst => (hinner.builds isFirst).bind fun _ =>
      (succeeds_verifierFor he isFirst).bind fun _ => succeeds_pure _⟩

/-- The value of a lookup is one of the operands, and its attribute has an index. -/
theorem lookupOf_operand {op op' : Comparison} {name : String} {value : Expr}
    (hl : IsOperand context capability info l) (hr : IsOperand context capability info r)
    (h : lookupOf op l r = some (name, op', value)) :
    Succeeds (Compile.code context value info.layout) ∧
      ∃ position, capability.definition.position name = some position := by
  unfold lookupOf at h
  split at h
  · split at h
    · cases h
      exact ⟨hr.compiles, hl.found _ _ rfl⟩
    · cases h
  · split at h
    · cases h
      exact ⟨hl.compiles, hr.found _ _ rfl⟩
    · cases h
  · cases h

theorem IsOperand.comparison {op : Comparison} (he : Succeeds (condition context info e))
    (hl : IsOperand context capability info l) (hr : IsOperand context capability info r) :
    HasPlan context capability info (comparison capability e op l r) := by
  unfold Classified.comparison
  split
  · exact hasPlan_independent he
  split
  · rename_i name op' value hlookup
    obtain ⟨hvalue, position, hposition⟩ := lookupOf_operand hl hr hlookup
    split
    · exact ⟨he, fun _ => (hvalue.mapError _).bind fun _ => succeeds_lookup _ _ hposition⟩
    · exact hasPlan_exhaustive he
  · exact hasPlan_exhaustive he

theorem hasPlan_nullTest (he : Succeeds (condition context info e)) (inner : Classified) :
    HasPlan context capability info (nullTest capability e inner) := by
  unfold Classified.nullTest
  split
  · exact hasPlan_independent he
  · split
    · exact ⟨he, fun _ => succeeds_pure _⟩
    · exact hasPlan_exhaustive he
  · exact hasPlan_exhaustive he

/-! ### Nodes -/

/-- A node classifies an expression, and an attribute that it names has an index. -/
structure IsNode (capability : Capability) (e : Expr) (cl : Classified) : Prop where
  expr : cl.expr = e
  indexed : ∀ e' name, cl = .named e' name → capability.isIndexed name = true

theorem Combined.isNode {cl : Classified} (h : Combined e cl) : IsNode capability e cl :=
  ⟨h.expr_eq, fun e' name heq => absurd heq (h.ne_named e' name)⟩

theorem isNode_of_classifyIn {slot : Nat} {layout : Layout}
    (h : classifyIn context capability slot e layout = .ok cl) : IsNode capability e cl := by
  cases e with
  | const v =>
      cases h
      exact (combined_whole true).isNode
  | var v =>
      simp only [classifyIn] at h
      split at h
      · cases h
      split at h
      · cases h
        exact (combined_whole true).isNode
      split at h
      · rename_i hindexed
        cases h
        refine ⟨rfl, fun e' name heq => ?_⟩
        cases heq
        exact hindexed
      · cases h
        exact (combined_whole false).isNode
  | and l r =>
      obtain ⟨left, -, right, -, rfl⟩ := classifyIn_and.1 h
      exact combined_conjunction.isNode
  | or l r =>
      obtain ⟨left, -, right, -, rfl⟩ := classifyIn_or.1 h
      exact combined_disjunction.isNode
  | not e =>
      obtain ⟨inner, -, rfl⟩ := classifyIn_not.1 h
      exact combined_negation.isNode
  | compare op l r =>
      obtain ⟨left, -, right, -, rfl⟩ := classifyIn_compare.1 h
      exact combined_comparison.isNode
  | arith op l r =>
      obtain ⟨left, -, right, -, rfl⟩ := classifyIn_arith.1 h
      exact (combined_whole _).isNode
  | call space name args =>
      obtain ⟨independent, -, rfl⟩ := classifyIn_call.1 h
      exact (combined_whole _).isNode
  | member e source =>
      obtain ⟨d, inner, -, -, rfl⟩ := classifyIn_member.1 h
      exact (combined_whole _).isNode
  | isNull e =>
      obtain ⟨inner, -, rfl⟩ := classifyIn_isNull.1 h
      exact combined_nullTest.isNode
  | slotEmpty stream => cases h

/-- What compiles and is classified can be the operand of a lookup. -/
theorem isOperand_of_classifyIn (hc : capability.IndexesDefined) {n m : Nat} {c : Code}
    (hcode : Compile.code context e info.layout n = .ok (c, m))
    (h : classifyIn context capability info.storeSlot e info.layout = .ok cl) :
    IsOperand context capability info cl := by
  have hnode := isNode_of_classifyIn h
  exact ⟨hnode.expr ▸ Compile.succeeds_code hcode,
    fun e name heq => hc name (hnode.indexed e name heq)⟩

/-- Every classification of a condition has a plan. -/
theorem hasPlan_of_classifyIn (hc : capability.IndexesDefined) :
    ∀ (e : Expr) {n m : Nat} {c : Code} {cl : Classified},
      Compile.condition context e info.layout n = .ok (c, m) →
      classifyIn context capability info.storeSlot e info.layout = .ok cl →
      HasPlan context capability info cl
  | .and l r, n, m, c, cl, hcondition, hcl => by
      have haccepted := succeeds_condition hcondition
      obtain ⟨l', r', k, hl, hr, hlt, hrt, -⟩ :=
        Compile.code_and.1 (Compile.condition_eq_ok.1 hcondition).1
      obtain ⟨left, hleft, right, hright, rfl⟩ := classifyIn_and.1 hcl
      exact .conjunction haccepted
        (hasPlan_of_classifyIn hc l (Compile.condition_eq_ok.2 ⟨hl, hlt⟩) hleft)
        (hasPlan_of_classifyIn hc r (Compile.condition_eq_ok.2 ⟨hr, hrt⟩) hright)
  | .or l r, n, m, c, cl, hcondition, hcl => by
      have haccepted := succeeds_condition hcondition
      obtain ⟨l', r', k, hl, hr, hlt, hrt, -⟩ :=
        Compile.code_or.1 (Compile.condition_eq_ok.1 hcondition).1
      obtain ⟨left, hleft, right, hright, rfl⟩ := classifyIn_or.1 hcl
      exact .disjunction haccepted
        (hasPlan_of_classifyIn hc l (Compile.condition_eq_ok.2 ⟨hl, hlt⟩) hleft)
        (hasPlan_of_classifyIn hc r (Compile.condition_eq_ok.2 ⟨hr, hrt⟩) hright)
  | .not e, n, m, c, cl, hcondition, hcl => by
      have haccepted := succeeds_condition hcondition
      obtain ⟨e', he, ht, -⟩ := Compile.code_not.1 (Compile.condition_eq_ok.1 hcondition).1
      obtain ⟨inner, hinner, rfl⟩ := classifyIn_not.1 hcl
      exact .negation haccepted
        (hasPlan_of_classifyIn hc e (Compile.condition_eq_ok.2 ⟨he, ht⟩) hinner)
  | .compare op l r, n, m, c, cl, hcondition, hcl => by
      have haccepted := succeeds_condition hcondition
      obtain ⟨l', r', k, hl, hr, -⟩ :=
        Compile.code_compare.1 (Compile.condition_eq_ok.1 hcondition).1
      obtain ⟨left, hleft, right, hright, rfl⟩ := classifyIn_compare.1 hcl
      exact (isOperand_of_classifyIn hc hl hleft).comparison haccepted
        (isOperand_of_classifyIn hc hr hright)
  | .isNull e, n, m, c, cl, hcondition, hcl => by
      have haccepted := succeeds_condition hcondition
      obtain ⟨inner, -, rfl⟩ := classifyIn_isNull.1 hcl
      exact hasPlan_nullTest haccepted inner
  | .var v, n, m, c, cl, hcondition, hcl => by
      have haccepted := succeeds_condition hcondition
      obtain ⟨b, hb, -⟩ := Compile.code_var.1 (Compile.condition_eq_ok.1 hcondition).1
      simp only [classifyIn, hb] at hcl
      split at hcl
      · cases hcl
        exact hasPlan_independent haccepted
      split at hcl
      · rename_i hindexed
        obtain ⟨position, hposition⟩ := hc _ hindexed
        cases hcl
        exact hasPlan_named haccepted hposition
      · cases hcl
        exact hasPlan_exhaustive haccepted
  | .const v, n, m, c, cl, hcondition, hcl => by
      cases hcl
      exact hasPlan_independent (succeeds_condition hcondition)
  | .arith op l r, n, m, c, cl, hcondition, hcl => by
      obtain ⟨left, -, right, -, rfl⟩ := classifyIn_arith.1 hcl
      exact hasPlan_whole (succeeds_condition hcondition) _
  | .call space name args, n, m, c, cl, hcondition, hcl => by
      obtain ⟨independent, -, rfl⟩ := classifyIn_call.1 hcl
      exact hasPlan_whole (succeeds_condition hcondition) _
  | .member e source, n, m, c, cl, hcondition, hcl => by
      obtain ⟨d, inner, -, -, rfl⟩ := classifyIn_member.1 hcl
      exact hasPlan_whole (succeeds_condition hcondition) _
  | .slotEmpty stream, n, m, c, cl, _, hcl => by cases hcl

end Classified

namespace Plan

variable {s : Search} {p : Plan} {m m' : Memory} {x : LookupError}

/-- A verified plan fails only where an evaluation does. -/
theorem eval_of_find (hp : p.isVerified = true) (h : p.find s m = (.error x, m')) :
    ∃ cause, x = .eval cause := by
  rcases hrun : p.findCandidates s m with ⟨cause | found, m₁⟩
  · rw [find, Run.bind_of_error (Run.mapError_of_error _ hrun)] at h
    cases h
    exact ⟨cause, rfl⟩
  · obtain ⟨events, rfl⟩ := exact_of_findCandidates hp hrun
    rw [find, Run.bind_of_ok (Run.mapError_of_ok _ hrun)] at h
    cases h

/-- What is computed from the events that a verified plan finds fails only where an evaluation
does. -/
theorem eval_of_map_find {α : Type} (f : EventSet → α) (hp : p.isVerified = true)
    (h : (do return f (← p.find s) : Run LookupError α) m = (.error x, m')) :
    ∃ cause, x = .eval cause := by
  rcases hfind : p.find s m with ⟨y | events, m₁⟩
  · rw [Run.bind_of_error hfind] at h
    cases h
    exact eval_of_find hp hfind
  · rw [Run.bind_of_ok hfind] at h
    cases h

end Plan

namespace Operator

open Allot

/-- An operator answers searches of an indexed store by a plan that lists candidates exactly, and it
fails only where an evaluation does. -/
structure AnswersExactly (o : Operator) (h : Holder) : Prop where
  candidates : ∃ p, o.strategy = .plan p ∧ ∀ rows matching m found m',
    p.findCandidates ⟨rows, h, o.storeSlot, matching⟩ m = (.ok found, m') →
      ∃ events, found = .exact events
  find : ∀ seen rows matching m x m',
    o.find rows matching (.indexed h seen) m = (.error x, m') → ∃ cause, x = .eval cause
  contains : ∀ seen rows matching m x m',
    o.contains rows matching (.indexed h seen) m = (.error x, m') → ∃ cause, x = .eval cause
  delete : ∀ seen rows matching m x left m',
    o.delete rows matching (.indexed h seen) m = ((.error x, left), m') → ∃ cause, x = .eval cause

theorem answersExactly_plan {p : Plan} (hp : p.isVerified = true) (storeSlot : Nat) (h : Holder) :
    AnswersExactly ⟨.plan p, storeSlot⟩ h where
  candidates := ⟨p, rfl, fun _ _ _ _ _ hrun => Plan.exact_of_findCandidates hp hrun⟩
  find _ _ _ _ _ _ hrun := Plan.eval_of_find hp hrun
  contains _ rows matching m x m' hrun := by
    replace hrun : p.contains ⟨rows, h, storeSlot, matching⟩ m = (.error x, m') := hrun
    rw [Plan.contains_eq hp] at hrun
    exact Plan.eval_of_map_find _ hp hrun
  delete seen rows matching m x left m' hrun := by
    have hstrategy : (Operator.mk (.plan p) storeSlot).strategy = .plan p := rfl
    rcases hdelete : p.delete ⟨rows, h, storeSlot, matching⟩ m with ⟨y | ⟨removed, rest⟩, m₁⟩
    · rw [delete_plan_error hstrategy hdelete] at hrun
      cases hrun
      rw [Plan.delete_eq] at hdelete
      exact Plan.eval_of_map_find _ hp hdelete
    · rw [delete_plan_ok hstrategy hdelete] at hrun
      cases hrun

variable {d : Definition} {primaryKey : Option String} {indexes : List String} {h : Holder}

/-- An indexed store has an operator just for the conditions that compile and test no slot for an
event, whatever functions are registered and whatever comparisons its indexes support. A condition
that tests one is refused for the first such test. The operators answer searches of any store
exactly. -/
theorem compile_indexed_iff (hreachable : Holder.Reachable d primaryKey indexes h)
    (denied : List (String × Comparison)) (context : Context) (info : MatchLayout) (e : Expr) :
    ((∃ index, (compile context info e
          (.indexed h (h.capability.deny denied))).finish = .ok index) ↔
        (∃ c, (Compile.condition context e info.layout).finish = .ok c) ∧ e.slotTests = []) ∧
      (∀ c, (Compile.condition context e info.layout).finish = .ok c →
        ∀ stream others, e.slotTests = stream :: others →
          (compile context info e (.indexed h (h.capability.deny denied))).finish =
            .error (.slotTest stream)) ∧
      ∀ index, (compile context info e
          (.indexed h (h.capability.deny denied))).finish = .ok index →
        ∀ h' : Holder, index.code.AnswersExactly h' := by
  have hdefined := hreachable.consistent.indexesDefined.deny denied
  generalize h.capability.deny denied = capability at *
  -- A condition that compiles is classified, or its first slot test is refused.
  have hstops {c : Code} {m : Nat}
      (hc : Compile.condition context e info.layout 0 = .ok (c, m)) :
      StopsAt e.slotTests (classify context capability info e) :=
    stopsAt_classifyIn e (Compile.condition_eq_ok.1 hc).1
  refine ⟨⟨?_, ?_⟩, ?_, ?_⟩
  · rintro ⟨index, hindex⟩
    obtain ⟨o, _, ho, rfl⟩ := finish_eq_ok.1 hindex
    obtain ⟨c, cl, p, k, hc, hcl, -, rfl⟩ := compile_indexed ho
    refine ⟨⟨⟨c, .fresh k⟩, finish_eq_ok.2 ⟨c, k, hc, rfl⟩⟩, ?_⟩
    have hfirst := hstops hc
    cases htests : e.slotTests with
    | nil => rfl
    | cons stream others =>
        rw [htests, hcl] at hfirst
        cases hfirst
  · rintro ⟨⟨_, hcondition⟩, htests⟩
    obtain ⟨c, m, hc, rfl⟩ := finish_eq_ok.1 hcondition
    have hclassified := hstops hc
    rw [htests] at hclassified
    obtain ⟨cl, hcl⟩ := hclassified
    obtain ⟨p, k, hp⟩ := (Classified.hasPlan_of_classifyIn hdefined e hc hcl).builds true m
    refine ⟨⟨⟨.plan p, info.storeSlot⟩, .fresh k⟩, finish_eq_ok.2 ⟨_, k, ?_, rfl⟩⟩
    exact bind_eq_ok.2 ⟨c, m, mapError_eq_ok.2 hc,
      bind_eq_ok.2 ⟨cl, m, lift_eq_ok.2 ⟨hcl, rfl⟩, bind_eq_ok.2 ⟨p, k, hp, rfl⟩⟩⟩
  · intro _ hcondition stream others htests
    obtain ⟨c, m, hc, rfl⟩ := finish_eq_ok.1 hcondition
    have hrefused := hstops hc
    rw [htests] at hrefused
    have hlift : (liftM (classify context capability info e) : Allot LookupError Classified) m =
        .error (.slotTest stream) := by
      rw [hrefused]
      rfl
    refine finish_of_error ?_
    unfold compile
    exact (bind_of_ok (mapError_eq_ok.2 hc)).trans (bind_of_error hlift)
  · intro index hindex h'
    obtain ⟨o, _, ho, rfl⟩ := finish_eq_ok.1 hindex
    obtain ⟨_, _, p, _, -, -, hp, rfl⟩ := compile_indexed ho
    exact answersExactly_plan (Plan.isVerified_of_build hp) info.storeSlot h'

namespace Quotes

/-- A registered function: a price doubled. -/
def twice : Function where
  name := "price:twice"
  arity := .exactly 1
  resultType _ := .ok .int
  apply
    | [.int price] => .ok (.int (price + price))
    | _ => .error (.invalidArgument "price:twice" (.custom "not a price"))

def registered : Context := ⟨Function.register Function.standard twice, []⟩

/-- The condition `(y == 0 or t.price > x / y) and t.price > price:twice(x)`. -/
def dear : Expr :=
  .and guarded
    (.compare .greater (.var ⟨"price", some "t"⟩) (.call (some "price") "twice" [.named "x"]))

def dearCode : Code :=
  .and code (.compare .greater (.read 1 1 .int) (.call twice [.read 0 0 .int] .int))

theorem condition_dear :
    (Compile.condition registered dear layout.layout).finish = .ok ⟨dearCode, .fresh 0⟩ := rfl

end Quotes

/-- Quotes are looked up by their price, and by what a registered function makes of the order, also
where the index refuses that comparison, but not by a condition that tests whether there is a
quote. -/
theorem compile_indexed_iff_quotes :
    (∃ index, (compile Quotes.registered Quotes.layout Quotes.dear
        (.indexed Quotes.store
          (Quotes.store.capability.deny [("price", .greater)]))).finish = .ok index ∧
      index.code.AnswersExactly Quotes.store) ∧
    (compile Quotes.registered Quotes.layout (.and Quotes.dear (.not (.slotEmpty "t")))
      (.indexed Quotes.store (Quotes.store.capability.deny [("price", .greater)]))).finish =
        .error (.slotTest "t") := by
  obtain ⟨haccepts, -, hanswers⟩ := compile_indexed_iff Quotes.reachable_store
    [("price", .greater)] Quotes.registered Quotes.layout Quotes.dear
  obtain ⟨-, hrefuses, -⟩ := compile_indexed_iff Quotes.reachable_store [("price", .greater)]
    Quotes.registered Quotes.layout (.and Quotes.dear (.not (.slotEmpty "t")))
  obtain ⟨index, hindex⟩ := haccepts.2 ⟨⟨_, Quotes.condition_dear⟩, rfl⟩
  exact ⟨⟨index, hindex, hanswers index hindex Quotes.store⟩,
    hrefuses ⟨.and Quotes.dearCode (.not (.slotEmpty 1)), .fresh 0⟩ rfl "t" [] rfl⟩

end Operator

end EventQuery
