import EventQuery.Proofs.Eval.Turning
import EventQuery.Proofs.Lookup.Soundness

/-!
Lookups by conditions whose comparisons are turned round. Such a condition is classified like the
original one, node for node, so its plan has the same parts; code that can be exchanged in the parts
finds the same events.
-/

namespace EventQuery

namespace Classified

/-! ### Classifications of one form -/

/-- Two classified conditions of one form: the same nodes with the same attributes and operators,
over related expressions. -/
inductive Alike (R : Expr → Expr → Prop) : Classified → Classified → Prop
  | independent {e e' : Expr} (he : R e e') : Alike R (.independent e) (.independent e')
  | exhaustive {e e' : Expr} (he : R e e') : Alike R (.exhaustive e) (.exhaustive e')
  | named {e e' : Expr} (he : R e e') (name : String) : Alike R (.named e name) (.named e' name)
  | compare {e e' value value' : Expr} (he : R e e') (name : String) (op : Comparison)
      (hvalue : R value value') : Alike R (.compare e name op value) (.compare e' name op value')
  | isNull {e e' : Expr} (he : R e e') (name : String) : Alike R (.isNull e name) (.isNull e' name)
  | and {e e' : Expr} {l l' r r' : Classified} (he : R e e') (left : Alike R l l')
      (right : Alike R r r') : Alike R (.and e l r) (.and e' l' r')
  | or {e e' : Expr} {l l' r r' : Classified} (he : R e e') (left : Alike R l l')
      (right : Alike R r r') : Alike R (.or e l r) (.or e' l' r')
  | not {e e' : Expr} {inner inner' : Classified} (he : R e e') (operand : Alike R inner inner') :
      Alike R (.not e inner) (.not e' inner')

namespace Alike

variable {R S : Expr → Expr → Prop} {a a' l l' r r' inner inner' : Classified} {e e' : Expr}
  {capability : Capability}

theorem mono (hRS : ∀ e e', R e e' → S e e') (h : Alike R a a') : Alike S a a' := by
  induction h with
  | independent he => exact .independent (hRS _ _ he)
  | exhaustive he => exact .exhaustive (hRS _ _ he)
  | named he name => exact .named (hRS _ _ he) name
  | compare he name op hvalue => exact .compare (hRS _ _ he) name op (hRS _ _ hvalue)
  | isNull he name => exact .isNull (hRS _ _ he) name
  | and he _ _ ihl ihr => exact .and (hRS _ _ he) ihl ihr
  | or he _ _ ihl ihr => exact .or (hRS _ _ he) ihl ihr
  | not he _ ih => exact .not (hRS _ _ he) ih

theorem symm (h : Alike R a a') : Alike (fun e e' => R e' e) a' a := by
  induction h with
  | independent he => exact .independent he
  | exhaustive he => exact .exhaustive he
  | named he name => exact Alike.named (R := fun e e' => R e' e) he name
  | compare he name op hvalue =>
      exact Alike.compare (R := fun e e' => R e' e) he name op hvalue
  | isNull he name => exact Alike.isNull (R := fun e e' => R e' e) he name
  | and he _ _ ihl ihr => exact .and he ihl ihr
  | or he _ _ ihl ihr => exact .or he ihl ihr
  | not he _ ih => exact .not he ih

theorem expr (h : Alike R a a') : R a.expr a'.expr := by
  cases h <;> assumption

theorem scope_eq (h : Alike R a a') : a.scope = a'.scope := by
  induction h with
  | not _ _ ih => rw [scope, scope, ih]
  | _ => rfl

theorem whole (he : R e e') (isIndependent : Bool) :
    Alike R (.whole e isIndependent) (.whole e' isIndependent) := by
  cases isIndependent
  · exact .exhaustive he
  · exact .independent he

theorem conjunction (he : R e e') (hl : Alike R l l') (hr : Alike R r r') :
    Alike R (.conjunction e l r) (.conjunction e' l' r') := by
  unfold Classified.conjunction
  rw [← hl.scope_eq, ← hr.scope_eq]
  split
  · exact .independent he
  · exact .exhaustive he
  · exact .and he hl hr

theorem disjunction (he : R e e') (hl : Alike R l l') (hr : Alike R r r') :
    Alike R (.disjunction e l r) (.disjunction e' l' r') := by
  unfold Classified.disjunction
  rw [← hl.scope_eq, ← hr.scope_eq]
  split
  · exact .independent he
  · exact .exhaustive he
  · exact .exhaustive he
  · exact .or he hl hr

theorem negation (he : R e e') (h : Alike R inner inner') :
    Alike R (.negation e inner) (.negation e' inner') := by
  unfold Classified.negation
  rw [← h.scope_eq]
  split
  · exact .independent he
  · exact .exhaustive he
  · exact .not he h

theorem nullTest (he : R e e') (h : Alike R inner inner') :
    Alike R (.nullTest capability e inner) (.nullTest capability e' inner') := by
  cases h with
  | independent _ => exact .independent he
  | named _ name =>
      simp only [Classified.nullTest]
      split
      · exact .isNull he name
      · exact .exhaustive he
  | _ => exact .exhaustive he

end Alike

/-! ### Comparisons -/

variable {R : Expr → Expr → Prop} {l l' r r' : Classified} {e e' : Expr} {op op' : Comparison}
  {name : String} {value : Expr}

/-- A lookup has an indexed attribute on one side and an independent value on the other. -/
theorem lookupOf_eq_some_iff :
    lookupOf op l r = some (name, op', value) ↔
      (∃ e, l = .named e name ∧ r.scope = .independent ∧ op' = op ∧ value = r.expr) ∨
        ∃ e, r = .named e name ∧ l.scope = .independent ∧ op' = op.converse ∧ value = l.expr := by
  unfold lookupOf
  split <;> grind [scope]

/-- The operator of a lookup does not depend on the side that its attribute is written on. -/
theorem lookupOf_converse : lookupOf op.converse r l = lookupOf op l r := by
  refine Option.ext fun ⟨name, op', value⟩ => ?_
  rw [lookupOf_eq_some_iff, lookupOf_eq_some_iff, Comparison.converse_converse]
  exact or_comm

theorem comparison_converse (capability : Capability) (e : Expr) (op : Comparison)
    (l r : Classified) :
    comparison capability e op.converse r l = comparison capability e op l r := by
  rw [comparison, comparison, lookupOf_converse, Bool.and_comm]

theorem Alike.lookupOf (hl : Alike R l l') (hr : Alike R r r')
    (h : lookupOf op l r = some (name, op', value)) :
    ∃ value', lookupOf op l' r' = some (name, op', value') ∧ R value value' := by
  obtain ⟨e, rfl, hscope, rfl, rfl⟩ | ⟨e, rfl, hscope, rfl, rfl⟩ := lookupOf_eq_some_iff.1 h
  · cases hl with
    | named _ _ => exact ⟨r'.expr,
        lookupOf_eq_some_iff.2 (.inl ⟨_, rfl, hr.scope_eq ▸ hscope, rfl, rfl⟩), hr.expr⟩
  · cases hr with
    | named _ _ => exact ⟨l'.expr,
        lookupOf_eq_some_iff.2 (.inr ⟨_, rfl, hl.scope_eq ▸ hscope, rfl, rfl⟩), hl.expr⟩

theorem Alike.lookupOf_none (hl : Alike R l l') (hr : Alike R r r')
    (h : Classified.lookupOf op l r = none) : Classified.lookupOf op l' r' = none := by
  refine Option.eq_none_iff_forall_not_mem.2 fun ⟨name, op', value⟩ hlookup => ?_
  obtain ⟨value', hback, -⟩ := hl.symm.lookupOf hr.symm hlookup
  rw [h] at hback
  cases hback

theorem Alike.comparison {capability : Capability} (he : R e e') (hl : Alike R l l')
    (hr : Alike R r r') :
    Alike R (.comparison capability e op l r) (.comparison capability e' op l' r') := by
  unfold Classified.comparison
  rw [← hl.scope_eq, ← hr.scope_eq]
  split
  · exact .independent he
  cases hlookup : Classified.lookupOf op l r with
  | none =>
      rw [hl.lookupOf_none hr hlookup]
      exact .exhaustive he
  | some found =>
      obtain ⟨name, op', value⟩ := found
      obtain ⟨value', hlookup', hvalue⟩ := hl.lookupOf hr hlookup
      rw [hlookup']
      dsimp only
      split
      · exact .compare he name op' hvalue
      · exact .exhaustive he

end Classified

/-! ### Conditions -/

/-- A condition without aggregates, and the same condition with some comparisons turned round. -/
def Expr.TurnedFree (e e' : Expr) : Prop := e.Turned e' ∧ e.isAggregateFree = true

section Classification

open Classified

variable {context : Context} {capability : Capability} {slot : Nat}

mutual

/-- A turned condition is classified where the condition is, in the same form. -/
theorem alike_of_classifyIn (context : Context) (capability : Capability) (slot : Nat) :
    ∀ (e : Expr) {e' : Expr} {layout : Layout} {cl : Classified}, e.isAggregateFree = true →
      e.Turned e' → classifyIn context capability slot e layout = .ok cl →
      ∃ cl', classifyIn context capability slot e' layout = .ok cl' ∧
        cl.Alike Expr.TurnedFree cl'
  | .const v, _, layout, cl, hfree, .const _, hcl => by
      cases hcl
      exact ⟨_, rfl, .independent ⟨.const v, hfree⟩⟩
  | .var v, _, layout, cl, hfree, .var _, hcl => by
      refine ⟨cl, hcl, ?_⟩
      have hv : (Expr.var v).TurnedFree (.var v) := ⟨.var v, hfree⟩
      simp only [classifyIn] at hcl
      split at hcl
      · cases hcl
      split at hcl
      · cases hcl
        exact .independent hv
      split at hcl
      · cases hcl
        exact .named hv _
      · cases hcl
        exact .exhaustive hv
  | .and l r, _, layout, cl, hfree, .and hl hr, hcl => by
      have he : (Expr.and l r).TurnedFree _ := ⟨.and hl hr, hfree⟩
      simp only [Expr.isAggregateFree, Bool.and_eq_true] at hfree
      obtain ⟨left, hleft, right, hright, rfl⟩ := classifyIn_and.1 hcl
      obtain ⟨left', hleft', hl'⟩ := alike_of_classifyIn context capability slot l hfree.1 hl hleft
      obtain ⟨right', hright', hr'⟩ :=
        alike_of_classifyIn context capability slot r hfree.2 hr hright
      exact ⟨_, classifyIn_and.2 ⟨left', hleft', right', hright', rfl⟩, .conjunction he hl' hr'⟩
  | .or l r, _, layout, cl, hfree, .or hl hr, hcl => by
      have he : (Expr.or l r).TurnedFree _ := ⟨.or hl hr, hfree⟩
      simp only [Expr.isAggregateFree, Bool.and_eq_true] at hfree
      obtain ⟨left, hleft, right, hright, rfl⟩ := classifyIn_or.1 hcl
      obtain ⟨left', hleft', hl'⟩ := alike_of_classifyIn context capability slot l hfree.1 hl hleft
      obtain ⟨right', hright', hr'⟩ :=
        alike_of_classifyIn context capability slot r hfree.2 hr hright
      exact ⟨_, classifyIn_or.2 ⟨left', hleft', right', hright', rfl⟩, .disjunction he hl' hr'⟩
  | .not e, _, layout, cl, hfree, .not h, hcl => by
      obtain ⟨inner, hinner, rfl⟩ := classifyIn_not.1 hcl
      obtain ⟨inner', hinner', h'⟩ := alike_of_classifyIn context capability slot e hfree h hinner
      exact ⟨_, classifyIn_not.2 ⟨inner', hinner', rfl⟩, .negation ⟨.not h, hfree⟩ h'⟩
  | .compare op l r, _, layout, cl, hfree, .compare _ hl hr, hcl => by
      have he : (Expr.compare op l r).TurnedFree _ := ⟨.compare op hl hr, hfree⟩
      simp only [Expr.isAggregateFree, Bool.and_eq_true] at hfree
      obtain ⟨left, hleft, right, hright, rfl⟩ := classifyIn_compare.1 hcl
      obtain ⟨left', hleft', hl'⟩ := alike_of_classifyIn context capability slot l hfree.1 hl hleft
      obtain ⟨right', hright', hr'⟩ :=
        alike_of_classifyIn context capability slot r hfree.2 hr hright
      exact ⟨_, classifyIn_compare.2 ⟨left', hleft', right', hright', rfl⟩,
        .comparison he hl' hr'⟩
  | .compare op l r, _, layout, cl, hfree, .turn _ hl hr, hcl => by
      have he : (Expr.compare op l r).TurnedFree _ := ⟨.turn op hl hr, hfree⟩
      simp only [Expr.isAggregateFree, Bool.and_eq_true] at hfree
      obtain ⟨left, hleft, right, hright, rfl⟩ := classifyIn_compare.1 hcl
      obtain ⟨left', hleft', hl'⟩ := alike_of_classifyIn context capability slot l hfree.1 hl hleft
      obtain ⟨right', hright', hr'⟩ :=
        alike_of_classifyIn context capability slot r hfree.2 hr hright
      refine ⟨_, classifyIn_compare.2 ⟨right', hright', left', hleft', rfl⟩, ?_⟩
      rw [comparison_converse]
      exact .comparison he hl' hr'
  | .arith op l r, _, layout, cl, hfree, .arith _ hl hr, hcl => by
      have he : (Expr.arith op l r).TurnedFree _ := ⟨.arith op hl hr, hfree⟩
      simp only [Expr.isAggregateFree, Bool.and_eq_true] at hfree
      obtain ⟨left, hleft, right, hright, rfl⟩ := classifyIn_arith.1 hcl
      obtain ⟨left', hleft', hl'⟩ := alike_of_classifyIn context capability slot l hfree.1 hl hleft
      obtain ⟨right', hright', hr'⟩ :=
        alike_of_classifyIn context capability slot r hfree.2 hr hright
      refine ⟨_, classifyIn_arith.2 ⟨left', hleft', right', hright', rfl⟩, ?_⟩
      rw [hl'.scope_eq, hr'.scope_eq]
      exact .whole he _
  | .call space name es, _, layout, cl, hfree, .call _ _ hargs, hcl => by
      have he : (Expr.call space name es).TurnedFree _ := ⟨.call space name hargs, hfree⟩
      simp only [Expr.isAggregateFree, Bool.and_eq_true] at hfree
      obtain ⟨independent, hindependent, rfl⟩ := classifyIn_call.1 hcl
      have hsame := allIndependent_turned context capability slot es hfree.2 hargs hindependent
      exact ⟨_, classifyIn_call.2 ⟨independent, hsame, rfl⟩, .whole he independent⟩
  | .member e source, _, layout, cl, hfree, .member h _, hcl => by
      obtain ⟨d, inner, hd, hinner, rfl⟩ := classifyIn_member.1 hcl
      obtain ⟨inner', hinner', h'⟩ := alike_of_classifyIn context capability slot e hfree h hinner
      refine ⟨_, classifyIn_member.2 ⟨d, inner', hd, hinner', rfl⟩, ?_⟩
      rw [h'.scope_eq]
      exact .whole ⟨.member h source, hfree⟩ _
  | .isNull e, _, layout, cl, hfree, .isNull h, hcl => by
      obtain ⟨inner, hinner, rfl⟩ := classifyIn_isNull.1 hcl
      obtain ⟨inner', hinner', h'⟩ := alike_of_classifyIn context capability slot e hfree h hinner
      exact ⟨_, classifyIn_isNull.2 ⟨inner', hinner', rfl⟩, .nullTest ⟨.isNull h, hfree⟩ h'⟩
  | .slotEmpty stream, _, layout, cl, _, .slotEmpty _, hcl => by cases hcl

theorem allIndependent_turned (context : Context) (capability : Capability) (slot : Nat) :
    ∀ (es : List Expr) {es' : List Expr} {layout : Layout} {b : Bool},
      Expr.allAggregateFree es = true → Expr.AllTurned es es' →
      allIndependent context capability slot es layout = .ok b →
      allIndependent context capability slot es' layout = .ok b
  | [], _, layout, b, _, .nil, hb => hb
  | e :: es, _, layout, b, hfree, .cons h hs, hb => by
      simp only [Expr.allAggregateFree, Bool.and_eq_true] at hfree
      obtain ⟨first, hfirst, rest, hrest, rfl⟩ := allIndependent_cons.1 hb
      obtain ⟨first', hfirst', h'⟩ := alike_of_classifyIn context capability slot e hfree.1 h hfirst
      have hrest' := allIndependent_turned context capability slot es hfree.2 hs hrest
      exact allIndependent_cons.2 ⟨first', hfirst', rest, hrest', by rw [h'.scope_eq]⟩

end

end Classification

/-! ### Plans -/

namespace Allot

variable {ε ε' α α' β β' : Type} {R : α → α' → Prop} {S : β → β' → Prop} {x : Allot ε α}
  {x' : Allot ε α'}

/-- Where the first compilation succeeds, the second one has a related result and allots no cell. -/
def Follows (R : α → α' → Prop) (x : Allot ε α) (x' : Allot ε α') : Prop :=
  ∀ n a m, x n = .ok (a, m) → ∃ a', Constant x' a' ∧ R a a'

namespace Follows

theorem pure {a : α} {a' : α'} (h : R a a') :
    Follows R (Pure.pure a : Allot ε α) (Pure.pure a') := by
  intro n b m hb
  obtain ⟨rfl, -⟩ := pure_eq_ok.1 hb
  exact ⟨a', constant_pure a', h⟩

theorem bind {k : α → Allot ε β} {k' : α' → Allot ε β'} (hx : Follows R x x')
    (hk : ∀ a a', R a a' → Follows S (k a) (k' a')) : Follows S (x >>= k) (x' >>= k') := by
  intro n b m hb
  obtain ⟨a, m', ha, hb⟩ := bind_eq_ok.1 hb
  obtain ⟨a', ha', haa'⟩ := hx n a m' ha
  obtain ⟨b', hb', hbb'⟩ := hk a a' haa' m' b m hb
  exact ⟨b', fun j => bind_eq_ok.2 ⟨a', j, ha' j, hb' j⟩, hbb'⟩

theorem mapError (hx : Follows R x x') (g : ε → ε') : Follows R (x.mapError g) (x'.mapError g) := by
  intro n a m ha
  obtain ⟨a', ha', haa'⟩ := hx n a m (mapError_eq_ok.1 ha)
  exact ⟨a', fun j => mapError_eq_ok.2 (ha' j), haa'⟩

theorem lift {r : Except ε α} {r' : Except ε α'}
    (h : ∀ a, r = .ok a → ∃ a', r' = .ok a' ∧ R a a') :
    Follows R (liftM r : Allot ε α) (liftM r' : Allot ε α') := by
  intro n a m ha
  obtain ⟨a', ha', haa'⟩ := h a (lift_eq_ok.1 ha).1
  exact ⟨a', fun j => lift_eq_ok.2 ⟨ha', rfl⟩, haa'⟩

/-- Two compilations that follow each other both fail, or both have a result and allot no cell. -/
theorem cases {x' : Allot ε α'} (h : Follows R x x') {Q : α' → α → Prop} (hback : Follows Q x' x) :
    ((∃ e, x.finish = .error e) ∧ ∃ e, x'.finish = .error e) ∨
      ∃ a a', x.finish = .ok ⟨a, .fresh 0⟩ ∧ x'.finish = .ok ⟨a', .fresh 0⟩ ∧ R a a' := by
  cases hx : x 0 with
  | ok result =>
      obtain ⟨a, m⟩ := result
      obtain ⟨a', ha', haa'⟩ := h 0 a m hx
      obtain ⟨b, hb, -⟩ := hback 0 a' 0 (ha' 0)
      obtain ⟨rfl, rfl⟩ := hb.unique hx
      exact .inr ⟨a, a', finish_eq_ok.2 ⟨a, 0, hx, rfl⟩, finish_eq_ok.2 ⟨a', 0, ha' 0, rfl⟩, haa'⟩
  | error e =>
      refine .inl ⟨⟨e, finish_of_error hx⟩, ?_⟩
      cases hx' : x' 0 with
      | ok result =>
          obtain ⟨b, hb, -⟩ := hback 0 result.1 result.2 hx'
          rw [hb 0] at hx
          cases hx
      | error e' => exact ⟨e', finish_of_error hx'⟩

theorem throw (e : ε) : Follows R (MonadExcept.throw e : Allot ε α) x' :=
  fun _ _ _ h => (throw_eq_ok.1 h).elim

end Follows

end Allot

namespace Plan

open Allot Compile

/-- Two plans of one form over code that can be exchanged. -/
inductive Alike : Plan → Plan → Prop
  | compare (name : String) (op : Comparison) (position : Nat) {v v' : Code}
      (hv : v.Interchangeable v') :
      Alike (.compare name op position v) (.compare name op position v')
  | isNull (name : String) : Alike (.isNull name) (.isNull name)
  | gate {c c' : Code} (hc : c.Interchangeable c') : Alike (.gate c) (.gate c')
  | gated {c c' : Code} {p p' : Plan} (hc : c.Interchangeable c') (inner : Alike p p') :
      Alike (.gated c p) (.gated c' p')
  | both {l l' r r' : Plan} {v v' : Option Code} (left : Alike l l') (right : Alike r r')
      (hv : Option.Rel Code.Interchangeable v v') : Alike (.both l r v) (.both l' r' v')
  | narrowed {p p' : Plan} {v v' : Option Code} (indexed : Alike p p')
      (hv : Option.Rel Code.Interchangeable v v') : Alike (.narrowed p v) (.narrowed p' v')
  | either {l l' r r' : Plan} {v v' : Option Code} (left : Alike l l') (right : Alike r r')
      (hv : Option.Rel Code.Interchangeable v v') : Alike (.either l r v) (.either l' r' v')
  | complement {p p' : Plan} {v v' : Option Code} (inner : Alike p p')
      (hv : Option.Rel Code.Interchangeable v v') : Alike (.complement p v) (.complement p' v')
  | scan {v v' : Option Code} (hv : Option.Rel Code.Interchangeable v v') :
      Alike (.scan v) (.scan v')

section Build

variable {context : Context} {capability : Capability} {info : MatchLayout} {e e' : Expr}

theorem follows_code (he : e.TurnedFree e') :
    Follows Code.Interchangeable (code context e info.layout) (code context e' info.layout) :=
  fun _ _ _ hc => interchangeable_of_code context e he.2 he.1 hc

theorem follows_condition (he : e.TurnedFree e') :
    Follows Code.Interchangeable (condition context info e) (condition context info e') := by
  refine Follows.mapError (fun n c m hc => ?_) _
  obtain ⟨hcode, htype⟩ := condition_eq_ok.1 hc
  obtain ⟨c', hc', hcc'⟩ := interchangeable_of_code context e he.2 he.1 hcode
  exact ⟨c', fun j => condition_eq_ok.2 ⟨hc' j, hcc'.type_eq ▸ htype⟩, hcc'⟩

theorem follows_verifierFor (he : e.TurnedFree e') (isFirst : Bool) :
    Follows (Option.Rel Code.Interchangeable) (verifierFor context info isFirst e)
      (verifierFor context info isFirst e') := by
  cases isFirst with
  | false => exact .pure .none
  | true => exact (follows_condition he).bind fun _ _ hc => .pure (.some hc)

theorem follows_lookup (name : String) (op : Comparison) {v v' : Code}
    (hv : v.Interchangeable v') :
    Follows Alike (lookup capability name op v) (lookup capability name op v') := by
  unfold lookup
  cases capability.definition.position name with
  | none => exact .throw _
  | some position => exact .pure (.compare name op position hv)

/-- Classifications of one form have plans of one form. -/
theorem follows_build {cl cl' : Classified} (h : cl.Alike Expr.TurnedFree cl') :
    ∀ isFirst, Follows Alike (build context capability info cl isFirst)
      (build context capability info cl' isFirst) := by
  induction h with
  | independent he =>
      intro isFirst
      exact (follows_condition he).bind fun _ _ hc => .pure (.gate hc)
  | exhaustive he =>
      intro isFirst
      exact (follows_verifierFor he isFirst).bind fun _ _ hv => .pure (.scan hv)
  | named he name =>
      intro isFirst
      simp only [build]
      split
      · exact follows_lookup name _ (.of_isStateless rfl)
      · exact (follows_condition he).bind fun _ _ hc => .pure (.scan (.some hc))
  | compare he name op hvalue =>
      intro isFirst
      exact ((follows_code hvalue).mapError _).bind fun _ _ hv => follows_lookup name op hv
  | isNull he name =>
      intro isFirst
      exact .pure (.isNull name)
  | and he left right ihl ihr =>
      intro isFirst
      simp only [build, ← left.scope_eq, ← right.scope_eq]
      split
      · exact (follows_condition left.expr).bind fun _ _ hgate =>
          (ihr isFirst).bind fun _ _ hinner => .pure (.gated hgate hinner)
      split
      · exact (follows_condition right.expr).bind fun _ _ hgate =>
          (ihl isFirst).bind fun _ _ hinner => .pure (.gated hgate hinner)
      split
      · exact (ihl false).bind fun _ _ hl => (ihr false).bind fun _ _ hr =>
          (follows_verifierFor he isFirst).bind fun _ _ hv => .pure (.both hl hr hv)
      split
      · exact (ihl false).bind fun _ _ hl =>
          (follows_verifierFor he isFirst).bind fun _ _ hv => .pure (.narrowed hl hv)
      split
      · exact (ihr false).bind fun _ _ hr =>
          (follows_verifierFor he isFirst).bind fun _ _ hv => .pure (.narrowed hr hv)
      · exact .throw _
  | or he _ _ ihl ihr =>
      intro isFirst
      exact (ihl isFirst).bind fun _ _ hl => (ihr isFirst).bind fun _ _ hr =>
        (follows_verifierFor he isFirst).bind fun _ _ hv => .pure (.either hl hr hv)
  | not he _ ih =>
      intro isFirst
      exact (ih isFirst).bind fun _ _ hinner =>
        (follows_verifierFor he isFirst).bind fun _ _ hv => .pure (.complement hinner hv)

end Build

section Search

variable {s : Search} {p p' : Plan}

theorem verify_alike {v v' : Option Code} (hv : Option.Rel Code.Interchangeable v v')
    (candidates : CandidateSet) : (s.verify candidates v).Alike (s.verify candidates v') := by
  cases hv with
  | none => cases candidates <;> exact .ok _
  | some hcc' =>
      have hfilter (events : EventSet) := Run.Alike.filterM
        (fun e : StoredEvent => hcc'.test_alike s.rows (s.candidate e)) events
      cases candidates with
      | all => exact (hfilter _).map _
      | exact events => exact .ok _
      | superset events => exact (hfilter _).map _

/-- Plans of one form find the same candidates, or both fail. -/
theorem findCandidates_alike (h : p.Alike p') :
    (p.findCandidates s).Alike (p'.findCandidates s) := by
  induction h with
  | compare name op position hv =>
      refine (hv.run_alike s.rows s.matching).bind fun probe => ?_
      split
      · exact .ok _
      · split <;> exact .ok _
  | isNull name => exact .ok _
  | gate hc =>
      refine (hc.test_alike s.rows s.matching).bind fun opened => ?_
      cases opened <;> exact .ok _
  | gated hc _ ih =>
      refine (hc.test_alike s.rows s.matching).bind fun opened => ?_
      cases opened
      · exact .ok _
      · exact ih
  | both _ _ hv ihl ihr =>
      refine ihl.bind fun left => ?_
      split
      · exact verify_alike hv left
      · exact ihr.bind fun right => verify_alike hv _
  | narrowed _ hv ih =>
      refine ih.bind fun candidates => ?_
      split
      · exact .ok _
      · exact verify_alike hv _
  | either _ _ hv ihl ihr => exact ihl.bind fun left => ihr.bind fun right => verify_alike hv _
  | complement _ hv ih => exact ih.bind fun candidates => verify_alike hv _
  | scan hv => exact verify_alike hv _

theorem find_alike (h : p.Alike p') : (p.find s).Alike (p'.find s) := by
  refine ((findCandidates_alike h).mapError _).bind fun candidates => ?_
  cases candidates with
  | exact events => exact .ok _
  | all => exact .error _ _
  | superset events => exact .error _ _

end Search

end Plan

/-! ### Operators -/

/-- Two ways to search of one form over code that can be exchanged. -/
inductive Strategy.Alike : Strategy → Strategy → Prop
  | plan {p p' : Plan} (hp : p.Alike p') : Strategy.Alike (.plan p) (.plan p')
  | scan (kind : ContainerKind) {c c' : Code} (hc : c.Interchangeable c') :
      Strategy.Alike (.scan kind c) (.scan kind c')

namespace Operator

open Allot

/-- Two operators that search alike for candidates of one slot. -/
structure Alike (o o' : Operator) : Prop where
  strategy : o.strategy.Alike o'.strategy
  storeSlot : o.storeSlot = o'.storeSlot

theorem find_alike {o o' : Operator} (h : o.Alike o') (rows : SourceRows) (matching : Frame)
    (searched : Container) :
    (o.find rows matching searched).Alike (o'.find rows matching searched) := by
  obtain ⟨strategy, slot⟩ := o
  obtain ⟨strategy', slot'⟩ := o'
  obtain ⟨hstrategy, rfl : slot = slot'⟩ := h
  cases hstrategy with
  | plan hp =>
      cases searched with
      | indexed holder capability => exact Plan.find_alike hp
      | _ => exact .error _ _
  | scan kind hc =>
      unfold find
      dsimp only
      split
      · exact .filterM (fun e => (hc.test_alike _ _).mapError _) _
      · exact .error _ _

variable {context : Context} {info : MatchLayout} {e e' : Expr}

theorem follows_compile (he : e.TurnedFree e') (container : Container) :
    Follows Alike (compile context info e container) (compile context info e' container) := by
  have hclassify (capability : Capability) :
      Follows (Classified.Alike Expr.TurnedFree)
        (liftM (classify context capability info e) : Allot LookupError Classified)
        (liftM (classify context capability info e') : Allot LookupError Classified) :=
    .lift fun _ hcl => alike_of_classifyIn context capability info.storeSlot e he.2 he.1 hcl
  have hcondition : Follows Code.Interchangeable (Plan.condition context info e)
      (Plan.condition context info e') := Plan.follows_condition he
  cases container with
  | indexed holder capability =>
      exact hcondition.bind fun _ _ _ => (hclassify capability).bind fun _ _ hcl =>
        (Plan.follows_build hcl true).bind fun _ _ hp => .pure ⟨.plan hp, rfl⟩
  | chunk events => exact hcondition.bind fun _ _ hc => .pure ⟨.scan .chunk hc, rfl⟩
  | map entries => exact hcondition.bind fun _ _ hc => .pure ⟨.scan .map hc, rfl⟩
  | collection events => exact hcondition.bind fun _ _ hc => .pure ⟨.scan .collection hc, rfl⟩
  | other name => exact .throw _

/-- Turning comparisons round changes nothing about a condition: it is classified in the same form
against every store and has an operator for the same containers, and its operator finds the same
events in every container, or both searches fail. -/
theorem find_turned (context : Context) (info : MatchLayout) (hfree : e.isAggregateFree = true)
    (hturned : e.Turned e') :
    (∀ capability : Capability,
      ((∃ x, classify context capability info e = .error x) ∧
          ∃ x, classify context capability info e' = .error x) ∨
        ∃ cl cl', classify context capability info e = .ok cl ∧
          classify context capability info e' = .ok cl' ∧ cl.scope = cl'.scope ∧
          cl.Alike Expr.Turned cl') ∧
      ∀ container : Container,
        ((∃ x, (compile context info e container).finish = .error x) ∧
            ∃ x, (compile context info e' container).finish = .error x) ∨
          ∃ o o', (compile context info e container).finish = .ok ⟨o, .fresh 0⟩ ∧
            (compile context info e' container).finish = .ok ⟨o', .fresh 0⟩ ∧
            ∀ (rows : SourceRows) (matching : Frame) (searched : Container) (m m' : Memory)
              (found : List StoredEvent),
              (o.find rows matching searched m).1 = .ok found ↔
                (o'.find rows matching searched m').1 = .ok found := by
  have he : e.TurnedFree e' := ⟨hturned, hfree⟩
  have he' : e'.TurnedFree e := ⟨hturned.symm, hturned.isAggregateFree_eq ▸ hfree⟩
  constructor
  · intro capability
    cases hcl : classify context capability info e with
    | ok cl =>
        obtain ⟨cl', hcl', halike⟩ :=
          alike_of_classifyIn context capability info.storeSlot e hfree hturned hcl
        exact .inr ⟨cl, cl', rfl, hcl', halike.scope_eq, halike.mono fun _ _ h => h.1⟩
    | error x =>
        refine .inl ⟨⟨x, rfl⟩, ?_⟩
        cases hcl' : classify context capability info e' with
        | ok cl' =>
            obtain ⟨cl, hback, -⟩ :=
              alike_of_classifyIn context capability info.storeSlot e' he'.2 he'.1 hcl'
            cases hcl.symm.trans hback
        | error x' => exact ⟨x', rfl⟩
  · intro container
    refine ((follows_compile he container).cases (follows_compile he' container)).imp_right ?_
    rintro ⟨o, o', ho, ho', halike⟩
    refine ⟨o, o', ho, ho', fun rows matching searched m m' found => ?_⟩
    exact (find_alike halike rows matching searched).fst_eq_ok_iff m m' found

/-- Orders find the same quotes when the price is compared from the other side. -/
theorem find_turned_quotes :
    ∃ turned, Quotes.guarded.Turned turned ∧ turned =
        .or (.compare .equal (.named "y") (.const (.int 0)))
          (.compare .less (.arith .divide (.named "x") (.named "y")) (.var ⟨"price", some "t"⟩)) ∧
      ∃ o o',
        (compile .standard Quotes.layout Quotes.guarded
            (.indexed Quotes.store Quotes.store.capability)).finish = .ok ⟨o, .fresh 0⟩ ∧
          (compile .standard Quotes.layout turned
            (.indexed Quotes.store Quotes.store.capability)).finish = .ok ⟨o', .fresh 0⟩ ∧
          (o'.find (fun _ => []) (Quotes.order 9 3)
            (.indexed Quotes.store Quotes.store.capability) (.fresh 0)).1 =
              .ok (Quotes.store.events.take 1) := by
  have hturned : Quotes.guarded.Turned _ :=
    .or (.compare .equal (.var _) (.const _))
      (.turn .greater (.var _) (.arith .divide (.var _) (.var _)))
  refine ⟨_, hturned, rfl, ?_⟩
  obtain ⟨-, hfind⟩ := find_turned .standard Quotes.layout rfl hturned
  obtain ⟨⟨x, hx⟩, -⟩ | ⟨o, o', ho, ho', hsame⟩ :=
    hfind (.indexed Quotes.store Quotes.store.capability)
  · cases Quotes.compile_lookup.symm.trans hx
  · refine ⟨o, o', ho, ho', (hsame _ _ _ (.fresh 0) _ _).1 ?_⟩
    cases Quotes.compile_lookup.symm.trans ho
    decide +kernel

end Operator

end EventQuery
