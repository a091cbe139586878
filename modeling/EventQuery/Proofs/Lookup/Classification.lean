import EventQuery.Lookup.Scope
import EventQuery.Proofs.Eval.Compile
import EventQuery.Proofs.Eval.Independence

/-!
What a classification says about compiled code. `Describes` relates a classified condition to the
code of the same condition: parts that are independent of the store ignore its slot, and the parts
that an index answers have the form of a lookup, possibly with its sides exchanged.
`describes_of_classify` shows that every classification of a condition without aggregates describes
its code.
-/

namespace EventQuery

open Compile

namespace Classified

variable {e : Expr} {l r inner : Classified} {capability : Capability}

/-! ### Nodes that do not depend on the store -/

attribute [local simp] scope

theorem eq_independent_of_scope {cl : Classified} (h : cl.scope = .independent) :
    cl = .independent cl.expr := by
  cases cl
  case independent => rfl
  case not e inner =>
    simp only [scope] at h
    split at h <;> cases h
  all_goals cases h

theorem scope_conjunction_iff :
    (conjunction e l r).scope = .independent ↔ l.scope = .independent ∧ r.scope = .independent := by
  unfold conjunction
  cases l.scope <;> cases r.scope <;> simp

theorem scope_disjunction_iff :
    (disjunction e l r).scope = .independent ↔ l.scope = .independent ∧ r.scope = .independent := by
  unfold disjunction
  cases l.scope <;> cases r.scope <;> simp

theorem scope_negation_iff :
    (negation e inner).scope = .independent ↔ inner.scope = .independent := by
  unfold negation
  cases hscope : inner.scope <;> simp [hscope]

theorem scope_comparison_iff {op : Comparison} :
    (comparison capability e op l r).scope = .independent ↔
      l.scope = .independent ∧ r.scope = .independent := by
  unfold comparison
  split
  · rename_i hboth
    simpa using hboth
  · rename_i hnot
    rw [Bool.and_eq_true, decide_eq_true_eq, decide_eq_true_eq] at hnot
    refine iff_of_false (fun h => ?_) hnot
    split at h
    · split at h <;> cases h
    · cases h

theorem scope_nullTest_iff :
    (nullTest capability e inner).scope = .independent ↔ inner.scope = .independent := by
  unfold nullTest
  split
  · simp
  · split <;> simp
  · rename_i hnot _
    exact iff_of_false (by simp) fun h => hnot _ (eq_independent_of_scope h)

theorem scope_whole_iff {b : Bool} : (whole e b).scope = .independent ↔ b = true := by
  cases b <;> simp [whole]

/-! ### The nodes that a combination makes -/

/-- A node for a whole expression that is not an attribute. -/
structure Combined (e : Expr) (a : Classified) : Prop where
  expr_eq : a.expr = e
  ne_named : ∀ e' name, a ≠ .named e' name

theorem combined_whole (b : Bool) : Combined e (whole e b) := by
  cases b <;> exact ⟨rfl, nofun⟩

theorem combined_conjunction : Combined e (conjunction e l r) := by
  unfold conjunction
  split <;> exact ⟨rfl, nofun⟩

theorem combined_disjunction : Combined e (disjunction e l r) := by
  unfold disjunction
  split <;> exact ⟨rfl, nofun⟩

theorem combined_negation : Combined e (negation e inner) := by
  unfold negation
  split <;> exact ⟨rfl, nofun⟩

theorem combined_comparison {op : Comparison} : Combined e (comparison capability e op l r) := by
  unfold comparison
  repeat' split
  all_goals exact ⟨rfl, nofun⟩

theorem combined_nullTest : Combined e (nullTest capability e inner) := by
  unfold nullTest
  repeat' split
  all_goals exact ⟨rfl, nofun⟩

end Classified

section Inversion

/-! ### What a classification is made of -/

attribute [local simp] classifyIn allIndependent

variable {context : Context} {capability : Capability} {slot : Nat} {layout : Layout}
  {cl : Classified} {l r e : Expr}

theorem classifyIn_and :
    classifyIn context capability slot (.and l r) layout = .ok cl ↔
      ∃ left, classifyIn context capability slot l layout = .ok left ∧
        ∃ right, classifyIn context capability slot r layout = .ok right ∧
          .conjunction (.and l r) left right = cl := by
  simp [Run.bind_eq_ok, pure, Except.pure]

theorem classifyIn_or :
    classifyIn context capability slot (.or l r) layout = .ok cl ↔
      ∃ left, classifyIn context capability slot l layout = .ok left ∧
        ∃ right, classifyIn context capability slot r layout = .ok right ∧
          .disjunction (.or l r) left right = cl := by
  simp [Run.bind_eq_ok, pure, Except.pure]

theorem classifyIn_not :
    classifyIn context capability slot (.not e) layout = .ok cl ↔
      ∃ inner, classifyIn context capability slot e layout = .ok inner ∧
        .negation (.not e) inner = cl := by
  simp [Run.bind_eq_ok, pure, Except.pure]

theorem classifyIn_compare {op : Comparison} :
    classifyIn context capability slot (.compare op l r) layout = .ok cl ↔
      ∃ left, classifyIn context capability slot l layout = .ok left ∧
        ∃ right, classifyIn context capability slot r layout = .ok right ∧
          .comparison capability (.compare op l r) op left right = cl := by
  simp [Run.bind_eq_ok, pure, Except.pure]

theorem classifyIn_arith {op : Arithmetic} :
    classifyIn context capability slot (.arith op l r) layout = .ok cl ↔
      ∃ left, classifyIn context capability slot l layout = .ok left ∧
        ∃ right, classifyIn context capability slot r layout = .ok right ∧
          .whole (.arith op l r) (left.scope = .independent && right.scope = .independent) =
            cl := by
  simp [Run.bind_eq_ok, pure, Except.pure]

theorem classifyIn_call {space : Option String} {name : String} {args : List Expr} :
    classifyIn context capability slot (.call space name args) layout = .ok cl ↔
      ∃ independent, allIndependent context capability slot args layout = .ok independent ∧
        .whole (.call space name args) independent = cl := by
  simp [Run.bind_eq_ok, pure, Except.pure]

theorem classifyIn_member {source : String} :
    classifyIn context capability slot (.member e source) layout = .ok cl ↔
      ∃ d inner, context.source? source = some d ∧
        classifyIn context capability slot e (layout.extend d source) = .ok inner ∧
          .whole (.member e source) (inner.scope = .independent) = cl := by
  simp only [classifyIn]
  cases context.source? source <;> simp [Run.bind_eq_ok, pure, Except.pure]

theorem classifyIn_isNull :
    classifyIn context capability slot (.isNull e) layout = .ok cl ↔
      ∃ inner, classifyIn context capability slot e layout = .ok inner ∧
        .nullTest capability (.isNull e) inner = cl := by
  simp [Run.bind_eq_ok, pure, Except.pure]

theorem allIndependent_cons {es : List Expr} {b : Bool} :
    allIndependent context capability slot (e :: es) layout = .ok b ↔
      ∃ first, classifyIn context capability slot e layout = .ok first ∧
        ∃ rest, allIndependent context capability slot es layout = .ok rest ∧
          (first.scope = .independent && rest) = b := by
  simp [Run.bind_eq_ok, pure, Except.pure]

end Inversion

section Independence

variable {context : Context} {capability : Capability} {slot : Nat}

open Classified

mutual

/-- The conditions classified as independent of the store are those whose code ignores the slot of
the store. -/
theorem ignores_iff_independent :
    ∀ (e : Expr) {layout : Layout} {n m : Nat} {c : Code} {cl : Classified},
      e.isAggregateFree = true →
      code context e layout n = .ok (c, m) → classifyIn context capability slot e layout = .ok cl →
      (c.ignores slot = true ↔ cl.scope = .independent)
  | .const v, layout, n, m, c, cl, _, hc, hcl => by
      obtain ⟨rfl, -⟩ := Allot.pure_eq_ok.1 hc
      cases hcl
      exact iff_of_true rfl rfl
  | .var v, layout, n, m, c, cl, _, hc, hcl => by
      obtain ⟨b, hb, rfl, -⟩ := code_var.1 hc
      simp only [classifyIn, hb] at hcl
      split at hcl
      · rename_i hslot
        cases hcl
        simp [Code.ignores, hslot, scope]
      · rename_i hslot
        split at hcl <;> cases hcl <;> simpa [Code.ignores, scope] using hslot
  | .and l r, layout, n, m, c, cl, hfree, hc, hcl => by
      simp only [Expr.isAggregateFree, Bool.and_eq_true] at hfree
      obtain ⟨l', r', k, hl, hr, -, -, rfl⟩ := code_and.1 hc
      obtain ⟨left, hleft, right, hright, rfl⟩ := classifyIn_and.1 hcl
      rw [Code.ignores, Bool.and_eq_true, scope_conjunction_iff,
        ignores_iff_independent l hfree.1 hl hleft,
        ignores_iff_independent r hfree.2 hr hright]
  | .or l r, layout, n, m, c, cl, hfree, hc, hcl => by
      simp only [Expr.isAggregateFree, Bool.and_eq_true] at hfree
      obtain ⟨l', r', k, hl, hr, -, -, rfl⟩ := code_or.1 hc
      obtain ⟨left, hleft, right, hright, rfl⟩ := classifyIn_or.1 hcl
      rw [Code.ignores, Bool.and_eq_true, scope_disjunction_iff,
        ignores_iff_independent l hfree.1 hl hleft,
        ignores_iff_independent r hfree.2 hr hright]
  | .not e, layout, n, m, c, cl, hfree, hc, hcl => by
      obtain ⟨e', he, -, rfl⟩ := code_not.1 hc
      obtain ⟨inner, hinner, rfl⟩ := classifyIn_not.1 hcl
      rw [Code.ignores, scope_negation_iff, ignores_iff_independent e hfree he hinner]
  | .compare op l r, layout, n, m, c, cl, hfree, hc, hcl => by
      simp only [Expr.isAggregateFree, Bool.and_eq_true] at hfree
      obtain ⟨l', r', k, hl, hr, -, rfl⟩ := code_compare.1 hc
      obtain ⟨left, hleft, right, hright, rfl⟩ := classifyIn_compare.1 hcl
      rw [Code.ignores, Bool.and_eq_true, scope_comparison_iff,
        ignores_iff_independent l hfree.1 hl hleft,
        ignores_iff_independent r hfree.2 hr hright]
  | .arith op l r, layout, n, m, c, cl, hfree, hc, hcl => by
      simp only [Expr.isAggregateFree, Bool.and_eq_true] at hfree
      obtain ⟨l', r', k, type, hl, hr, -, rfl⟩ := code_arith.1 hc
      obtain ⟨left, hleft, right, hright, rfl⟩ := classifyIn_arith.1 hcl
      rw [Code.ignores, Bool.and_eq_true, scope_whole_iff, Bool.and_eq_true, decide_eq_true_eq,
        decide_eq_true_eq,
        ignores_iff_independent l hfree.1 hl hleft, ignores_iff_independent r hfree.2 hr hright]
  | .call space name args, layout, n, m, c, cl, hfree, hc, hcl => by
      simp only [Expr.isAggregateFree, Bool.and_eq_true, Option.isNone_iff_eq_none] at hfree
      obtain ⟨f, args', type, -, -, hargs, -, rfl⟩ := (code_call hfree.1).1 hc
      obtain ⟨independent, hindependent, rfl⟩ := classifyIn_call.1 hcl
      rw [Code.ignores, scope_whole_iff, allIgnore_iff_allIndependent args hfree.2 hargs
        hindependent]
  | .member e source, layout, n, m, c, cl, hfree, hc, hcl => by
      obtain ⟨d, e', hd, he, -, rfl⟩ := code_member.1 hc
      obtain ⟨d', inner, hd', hinner, rfl⟩ := classifyIn_member.1 hcl
      obtain rfl : d' = d := by simpa [hd] using hd'.symm
      rw [Code.ignores, scope_whole_iff, decide_eq_true_eq,
        ignores_iff_independent e hfree he hinner]
  | .isNull e, layout, n, m, c, cl, hfree, hc, hcl => by
      obtain ⟨e', he, rfl⟩ := code_isNull.1 hc
      obtain ⟨inner, hinner, rfl⟩ := classifyIn_isNull.1 hcl
      rw [Code.ignores, scope_nullTest_iff, ignores_iff_independent e hfree he hinner]
  | .slotEmpty stream, layout, n, m, c, cl, _, _, hcl => by cases hcl

theorem allIgnore_iff_allIndependent :
    ∀ (es : List Expr) {layout : Layout} {n m : Nat} {cs : List Code} {b : Bool},
      Expr.allAggregateFree es = true →
      codes context es layout n = .ok (cs, m) →
      allIndependent context capability slot es layout = .ok b →
      (Code.allIgnore slot cs = true ↔ b = true)
  | [], layout, n, m, cs, b, _, hcs, hindependent => by
      obtain ⟨rfl, -⟩ := Allot.pure_eq_ok.1 hcs
      cases hindependent
      rfl
  | e :: es, layout, n, m, cs, b, hfree, hcs, hindependent => by
      simp only [Expr.allAggregateFree, Bool.and_eq_true] at hfree
      obtain ⟨c, cs', k, hc, hcs', rfl⟩ := codes_cons.1 hcs
      obtain ⟨first, hfirst, rest, hrest, rfl⟩ := allIndependent_cons.1 hindependent
      rw [Code.allIgnore, Bool.and_eq_true, Bool.and_eq_true, decide_eq_true_eq,
        ignores_iff_independent e hfree.1 hc hfirst,
        allIgnore_iff_allIndependent es hfree.2 hcs' hrest]

end

end Independence

/-- A classified condition describes the code of the same condition. Only independent nodes ignore
the slot of the store. -/
inductive Describes (context : Context) (capability : Capability) (info : MatchLayout) :
    Classified → Code → Prop
  | independent {e : Expr} {c : Code} (compiles : Compiles context info.layout e c)
      (ignores : c.ignores info.storeSlot = true) :
      Describes context capability info (.independent e) c
  | exhaustive {e : Expr} {c : Code} (compiles : Compiles context info.layout e c)
      (reads : c.ignores info.storeSlot = false) :
      Describes context capability info (.exhaustive e) c
  | named {e : Expr} {name : String} {position : Nat} {type : AttributeType}
      (compiles : Compiles context info.layout e (.read info.storeSlot position type))
      (found : capability.definition.position name = some position) :
      Describes context capability info (.named e name) (.read info.storeSlot position type)
  | lookup {e value : Expr} {v : Code} {name : String} {op : Comparison} {position : Nat}
      {type : AttributeType}
      (compiles : Compiles context info.layout e
        (.compare op (.read info.storeSlot position type) v))
      (probe : Compiles context info.layout value v) (ignores : v.ignores info.storeSlot = true)
      (found : capability.definition.position name = some position) :
      Describes context capability info (.compare e name op value)
        (.compare op (.read info.storeSlot position type) v)
  | mirrored {e value : Expr} {v : Code} {name : String} {op : Comparison} {position : Nat}
      {type : AttributeType}
      (compiles : Compiles context info.layout e
        (.compare op v (.read info.storeSlot position type)))
      (probe : Compiles context info.layout value v) (ignores : v.ignores info.storeSlot = true)
      (found : capability.definition.position name = some position) :
      Describes context capability info (.compare e name op.converse value)
        (.compare op v (.read info.storeSlot position type))
  | isNull {e : Expr} {name : String} {position : Nat} {type : AttributeType}
      (compiles : Compiles context info.layout e (.isNull (.read info.storeSlot position type)))
      (found : capability.definition.position name = some position) :
      Describes context capability info (.isNull e name)
        (.isNull (.read info.storeSlot position type))
  | and {e : Expr} {l r : Classified} {l' r' : Code}
      (compiles : Compiles context info.layout e (.and l' r'))
      (reads : (Code.and l' r').ignores info.storeSlot = false)
      (left : Describes context capability info l l')
      (right : Describes context capability info r r') :
      Describes context capability info (.and e l r) (.and l' r')
  | or {e : Expr} {l r : Classified} {l' r' : Code}
      (compiles : Compiles context info.layout e (.or l' r'))
      (reads : (Code.or l' r').ignores info.storeSlot = false)
      (left : Describes context capability info l l')
      (right : Describes context capability info r r') :
      Describes context capability info (.or e l r) (.or l' r')
  | not {e : Expr} {inner : Classified} {c : Code}
      (compiles : Compiles context info.layout e (.not c))
      (reads : (Code.not c).ignores info.storeSlot = false)
      (operand : Describes context capability info inner c) :
      Describes context capability info (.not e inner) (.not c)

namespace Describes

variable {context : Context} {capability : Capability} {info : MatchLayout}
  {cl l r inner : Classified} {c l' r' : Code} {e : Expr}

theorem compiles (h : Describes context capability info cl c) :
    Compiles context info.layout cl.expr c := by
  cases h <;> assumption

/-- The scope of a node tells whether its code reads the stored event. -/
theorem ignores_iff (h : Describes context capability info cl c) :
    c.ignores info.storeSlot = true ↔ cl.scope = .independent := by
  cases h with
  | independent _ hignores => exact iff_of_true hignores rfl
  | not _ hreads _ =>
      refine iff_of_false (by simp [hreads]) fun hscope => ?_
      simpa using Classified.eq_independent_of_scope hscope
  | _ => simp_all [Code.ignores, Classified.scope]

/-! ### The combinations of classified conditions -/

theorem conjunction (hl : Describes context capability info l l')
    (hr : Describes context capability info r r')
    (he : Compiles context info.layout e (.and l' r')) :
    Describes context capability info (.conjunction e l r) (.and l' r') := by
  have hignores : (Code.and l' r').ignores info.storeSlot = true ↔
      l.scope = .independent ∧ r.scope = .independent := by
    rw [Code.ignores, Bool.and_eq_true, hl.ignores_iff, hr.ignores_iff]
  unfold Classified.conjunction
  split
  · exact .independent he (hignores.2 ⟨‹_›, ‹_›⟩)
  · exact .exhaustive he (by grind)
  · exact .and he (by grind) hl hr

theorem disjunction (hl : Describes context capability info l l')
    (hr : Describes context capability info r r')
    (he : Compiles context info.layout e (.or l' r')) :
    Describes context capability info (.disjunction e l r) (.or l' r') := by
  have hignores : (Code.or l' r').ignores info.storeSlot = true ↔
      l.scope = .independent ∧ r.scope = .independent := by
    rw [Code.ignores, Bool.and_eq_true, hl.ignores_iff, hr.ignores_iff]
  unfold Classified.disjunction
  split
  · exact .independent he (hignores.2 ⟨‹_›, ‹_›⟩)
  · exact .exhaustive he (by grind)
  · exact .exhaustive he (by grind)
  · exact .or he (by grind) hl hr

theorem negation (h : Describes context capability info inner c)
    (he : Compiles context info.layout e (.not c)) :
    Describes context capability info (.negation e inner) (.not c) := by
  have hignores : (Code.not c).ignores info.storeSlot = true ↔ inner.scope = .independent :=
    h.ignores_iff
  unfold Classified.negation
  split
  · exact .independent he (hignores.2 ‹_›)
  · exact .exhaustive he (by grind)
  · exact .not he (by grind) h

/-- An attribute on either side makes a lookup; on the right it turns the operator round. -/
theorem comparison {op : Comparison} (hl : Describes context capability info l l')
    (hr : Describes context capability info r r')
    (he : Compiles context info.layout e (.compare op l' r')) :
    Describes context capability info (.comparison capability e op l r) (.compare op l' r') := by
  have hignores : (Code.compare op l' r').ignores info.storeSlot = true ↔
      (l.scope = .independent && r.scope = .independent) = true := by
    rw [Code.ignores, Bool.and_eq_true, hl.ignores_iff, hr.ignores_iff, Bool.and_eq_true,
      decide_eq_true_eq, decide_eq_true_eq]
  unfold Classified.comparison
  split
  · exact .independent he (hignores.2 ‹_›)
  · rename_i hboth
    have hreads := Bool.eq_false_iff.2 fun h => hboth (hignores.1 h)
    split
    · rename_i hlookup
      split
      · unfold Classified.lookupOf at hlookup
        split at hlookup
        · -- The attribute is on the left.
          obtain ⟨hscope, heq⟩ := Option.ite_none_right_eq_some.1 hlookup
          cases heq
          cases hl with
          | named _ found => exact .lookup he hr.compiles (hr.ignores_iff.2 hscope) found
        · -- The attribute is on the right.
          obtain ⟨hscope, heq⟩ := Option.ite_none_right_eq_some.1 hlookup
          cases heq
          cases hr with
          | named _ found => exact .mirrored he hl.compiles (hl.ignores_iff.2 hscope) found
        · cases hlookup
      · exact .exhaustive he hreads
    · exact .exhaustive he hreads

theorem nullTest (h : Describes context capability info inner c)
    (he : Compiles context info.layout e (.isNull c)) :
    Describes context capability info (.nullTest capability e inner) (.isNull c) := by
  have hignores : (Code.isNull c).ignores info.storeSlot = true ↔ inner.scope = .independent :=
    h.ignores_iff
  unfold Classified.nullTest
  split
  · exact .independent he (hignores.2 rfl)
  · cases h with
    | named _ found =>
        split
        · exact .isNull he found
        · exact .exhaustive he (by simp [Code.ignores])
  · rename_i hnot _
    refine .exhaustive he (Bool.eq_false_iff.2 fun h => ?_)
    exact hnot _ (Classified.eq_independent_of_scope (hignores.1 h))

theorem whole {b : Bool}
    (hignores : c.ignores info.storeSlot = true ↔ (Classified.whole e b).scope = .independent)
    (he : Compiles context info.layout e c) :
    Describes context capability info (.whole e b) c := by
  rw [Classified.scope_whole_iff] at hignores
  cases b
  · exact .exhaustive he (by simpa using hignores)
  · exact .independent he (hignores.2 rfl)

end Describes

/-- The definition in the slot of the store is the one that the capability speaks of. -/
def MatchLayout.Carries (info : MatchLayout) (d : Definition) : Prop :=
  (info.layout.slots[info.storeSlot]?).map (·.definition) = some d

section Classification

variable {context : Context} {capability : Capability} {info : MatchLayout}

/-- Every classification of a condition without aggregates describes its code. -/
theorem describes_of_classify (hinfo : info.Carries capability.definition) :
    ∀ (e : Expr) {n m : Nat} {c : Code} {cl : Classified}, e.isAggregateFree = true →
      code context e info.layout n = .ok (c, m) → classify context capability info e = .ok cl →
      Describes context capability info cl c
  | .const v, n, m, c, cl, hfree, hc, hcl => by
      have hignores := ignores_iff_independent _ hfree hc hcl
      have hcompiles := compiles_of_code context _ hfree hc
      cases hcl
      exact .independent hcompiles (hignores.2 rfl)
  | .var v, n, m, c, cl, hfree, hc, hcl => by
      have hignores := ignores_iff_independent _ hfree hc hcl
      have hcompiles := compiles_of_code context _ hfree hc
      obtain ⟨b, hb, rfl, -⟩ := code_var.1 hc
      simp only [classify, classifyIn, hb] at hcl
      split at hcl
      · cases hcl
        exact .independent hcompiles (hignores.2 rfl)
      · rename_i hslot
        obtain ⟨s, hs, hposition, -⟩ := Layout.resolve_eq_ok hb
        replace hslot := Decidable.not_not.1 hslot
        rw [hslot] at hs hcompiles ⊢
        have hdefinition : s.definition = capability.definition := by
          simpa [MatchLayout.Carries, hs] using hinfo
        split at hcl
        · cases hcl
          exact .named hcompiles (hdefinition ▸ hposition)
        · cases hcl
          exact .exhaustive hcompiles (by simp [Code.ignores])
  | .and l r, n, m, c, cl, hfree, hc, hcl => by
      have hcompiles := compiles_of_code context _ hfree hc
      simp only [Expr.isAggregateFree, Bool.and_eq_true] at hfree
      obtain ⟨l', r', k, hl, hr, -, -, rfl⟩ := code_and.1 hc
      obtain ⟨left, hleft, right, hright, rfl⟩ := classifyIn_and.1 hcl
      exact (describes_of_classify hinfo l hfree.1 hl hleft).conjunction
        (describes_of_classify hinfo r hfree.2 hr hright) hcompiles
  | .or l r, n, m, c, cl, hfree, hc, hcl => by
      have hcompiles := compiles_of_code context _ hfree hc
      simp only [Expr.isAggregateFree, Bool.and_eq_true] at hfree
      obtain ⟨l', r', k, hl, hr, -, -, rfl⟩ := code_or.1 hc
      obtain ⟨left, hleft, right, hright, rfl⟩ := classifyIn_or.1 hcl
      exact (describes_of_classify hinfo l hfree.1 hl hleft).disjunction
        (describes_of_classify hinfo r hfree.2 hr hright) hcompiles
  | .not e, n, m, c, cl, hfree, hc, hcl => by
      have hcompiles := compiles_of_code context _ hfree hc
      obtain ⟨e', he, -, rfl⟩ := code_not.1 hc
      obtain ⟨inner, hinner, rfl⟩ := classifyIn_not.1 hcl
      exact (describes_of_classify hinfo e hfree he hinner).negation hcompiles
  | .compare op l r, n, m, c, cl, hfree, hc, hcl => by
      have hcompiles := compiles_of_code context _ hfree hc
      simp only [Expr.isAggregateFree, Bool.and_eq_true] at hfree
      obtain ⟨l', r', k, hl, hr, -, rfl⟩ := code_compare.1 hc
      obtain ⟨left, hleft, right, hright, rfl⟩ := classifyIn_compare.1 hcl
      exact (describes_of_classify hinfo l hfree.1 hl hleft).comparison
        (describes_of_classify hinfo r hfree.2 hr hright) hcompiles
  | .isNull e, n, m, c, cl, hfree, hc, hcl => by
      have hcompiles := compiles_of_code context _ hfree hc
      obtain ⟨e', he, rfl⟩ := code_isNull.1 hc
      obtain ⟨inner, hinner, rfl⟩ := classifyIn_isNull.1 hcl
      exact (describes_of_classify hinfo e hfree he hinner).nullTest hcompiles
  | .arith op l r, n, m, c, cl, hfree, hc, hcl => by
      have hignores := ignores_iff_independent _ hfree hc hcl
      obtain ⟨left, -, right, -, rfl⟩ := classifyIn_arith.1 hcl
      exact .whole hignores (compiles_of_code context _ hfree hc)
  | .call space name args, n, m, c, cl, hfree, hc, hcl => by
      have hignores := ignores_iff_independent _ hfree hc hcl
      obtain ⟨independent, -, rfl⟩ := classifyIn_call.1 hcl
      exact .whole hignores (compiles_of_code context _ hfree hc)
  | .member e source, n, m, c, cl, hfree, hc, hcl => by
      have hignores := ignores_iff_independent _ hfree hc hcl
      obtain ⟨d, inner, -, -, rfl⟩ := classifyIn_member.1 hcl
      exact .whole hignores (compiles_of_code context _ hfree hc)
  | .slotEmpty stream, n, m, c, cl, _, _, hcl => by cases hcl

end Classification

end EventQuery
