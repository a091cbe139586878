import EventQuery.Proofs.Rollup.Range

/-!
Time ranges with bounds that the matching event sets. A condition of such a range either fails on
all rows with one cause, or it is a test of the timestamp of a row that changes its answer at most
once: from below upwards for the start of the range, and from above downwards for its end.
-/

namespace EventQuery

open Allot Compile

/-! ### Expressions that read no row -/

namespace Expr

mutual

/-- Nothing in the expression refers to a slot. -/
def avoids (context : Context) (slot : Nat) : Expr → Layout → Bool
  | .const _, _ => true
  | .var v, layout =>
    match layout.resolve v with
    | .ok b => b.slot ≠ slot
    | .error _ => true
  | .and l r, layout | .or l r, layout | .compare _ l r, layout | .arith _ l r, layout =>
    avoids context slot l layout && avoids context slot r layout
  | .not e, layout | .isNull e, layout => avoids context slot e layout
  | .call _ _ args, layout => allAvoid context slot args layout
  | .member e source, layout =>
    match context.source? source with
    | some d => avoids context slot e (layout.extend d source)
    | none => true
  | .slotEmpty stream, layout => layout.slotOf stream ≠ some slot

/-- No argument of a list refers to a slot. -/
def allAvoid (context : Context) (slot : Nat) : List Expr → Layout → Bool
  | [], _ => true
  | e :: es, layout => avoids context slot e layout && allAvoid context slot es layout

end

/-- An expression over the matching event of a lookup: it calls no aggregate, and refers to nothing
in the slot of the rows that the lookup goes through. -/
def isOverMatching (context : Context) (info : MatchLayout) (e : Expr) : Bool :=
  e.isAggregateFree && e.avoids context info.storeSlot info.layout

end Expr

namespace Compile

mutual

/-- What an expression does not refer to its code does not read. -/
theorem ignores_of_code {context : Context} {slot : Nat} :
    ∀ (e : Expr) {layout : Layout} {n m : Nat} {c : Code}, e.isAggregateFree = true →
      e.avoids context slot layout = true → code context e layout n = .ok (c, m) →
      c.ignores slot = true
  | .const v, _, _, _, _, _, _, h => by
      obtain ⟨rfl, -⟩ := pure_eq_ok.1 h
      rfl
  | .var v, _, _, _, _, _, havoids, h => by
      obtain ⟨b, hb, rfl, -⟩ := code_var.1 h
      rw [Expr.avoids, hb] at havoids
      exact havoids
  | .and l r, _, _, _, _, hfree, havoids, h => by
      simp only [Expr.isAggregateFree, Expr.avoids, Bool.and_eq_true] at hfree havoids
      obtain ⟨l', r', k, hl, hr, -, -, rfl⟩ := code_and.1 h
      rw [Code.ignores, ignores_of_code l hfree.1 havoids.1 hl,
        ignores_of_code r hfree.2 havoids.2 hr, Bool.and_self]
  | .or l r, _, _, _, _, hfree, havoids, h => by
      simp only [Expr.isAggregateFree, Expr.avoids, Bool.and_eq_true] at hfree havoids
      obtain ⟨l', r', k, hl, hr, -, -, rfl⟩ := code_or.1 h
      rw [Code.ignores, ignores_of_code l hfree.1 havoids.1 hl,
        ignores_of_code r hfree.2 havoids.2 hr, Bool.and_self]
  | .not e, _, _, _, _, hfree, havoids, h => by
      obtain ⟨e', he, -, rfl⟩ := code_not.1 h
      rw [Code.ignores]
      exact ignores_of_code e hfree havoids he
  | .compare op l r, _, _, _, _, hfree, havoids, h => by
      simp only [Expr.isAggregateFree, Expr.avoids, Bool.and_eq_true] at hfree havoids
      obtain ⟨l', r', k, hl, hr, -, rfl⟩ := code_compare.1 h
      rw [Code.ignores, ignores_of_code l hfree.1 havoids.1 hl,
        ignores_of_code r hfree.2 havoids.2 hr, Bool.and_self]
  | .arith op l r, _, _, _, _, hfree, havoids, h => by
      simp only [Expr.isAggregateFree, Expr.avoids, Bool.and_eq_true] at hfree havoids
      obtain ⟨l', r', k, type, hl, hr, -, rfl⟩ := code_arith.1 h
      rw [Code.ignores, ignores_of_code l hfree.1 havoids.1 hl,
        ignores_of_code r hfree.2 havoids.2 hr, Bool.and_self]
  | .call space name args, _, _, _, _, hfree, havoids, h => by
      simp only [Expr.isAggregateFree, Bool.and_eq_true, Option.isNone_iff_eq_none] at hfree
      obtain ⟨f, args', type, -, -, hargs, -, rfl⟩ := (code_call hfree.1).1 h
      exact allIgnore_of_codes args hfree.2 havoids hargs
  | .member e source, _, _, _, _, hfree, havoids, h => by
      obtain ⟨d, e', hd, he, -, rfl⟩ := code_member.1 h
      rw [Expr.avoids, hd] at havoids
      rw [Code.ignores]
      exact ignores_of_code e hfree havoids he
  | .isNull e, _, _, _, _, hfree, havoids, h => by
      obtain ⟨e', he, rfl⟩ := code_isNull.1 h
      rw [Code.ignores]
      exact ignores_of_code e hfree havoids he
  | .slotEmpty stream, _, _, _, _, _, havoids, h => by
      obtain ⟨found, hfound, rfl, -⟩ := code_slotEmpty.1 h
      rw [Expr.avoids, hfound, decide_eq_true_eq] at havoids
      exact decide_eq_true fun heq => havoids (congrArg some heq)

theorem allIgnore_of_codes {context : Context} {slot : Nat} :
    ∀ (es : List Expr) {layout : Layout} {n m : Nat} {cs : List Code},
      Expr.allAggregateFree es = true → Expr.allAvoid context slot es layout = true →
      codes context es layout n = .ok (cs, m) → Code.allIgnore slot cs = true
  | [], _, _, _, _, _, _, h => by
      obtain ⟨rfl, -⟩ := pure_eq_ok.1 h
      rfl
  | e :: es, _, _, _, _, hfree, havoids, h => by
      simp only [Expr.allAggregateFree, Expr.allAvoid, Bool.and_eq_true] at hfree havoids
      obtain ⟨c, cs, k, hc, hcs, rfl⟩ := codes_cons.1 h
      rw [Code.allIgnore, ignores_of_code e hfree.1 havoids.1 hc,
        allIgnore_of_codes es hfree.2 havoids.2 hcs, Bool.and_self]

end

end Compile

namespace Within

variable {context : Context} {info : MatchLayout} {w : Within} {e start stop : Expr}

/-- The bounds of a time range are over the matching event. Those of a pattern are constants. -/
def isOverMatching (context : Context) (info : MatchLayout) : Within → Bool
  | .range start stop => start.isOverMatching context info && stop.isOverMatching context info
  | .pattern _ => true

theorem isOverMatching_bound (h : e.isOverMatching context info = true)
    (hbound : bound e = .ok stop) : stop.isOverMatching context info = true := by
  have hcall (e : Expr) (h : e.isOverMatching context info = true) :
      (Expr.call (some "time") "toMillis" [e]).isOverMatching context info = true := by
    simpa [Expr.isOverMatching, Expr.isAggregateFree, Expr.allAggregateFree, Expr.avoids,
      Expr.allAvoid, aggregateOf] using h
  unfold bound at hbound
  split at hbound
  · split at hbound
    · cases hbound
      rfl
    · cases hbound
  · cases hbound
    exact h
  · cases hbound
    exact h
  · cases hbound
  · cases hbound
    exact hcall _ h

/-- The two bounds that the conditions of a range compare with. -/
theorem isOverMatching_bounds (h : w.isOverMatching context info = true)
    (hbounds : w.bounds = .ok (start, stop)) :
    start.isOverMatching context info = true ∧ stop.isOverMatching context info = true := by
  unfold bounds at hbounds
  split at hbounds
  · rename_i lower upper
    rw [isOverMatching, Bool.and_eq_true] at h
    obtain ⟨first, hfirst, hbounds⟩ := Run.bind_eq_ok.1 hbounds
    obtain ⟨last, hlast, hbounds⟩ := Run.bind_eq_ok.1 hbounds
    cases hbounds
    exact ⟨isOverMatching_bound h.1 hfirst, isOverMatching_bound h.2 hlast⟩
  · split at hbounds
    · cases hbounds
      exact ⟨rfl, rfl⟩
    · cases hbounds
  · cases hbounds

end Within

/-! ### Tests of timestamps -/

/-- Later times pass where earlier ones do. -/
def Rises (test : Int64 → Bool) : Prop := ∀ s t, s ≤ t → test s = true → test t = true

/-- Earlier times pass where later ones do. -/
def Falls (test : Int64 → Bool) : Prop := ∀ s t, s ≤ t → test t = true → test s = true

namespace Comparison

/-- A long is comparable with numbers alone. -/
theorem holds_long (op : Comparison) (t : Int64) (v : Value) :
    op.holds (.long t) v =
      (decide (v.kind = .numeric) && op.accepts ((Value.long t).order v)) := by
  cases v <;> rfl

theorem isGE_order_long {s t : Int64} (h : s ≤ t) :
    ((Value.long t).order (.long s)).isGE = true := by
  have hholds := greaterEqual_integers (a := .long t) (b := .long s) rfl rfl
  rw [decide_eq_true h, holds_long, Bool.and_eq_true] at hholds
  have haccepts := hholds.2
  revert haccepts
  cases (Value.long t).order (.long s) <;> decide

/-- Where a time is not before a value no later time is. -/
theorem rises_greaterEqual (v : Value) : Rises fun t => greaterEqual.holds (.long t) v := by
  intro s t hle h
  simp only [holds_long, Bool.and_eq_true] at h ⊢
  refine ⟨h.1, ?_⟩
  have hs : ((Value.long s).order v).isGE = true := by
    have haccepts := h.2
    revert haccepts
    cases (Value.long s).order v <;> decide
  have ht := Std.TransCmp.isGE_trans (isGE_order_long hle) hs
  revert ht
  cases (Value.long t).order v <;> decide

/-- Where a time is before a value all earlier times are. -/
theorem falls_less (v : Value) : Falls fun t => less.holds (.long t) v := by
  intro s t hle h
  simp only [holds_long, Bool.and_eq_true] at h ⊢
  refine ⟨h.1, ?_⟩
  have ht : (Value.long t).order v = .lt := beq_iff_eq.1 h.2
  have hs : ((Value.long s).order (.long t)).isLE = true := by
    rw [← Value.order_swap, Ordering.isLE_swap]
    exact isGE_order_long hle
  exact beq_iff_eq.2 (Std.TransCmp.lt_of_isLE_of_lt hs ht)

end Comparison

/-- Code that judges a row in the second slot by its timestamp. The matching event decides whether
rows can be judged, and by which test. -/
structure Code.Judges (c : Code) (P : (Int64 → Bool) → Prop) : Prop where
  stateless : c.isStateless = true
  decision : ∀ (rows : SourceRows) (f : Frame), ∃ test : Except EvalError (Int64 → Bool),
    (∀ row : Event, row.get 0 = .long row.timestamp →
      c.decision rows (f.setSlot 1 (some row)) = test.map (· row.timestamp)) ∧
    ∀ t, test = .ok t → P t

/-- A comparison of the timestamp of a row with a bound that reads nothing from the row. Where the
left side is no attribute of the row at all, the comparison gives one answer for all rows. -/
theorem Code.judges_compare {op : Comparison} {slot position : Nat} {type : AttributeType}
    {r : Code} {P : (Int64 → Bool) → Prop} (hread : slot = 1 → position = 0)
    (hr : r.isStateless = true) (hignores : r.ignores 1 = true) (hsame : ∀ b, P fun _ => b)
    (hholds : ∀ v, P fun t => op.holds (.long t) v) :
    (Code.compare op (.read slot position type) r).Judges P where
  stateless := by rw [Code.isStateless, Code.isStateless, Bool.true_and, hr]
  decision rows f := by
    by_cases hslot : slot = 1
    · obtain rfl := hslot
      obtain rfl := hread rfl
      refine ⟨(r.value rows f).map fun v t => op.holds (.long t) v, fun row hrow => ?_, ?_⟩
      · have hleft : (((f.setSlot 1 (some row)).slot 1).map (·.get 0)).getD .null =
            .long row.timestamp := by
          rw [Frame.slot_setSlot, if_pos rfl]
          exact hrow
        have hright := Code.value_congr rows r hignores (Frame.agreeOff_setSlot f 1 (some row))
        simp only [Code.decision, Code.value, hleft, hright, Run.ok_bind]
        cases r.value rows f with
        | error x => rfl
        | ok v =>
            simp only [Run.ok_bind, Except.map]
            cases op.holds (.long row.timestamp) v <;> rfl
      · intro test htest
        cases hv : r.value rows f with
        | error x =>
            rw [hv] at htest
            cases htest
        | ok v =>
            rw [hv] at htest
            cases htest
            exact hholds v
    · have hignores : (Code.compare op (.read slot position type) r).ignores 1 = true := by
        rw [Code.ignores, Code.ignores, hignores, decide_eq_true hslot, Bool.and_self]
      refine ⟨((Code.compare op (.read slot position type) r).decision rows f).map fun b _ => b,
        fun row _ => ?_, fun test htest => ?_⟩
      · rw [Code.decision_congr hignores (Frame.agreeOff_setSlot f 1 (some row))]
        generalize (Code.compare op (.read slot position type) r).decision rows f = answer
        cases answer <;> rfl
      · generalize (Code.compare op (.read slot position type) r).decision rows f = answer at htest
        cases answer with
        | error x => cases htest
        | ok b =>
            cases htest
            exact hsame b

/-- A condition of a lookup whose code judges rows by their timestamps. -/
structure Expr.Judged (context : Context) (info : MatchLayout) (e : Expr)
    (P : (Int64 → Bool) → Prop) : Prop where
  free : e.isAggregateFree = true
  judges : ∀ {n m : Nat} {c : Code}, code context e info.layout n = .ok (c, m) → c.Judges P

section Conditions

variable {context : Context} {matching d : Definition} {aggregation : String}

/-- Where the timestamp of the aggregation is bound to the row it is the first attribute. -/
theorem Layout.position_of_resolve_timestamp
    (hd : d.attributes[0]? = some ⟨timestampColumn, .long⟩) {b : Binding}
    (h : (MatchLayout.join matching d (some aggregation)).layout.resolve
      ⟨timestampColumn, some aggregation⟩ = .ok b) (hslot : b.slot = 1) :
    b.position = 0 := by
  obtain ⟨s, hs, hposition, -⟩ := resolve_eq_ok h
  rw [hslot] at hs
  obtain rfl := Option.some.inj hs
  obtain ⟨id, attributes⟩ := d
  cases attributes with
  | nil => cases hd
  | cons a rest =>
      obtain rfl := Option.some.inj hd
      simpa [Definition.position, List.findIdx?_cons, eq_comm] using hposition

theorem Expr.judged_compare {op : Comparison} {bound : Expr} {P : (Int64 → Bool) → Prop}
    (hd : d.attributes[0]? = some ⟨timestampColumn, .long⟩)
    (hbound : bound.isOverMatching context (.join matching d (some aggregation)) = true)
    (hsame : ∀ b, P fun _ => b) (hholds : ∀ v, P fun t => op.holds (.long t) v) :
    (Expr.compare op (.var ⟨timestampColumn, some aggregation⟩) bound).Judged context
      (.join matching d (some aggregation)) P := by
  rw [isOverMatching, Bool.and_eq_true] at hbound
  obtain ⟨hfree, havoids⟩ := hbound
  refine ⟨by rw [isAggregateFree, isAggregateFree, hfree, Bool.and_self], fun hcode => ?_⟩
  obtain ⟨l, r, k, hl, hr, -, rfl⟩ := code_compare.1 hcode
  obtain ⟨b, hb, rfl, -⟩ := code_var.1 hl
  exact Code.judges_compare (Layout.position_of_resolve_timestamp hd hb)
    (compiles_of_code context bound hfree hr).stateless
    (ignores_of_code bound hfree havoids hr) hsame hholds

/-- The start of a range is tested upwards and its end downwards. -/
theorem Within.judged_conditions {w : Within} {since before : Expr}
    (hd : d.attributes[0]? = some ⟨timestampColumn, .long⟩)
    (hw : w.isOverMatching context (.join matching d (some aggregation)) = true)
    (h : w.conditions aggregation = .ok (since, before)) :
    since.Judged context (.join matching d (some aggregation)) Rises ∧
      before.Judged context (.join matching d (some aggregation)) Falls := by
  obtain ⟨⟨start, stop⟩, hbounds, h⟩ := Run.bind_eq_ok.1 h
  cases h
  obtain ⟨hstart, hstop⟩ := isOverMatching_bounds hw hbounds
  exact ⟨Expr.judged_compare hd hstart (fun _ _ _ _ h => h) Comparison.rises_greaterEqual,
    Expr.judged_compare hd hstop (fun _ _ _ _ h => h) Comparison.falls_less⟩

end Conditions

end EventQuery
