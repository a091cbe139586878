import EventQuery.Expr.Operator

/-!
Laws of the total order of values. The order compares a few parts of two values in turn, so it is
oriented and transitive. Values that are equal under it answer every comparison and every probe
alike, which is why one key of an index can stand for all of them.
-/

namespace EventQuery

namespace Value

/-- The truth value of a boolean. -/
def boolPart : Value → Bool
  | .bool b => b
  | _ => false

/-- The content of a string. -/
def stringPart : Value → String
  | .string s => s
  | _ => ""

/-- The order compares kinds, then booleans, then numbers, then strings. -/
theorem order_eq_lex :
    order = compareLex (compareOn fun v => v.kind.rank)
      (compareLex (compareOn boolPart)
        (compareLex (compareOn fun v => v.numberRank.1)
          (compareLex (compareOn fun v => v.numberRank.2) (compareOn stringPart)))) := by
  funext a b
  cases a <;> cases b <;>
    simp [order, contentOrder, compareRanks, compareLex, compareOn, kind, Kind.rank, boolPart,
      stringPart, numberRank, Nat.compare_eq_ite_lt]

instance : Std.TransCmp order := by
  rw [order_eq_lex]
  infer_instance

@[simp] theorem order_self (v : Value) : order v v = .eq := Std.ReflCmp.compare_self

theorem order_swap (a b : Value) : (order a b).swap = order b a := Std.OrientedCmp.eq_swap.symm

theorem same_iff {a b : Value} : a.same b = true ↔ order a b = .eq := by simp [same]

@[simp] theorem same_self (v : Value) : v.same v = true := same_iff.2 (order_self v)

theorem same_comm (a b : Value) : a.same b = b.same a := by
  rw [same, same, ← order_swap a b]
  cases order a b <;> rfl

theorem order_congr_left {a b : Value} (h : a.same b = true) (v : Value) : order a v = order b v :=
  Std.TransCmp.congr_left (same_iff.1 h)

theorem order_congr_right {a b : Value} (h : a.same b = true) (v : Value) : order v a = order v b :=
  Std.TransCmp.congr_right (same_iff.1 h)

theorem same_congr_left {a b : Value} (h : a.same b = true) (v : Value) : a.same v = b.same v := by
  rw [same, same, order_congr_left h v]

theorem same_congr_right {a b : Value} (h : a.same b = true) (v : Value) : v.same a = v.same b := by
  rw [same_comm v a, same_comm v b, same_congr_left h v]

theorem kind_eq_of_same {a b : Value} (h : a.same b = true) : a.kind = b.kind := by
  have hranks : compare a.kind.rank b.kind.rank = .eq := by
    have heq := same_iff.1 h
    rw [order, Ordering.then_eq_eq] at heq
    exact heq.1
  have hrank : a.kind.rank = b.kind.rank := Nat.compare_eq_eq.1 hranks
  revert hrank
  cases a.kind <;> cases b.kind <;> decide

@[simp] theorem isTrue_bool (b : Bool) : (Value.bool b).isTrue = b := by cases b <;> rfl

theorem isNull_iff_kind {v : Value} : v.isNull = true ↔ v.kind = .null := by
  cases v <;> simp [isNull, kind]

theorem isNull_iff_eq_null {v : Value} : v.isNull = true ↔ v = .null := by
  cases v <;> simp [isNull]

theorem null_same (v : Value) : null.same v = v.isNull := by
  cases v <;> rfl

theorem isNull_congr {a b : Value} (h : a.same b = true) : a.isNull = b.isNull := by
  rw [Bool.eq_iff_iff, isNull_iff_kind, isNull_iff_kind, kind_eq_of_same h]

/-- Conditions see no order next to null and between kinds. -/
theorem compare?_eq_none {a b : Value} :
    a.compare? b = none ↔ a = .null ∨ b = .null ∨ a.kind ≠ b.kind := by
  rw [compare?]
  split <;> rename_i h
  · simpa [isNull_iff_eq_null, or_assoc] using h
  · simpa [isNull_iff_eq_null, or_assoc] using h

theorem compare?_congr_left {a b : Value} (h : a.same b = true) (v : Value) :
    a.compare? v = b.compare? v := by
  simp only [compare?, isNull_congr h, kind_eq_of_same h, order_congr_left h v]

theorem compare?_swap (a b : Value) : (a.compare? b).map Ordering.swap = b.compare? a := by
  unfold compare?
  rw [Bool.or_comm a.isNull, show (a.kind != b.kind) = (b.kind != a.kind) from bne_comm]
  split
  · rfl
  · simp [order_swap]

/-- The parts of an integer that comparisons see. -/
theorem asLong_eq_some {v : Value} {n : Int64} (h : v.asLong = some n) :
    v.kind = .numeric ∧ v.isNull = false ∧ v.numberRank = Number.rankOfInt n.toInt := by
  cases v with
  | int i =>
      cases h
      simp [kind, isNull, numberRank]
  | long l =>
      cases h
      simp [kind, isNull, numberRank]
  | _ => cases h

theorem compareRanks_rankOfInt (i j : Int) :
    compareRanks (Number.rankOfInt i) (Number.rankOfInt j) = compare i j := by
  have hpos (n : Nat) : (0 : Int) < Number.pow2 n := Int.natCast_pos.2 (Nat.pow_pos Nat.two_pos)
  simp only [compareRanks, Number.rankOfInt]
  generalize hc : (Number.pow2 Number.Format.double.unitShift : Int) = c
  have hc : 0 < c := hc ▸ hpos _
  simp only [compare, compareOfLessAndEq]
  simp [Int.mul_lt_mul_right hc, Int.mul_eq_mul_right_iff (Int.ne_of_gt hc)]

theorem compareRanks_eq_iff {a b : Int × Int} : compareRanks a b = .eq ↔ a = b := by
  rw [compareRanks, Ordering.then_eq_eq, Int.compare_eq_eq, Int.compare_eq_eq, Prod.ext_iff]

theorem rankOfInt_inj {i j : Int} (h : Number.rankOfInt i = Number.rankOfInt j) : i = j := by
  have hcompare := compareRanks_rankOfInt i j
  rw [h, compareRanks_eq_iff.2 rfl] at hcompare
  exact Int.compare_eq_eq.1 hcompare.symm

theorem contentOrder_of_same {a b : Value} (h : a.same b = true) : a.contentOrder b = .eq := by
  rw [same_iff, order, Ordering.then_eq_eq] at h
  exact h.2

theorem eq_null_of_kind {v : Value} (h : v.kind = .null) : v = .null := by
  cases v <;> first | rfl | cases h

/-- The double of an integer of either width is the one nearest to its content. -/
theorem asDouble_of_asLong {v : Value} {l : Int64} (h : v.asLong = some l) :
    v.asDouble = some (.ofInt l.toInt) := by
  cases v with
  | int i =>
      cases h
      simp [asDouble]
  | long l =>
      cases h
      rfl
  | _ => cases h

end Value

namespace Comparison

theorem accepts_converse (op : Comparison) (o : Ordering) :
    op.converse.accepts o.swap = op.accepts o := by
  cases op <;> cases o <;> rfl

/-- A comparison says the same when its operands change sides and its operator is turned round. -/
theorem holds_converse (op : Comparison) (a b : Value) : op.converse.holds b a = op.holds a b := by
  unfold holds
  rw [← Value.compare?_swap a b]
  cases a.compare? b with
  | none => rfl
  | some o => exact accepts_converse op o

theorem holds_congr_left (op : Comparison) {a b : Value} (h : a.same b = true) (v : Value) :
    op.holds a v = op.holds b v := by
  unfold holds
  rw [Value.compare?_congr_left h v]

/-- No comparison with null holds. -/
theorem holds_null_right (op : Comparison) {probe : Value} (h : probe.isNull = true) (v : Value) :
    op.holds v probe = false := by
  simp [holds, Value.compare?, h]

/-- Being `true` is the same as being equal to `true`. -/
theorem equal_holds_true (v : Value) : Comparison.equal.holds v (.bool true) = v.isTrue := by
  cases v with
  | bool b => cases b <;> rfl
  | _ => rfl

/-- Integers of either width are compared by their content. -/
theorem holds_integers (op : Comparison) {a b : Value} {m n : Int64} (ha : a.asLong = some m)
    (hb : b.asLong = some n) : op.holds a b = op.accepts (compare m.toInt n.toInt) := by
  obtain ⟨hkind, hnull, hrank⟩ := Value.asLong_eq_some ha
  obtain ⟨hkind', hnull', hrank'⟩ := Value.asLong_eq_some hb
  have hcontent : a.contentOrder b = Value.compareRanks a.numberRank b.numberRank := by
    cases a with
    | int i => rfl
    | long l => rfl
    | _ => cases ha
  have horder : a.order b = compare m.toInt n.toInt := by
    rw [Value.order, hkind, hkind', hcontent, hrank, hrank', Value.compareRanks_rankOfInt]
    simp
  simp [holds, Value.compare?, hkind, hkind', hnull, hnull', horder]

theorem less_integers {a b : Value} {m n : Int64} (ha : a.asLong = some m)
    (hb : b.asLong = some n) :
    Comparison.less.holds a b = decide (m < n) := by
  rw [holds_integers _ ha hb, Bool.eq_iff_iff, decide_eq_true_iff, Int64.lt_iff_toInt_lt,
    ← Int.compare_eq_lt]
  cases compare m.toInt n.toInt <;> decide

theorem greaterEqual_integers {a b : Value} {m n : Int64} (ha : a.asLong = some m)
    (hb : b.asLong = some n) :
    Comparison.greaterEqual.holds a b = decide (n ≤ m) := by
  rw [holds_integers _ ha hb, Bool.eq_iff_iff, decide_eq_true_iff, ← Int64.not_lt,
    Int64.lt_iff_toInt_lt, ← Int.compare_eq_lt]
  cases compare m.toInt n.toInt <;> decide

end Comparison

end EventQuery
