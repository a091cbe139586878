import EventQuery.Eval.Arithmetic
import EventQuery.Proofs.Value.Order
import Mathlib.Data.Int.ModEq

/-!
Exactness of integer arithmetic. In either width an operator gives its exact result on the integers
that the operands are, modulo two to that width, and only a division by zero gives none. Operands of
32 bits are widened, computed with in 64 bits and narrowed again; that is the arithmetic of 32-bit
integers themselves.
-/

namespace EventQuery

/-- An integer of either width is an integer of 64 bits. -/
theorem Value.castLong_of_asLong {v : Value} {l : Int64} (h : v.asLong = some l) :
    v.castNumeric .long = some (.long l) := by
  cases v with
  | int | long =>
      cases h
      rfl
  | _ => cases h

namespace Arithmetic

/-- The exact result of an operator on integers. A quotient is truncated toward zero, and a
remainder has the sign of the dividend. -/
def onIntegers (op : Arithmetic) (x y : Int) : Int :=
  match op with
  | .add => x + y
  | .subtract => x - y
  | .multiply => x * y
  | .divide => x.tdiv y
  | .remainder => x.tmod y

/-- The operators that have no result for a second operand of zero. -/
def divides : Arithmetic → Bool
  | .divide | .remainder => true
  | .add | .subtract | .multiply => false

/-- The result of an operator on 32-bit integers, in their own arithmetic. -/
def onInts (op : Arithmetic) (i j : Int32) : Int32 :=
  match op with
  | .add => i + j
  | .subtract => i - j
  | .multiply => i * j
  | .divide => i / j
  | .remainder => i % j

/-- The quotient of two values times the second one, plus the remainder. -/
def recombine (a b : Value) (target : AttributeType) : Except EvalError Value := do
  let quotient ← divide.apply a b target
  let multiple ← multiply.apply quotient b target
  let rest ← remainder.apply a b target
  add.apply multiple rest target

variable {op : Arithmetic} {a b : Value} {i j : Int64}

theorem toInt_onInts (op : Arithmetic) (i j : Int32) :
    (op.onInts i j).toInt = (op.onIntegers i.toInt j.toInt).bmod (2 ^ 32) := by
  cases op with
  | add => exact Int32.toInt_add i j
  | subtract => exact Int32.toInt_sub i j
  | multiply => exact Int32.toInt_mul i j
  | divide => exact Int32.toInt_div i j
  | remainder =>
      -- A remainder fits, so nothing is cut off.
      have hfits := Int32.toInt_bmod (i % j)
      rw [Int32.toInt_mod] at hfits
      exact (Int32.toInt_mod i j).trans hfits.symm

/-- A division by zero is the one failure on 64-bit integers. -/
theorem onLongs_eq_error (hzero : op.divides = true ∧ j = 0) :
    op.onLongs i j = .error .divisionByZero := by
  obtain ⟨hop, rfl⟩ := hzero
  cases op with
  | divide | remainder => rfl
  | add | subtract | multiply => cases hop

theorem exists_onLongs (op : Arithmetic) (h : ¬(op.divides = true ∧ j = 0)) :
    ∃ l, op.onLongs i j = .ok l ∧ l.toInt = (op.onIntegers i.toInt j.toInt).bmod (2 ^ 64) := by
  cases op with
  | add => exact ⟨_, rfl, Int64.toInt_add i j⟩
  | subtract => exact ⟨_, rfl, Int64.toInt_sub i j⟩
  | multiply => exact ⟨_, rfl, Int64.toInt_mul i j⟩
  | divide =>
      have hj : j ≠ 0 := fun hj => h ⟨rfl, hj⟩
      exact ⟨_, if_neg hj, Int64.toInt_div i j⟩
  | remainder =>
      have hj : j ≠ 0 := fun hj => h ⟨rfl, hj⟩
      have hfits := Int64.toInt_bmod (i % j)
      rw [Int64.toInt_mod] at hfits
      exact ⟨_, if_neg hj, (Int64.toInt_mod i j).trans hfits.symm⟩

/-! ### The two widths -/

/-- Integers of either width are computed with in 64 bits. -/
theorem apply_long (ha : a.asLong = some i) (hb : b.asLong = some j) :
    op.apply a b .long = (op.onLongs i j).map .long := by
  obtain ⟨-, hnull, -⟩ := Value.asLong_eq_some ha
  obtain ⟨-, hnull', -⟩ := Value.asLong_eq_some hb
  simp only [apply, hnull, hnull', Bool.or_self, Bool.false_eq_true, reduceCtorEq, if_false,
    applyIn, Value.castLong_of_asLong ha, Value.castLong_of_asLong hb]
  cases op.onLongs i j <;> rfl

/-- With a target of 32 bits integers are computed with in 64 bits as well, and the result is
narrowed. -/
theorem apply_int (ha : a.asLong = some i) (hb : b.asLong = some j) :
    op.apply a b .int = (op.onLongs i j).map fun l => .int l.toInt32 := by
  obtain ⟨-, hnull, -⟩ := Value.asLong_eq_some ha
  obtain ⟨-, hnull', -⟩ := Value.asLong_eq_some hb
  simp only [apply, hnull, hnull', Bool.or_self, Bool.false_eq_true, reduceCtorEq, if_false,
    applyIn, Value.castLong_of_asLong ha, Value.castLong_of_asLong hb, if_true]
  cases op.onLongs i j <;> rfl

theorem toInt64_eq_zero {j : Int32} : j.toInt64 = 0 ↔ j = 0 := by
  rw [← Int64.toInt_inj, ← Int32.toInt_inj, Int32.toInt_toInt64]
  rfl

/-- Narrowing the result in 64 bits is computing in 32 bits. -/
theorem apply_int_eq_onInts (op : Arithmetic) {i j : Int32} (h : ¬(op.divides = true ∧ j = 0)) :
    op.apply (.int i) (.int j) .int = .ok (.int (op.onInts i j)) := by
  obtain ⟨l, hl, hexact⟩ := exists_onLongs op (i := i.toInt64) (j := j.toInt64)
    (by rwa [toInt64_eq_zero])
  have hnarrow : l.toInt32 = op.onInts i j := by
    rw [← Int32.toInt_inj, Int64.toInt_toInt32, hexact, toInt_onInts, Int32.toInt_toInt64,
      Int32.toInt_toInt64]
    exact Int.bmod_bmod_of_dvd (by decide)
  rw [apply_int rfl rfl, hl, ← hnarrow]
  rfl

theorem apply_long_eq_ok (op : Arithmetic) (ha : a.asLong = some i) (hb : b.asLong = some j)
    {l : Int64} (h : op.onLongs i j = .ok l) : op.apply a b .long = .ok (.long l) := by
  rw [apply_long ha hb, h]
  rfl

/-! ### Quotient and remainder -/

theorem div_mul_add_mod (i j : Int64) : i / j * j + i % j = i := by
  rw [← Int64.toInt_inj, Int64.toInt_add, Int64.toInt_mul, Int64.toInt_div, Int64.toInt_mod,
    Int.bmod_mul_bmod, Int.bmod_add_bmod, Int.tdiv_mul_add_tmod]
  exact Int64.toInt_bmod i

theorem div_mul_add_mod_ints (i j : Int32) : i / j * j + i % j = i := by
  rw [← Int32.toInt_inj, Int32.toInt_add, Int32.toInt_mul, Int32.toInt_div, Int32.toInt_mod,
    Int.bmod_mul_bmod, Int.bmod_add_bmod, Int.tdiv_mul_add_tmod]
  exact Int32.toInt_bmod i

theorem recombine_long (ha : a.asLong = some i) (hb : b.asLong = some j) (hj : j ≠ 0) :
    recombine a b .long = .ok (.long i) := by
  have hquotient := apply_long_eq_ok divide ha hb (if_neg hj)
  have hrest := apply_long_eq_ok remainder ha hb (if_neg hj)
  have hmultiple := apply_long_eq_ok multiply (a := .long (i / j)) rfl hb rfl
  have hsum :=
    apply_long_eq_ok add (a := .long (i / j * j)) (b := .long (i % j)) rfl rfl rfl
  rw [div_mul_add_mod] at hsum
  simp only [recombine, hquotient, hmultiple, hrest, bind, Except.bind]
  exact hsum

theorem recombine_int {i j : Int32} (hj : j ≠ 0) :
    recombine (.int i) (.int j) .int = .ok (.int i) := by
  have hdefined (op : Arithmetic) : ¬(op.divides = true ∧ j = 0) := fun h => hj h.2
  have hsum := apply_int_eq_onInts add (i := i / j * j) (j := i % j) nofun
  rw [onInts, div_mul_add_mod_ints] at hsum
  simp only [recombine, apply_int_eq_onInts _ (hdefined _), onInts, bind, Except.bind]
  exact hsum

/-! ### Exactness -/

/-- Integer arithmetic is exact modulo two to the width of the target. On integers of either width
with a target of 64 bits, and on 32-bit integers with a target of 32 bits, a division by zero is the
one failure, everything else gives an integer of the target that is congruent to the exact result,
and quotient and remainder belong together. A null operand gives null whatever the other one is. -/
theorem apply_integers (op : Arithmetic) (a b : Value) :
    (∀ i j, a.asLong = some i → b.asLong = some j →
      (op.apply a b .long = .error .divisionByZero ↔ op.divides = true ∧ j = 0) ∧
      (¬(op.divides = true ∧ j = 0) →
        ∃ l, op.apply a b .long = .ok (.long l) ∧
          l.toInt ≡ op.onIntegers i.toInt j.toInt [ZMOD 2 ^ 64]) ∧
      (j ≠ 0 → recombine a b .long = .ok (.long i))) ∧
    (∀ i j, a = .int i → b = .int j →
      (op.apply a b .int = .error .divisionByZero ↔ op.divides = true ∧ j = 0) ∧
      (¬(op.divides = true ∧ j = 0) →
        op.apply a b .int = .ok (.int (op.onInts i j)) ∧
          (op.onInts i j).toInt ≡ op.onIntegers i.toInt j.toInt [ZMOD 2 ^ 32]) ∧
      (j ≠ 0 → recombine a b .int = .ok (.int i))) ∧
    (a = .null ∨ b = .null → ∀ target, op.apply a b target = .ok .null) := by
  refine ⟨fun i j ha hb => ⟨⟨fun herror => ?_, fun hzero => ?_⟩, fun hdefined => ?_,
    recombine_long ha hb⟩, ?_, fun hnull target => ?_⟩
  · by_contra hdefined
    obtain ⟨l, hl, -⟩ := exists_onLongs op (i := i) hdefined
    cases (apply_long_eq_ok op ha hb hl).symm.trans herror
  · rw [apply_long ha hb, onLongs_eq_error hzero]
    rfl
  · obtain ⟨l, hl, hexact⟩ := exists_onLongs op (i := i) hdefined
    refine ⟨l, apply_long_eq_ok op ha hb hl, ?_⟩
    rw [hexact]
    exact Int.bmod_emod
  · rintro i j rfl rfl
    refine ⟨⟨fun herror => ?_, fun hzero => ?_⟩, fun hdefined => ?_, recombine_int⟩
    · by_contra hdefined
      cases (apply_int_eq_onInts op hdefined).symm.trans herror
    · rw [apply_int rfl rfl, onLongs_eq_error (by rwa [toInt64_eq_zero])]
      rfl
    · refine ⟨apply_int_eq_onInts op hdefined, ?_⟩
      rw [toInt_onInts]
      exact Int.bmod_emod
  · rw [apply, if_pos]
    rcases hnull with rfl | rfl
    · rfl
    · exact Bool.or_true _

/-- The quotient of the least integer by minus one wraps round to it in either width, with no
remainder, and null divided by zero is null. -/
theorem apply_integers_least :
    divide.apply (.int Int32.minValue) (.int (-1)) .int = .ok (.int Int32.minValue) ∧
      (∃ l, divide.apply (.long Int64.minValue) (.int (-1)) .long = .ok (.long l) ∧
        l.toInt ≡ 2 ^ 63 [ZMOD 2 ^ 64]) ∧
      recombine (.long Int64.minValue) (.int (-1)) .long = .ok (.long Int64.minValue) ∧
      divide.apply .null (.int 0) .int = .ok .null := by
  obtain ⟨-, hints, -⟩ := apply_integers divide (.int Int32.minValue) (.int (-1))
  obtain ⟨hlongs, -, -⟩ := apply_integers divide (.long Int64.minValue) (.int (-1))
  obtain ⟨-, -, hnull⟩ := apply_integers divide .null (.int 0)
  obtain ⟨-, hquotient, -⟩ := hints _ _ rfl rfl
  obtain ⟨-, hquotient', hrecombine⟩ := hlongs _ _ rfl rfl
  exact ⟨(hquotient (by decide)).1, hquotient' (by decide), hrecombine (by decide),
    hnull (.inl rfl) .int⟩

end Arithmetic

end EventQuery
