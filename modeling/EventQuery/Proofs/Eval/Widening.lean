import EventQuery.Proofs.Eval.Arithmetic
import EventQuery.Proofs.Eval.Compile
import EventQuery.Proofs.Eval.Run
import EventQuery.Proofs.Eval.Scalars

/-!
The type that arithmetic is done in. It is fixed by the static types of the operands, and an untyped
operand takes that of the other one. So the arithmetic is that of the wider type of the values
unless an untyped operand holds a number of a wider type than the other operand is declared with.
-/

namespace EventQuery

namespace AttributeType

/-- A numeric type comes after another one in the order of widening. -/
def isWider (s t : AttributeType) : Bool :=
  match s.numericRank, t.numericRank with
  | some m, some n => n < m
  | _, _ => false

variable {s t u : AttributeType}

theorem widen_comm (s t : AttributeType) : s.widen t = t.widen s := by
  cases s <;> cases t <;> rfl

theorem isNumeric_of_isWider (h : s.isWider t = true) :
    s.isNumeric = true ∧ t.isNumeric = true := by
  cases s <;> cases t <;> first | exact ⟨rfl, rfl⟩ | cases h

theorem widen_of_isWider (h : s.isWider t = true) : s.widen t = some s := by
  cases s <;> cases t <;> first | rfl | cases h

theorem widen_of_not_isWider (hs : s.isNumeric = true) (ht : t.isNumeric = true)
    (h : s.isWider t = false) : s.widen t = some t := by
  cases s <;> cases t <;> first | rfl | (cases hs; done) | (cases ht; done) | cases h

end AttributeType

/-- A number that an operand of a static type may have for its value: one of that type, and any
number where the operand is untyped. -/
def Value.IsOperand (v : Value) (type : AttributeType) : Prop :=
  v.type.isNumeric = true ∧ (type = .object ∨ v.type = type)

namespace Arithmetic

open AttributeType

variable {op : Arithmetic} {a b : Value} {s t type wider : AttributeType}

/-- An untyped operand holds a number of a wider type than the other operand is declared with. -/
def Narrows (s t : AttributeType) (a b : Value) : Prop :=
  (s = .object ∧ a.type.isWider t = true) ∨ (t = .object ∧ b.type.isWider s = true)

/-- A division of integers by zero, which fails in every integer type. -/
def DividesByZero (op : Arithmetic) (a b : Value) : Prop :=
  op.divides = true ∧ (∃ i, a.asLong = some i) ∧ b.asLong = some 0

/-! ### The static type -/

theorem arithType_untyped_left (h : Compile.arithType op .object t = .ok type) : type = t := by
  cases t <;> cases h <;> rfl

theorem arithType_untyped_right (h : Compile.arithType op s .object = .ok type) : type = s := by
  cases s <;> cases h <;> rfl

theorem arithType_typed (hs : s ≠ .object) (ht : t ≠ .object)
    (h : Compile.arithType op s t = .ok type) : s.widen t = some type := by
  simp only [Compile.arithType, hs, ht, decide_false, Bool.false_and, Bool.false_eq_true,
    if_false] at h
  split at h
  · cases h
    assumption
  · cases h

/-! ### Results in two types -/

/-- An untyped target stands for the wider type of the operands. -/
theorem apply_object (hwider : a.type.widen b.type = some wider) :
    op.apply a b .object = op.apply a b wider := by
  obtain ⟨-, -, hnumeric⟩ := widen_eq_some hwider
  have hne : wider ≠ .object := by
    rintro rfl
    cases hnumeric
  rw [apply, apply]
  simp only [hwider, hne, if_true, if_false]

theorem apply_eq_applyIn (ha : a.type.isNumeric = true) (hb : b.type.isNumeric = true)
    (htype : type.isNumeric = true) : op.apply a b type = op.applyIn a b type := by
  have hnull {v : Value} (hv : v.type.isNumeric = true) : v.isNull = false := by
    cases v with
    | null => cases hv
    | _ => rfl
  have hne : type ≠ .object := by
    rintro rfl
    cases htype
  simp only [apply, hnull ha, hnull hb, Bool.or_self, Bool.false_eq_true, hne, if_false]

/-- A result is of its target type. -/
theorem type_of_applyIn {v : Value} (h : op.applyIn a b type = .ok v) : v.type = type := by
  cases type with
  | int | long =>
      simp only [applyIn] at h
      split at h
      · obtain ⟨l, -, h⟩ := Run.bind_eq_ok.1 h
        cases h
        rfl
      · cases h
  | float | double =>
      simp only [applyIn] at h
      split at h <;> cases h
      rfl
  | string | bool | object => cases h

/-- Floating point arithmetic on numbers always has a result. -/
theorem exists_applyIn (op : Arithmetic) (ha : a.type.isNumeric = true)
    (hb : b.type.isNumeric = true) (htype : type = .float ∨ type = .double) :
    ∃ v, op.applyIn a b type = .ok v := by
  obtain ⟨x, hx⟩ := Value.exists_asDouble ha
  obtain ⟨y, hy⟩ := Value.exists_asDouble hb
  rcases htype with rfl | rfl <;> simp only [applyIn, hx, hy] <;> exact ⟨_, rfl⟩

/-- Numbers whose wider type is one of integers are integers. -/
theorem exists_asLong (hwiden : a.type.widen b.type = some wider)
    (hwider : wider = .int ∨ wider = .long) :
    (∃ i, a.asLong = some i) ∧ ∃ j, b.asLong = some j := by
  cases a <;> cases b <;>
    first | exact ⟨⟨_, rfl⟩, _, rfl⟩ | (rcases hwider with rfl | rfl <;> cases hwiden)

/-- The wider type of integers is one of integers. -/
theorem widen_integers {i j : Int64} (ha : a.asLong = some i) (hb : b.asLong = some j)
    (hwiden : a.type.widen b.type = some wider) : wider = .int ∨ wider = .long := by
  cases a <;> cases ha <;> cases b <;> cases hb <;> cases hwiden <;> simp [Value.type]

/-- A result in two types would be of both. -/
theorem applyIn_ne_ok (hne : type ≠ wider) (hsame : op.applyIn a b type = op.applyIn a b wider)
    (v : Value) : op.applyIn a b wider ≠ .ok v :=
  fun hv => hne ((type_of_applyIn (hsame.trans hv)).symm.trans (type_of_applyIn hv))

/-- The results in two different types differ, unless both are failures of a division by zero. -/
theorem apply_eq_apply_iff (htype : type.isNumeric = true)
    (hwiden : a.type.widen b.type = some wider) (hwider : wider.isWider type = true) :
    op.apply a b type = op.apply a b wider ↔ op.DividesByZero a b := by
  obtain ⟨ha, hb, hnumeric⟩ := widen_eq_some hwiden
  constructor
  · intro hsame
    rw [apply_eq_applyIn ha hb htype, apply_eq_applyIn ha hb hnumeric] at hsame
    have hne : type ≠ wider := by
      rintro rfl
      cases type <;> cases hwider
    have hnone := applyIn_ne_ok hne hsame
    -- Only arithmetic on integers is without a result.
    have hlong : wider = .long := by
      cases wider with
      | long => rfl
      | float =>
          obtain ⟨v, hv⟩ := exists_applyIn op ha hb (.inl rfl)
          exact absurd hv (hnone v)
      | double =>
          obtain ⟨v, hv⟩ := exists_applyIn op ha hb (.inr rfl)
          exact absurd hv (hnone v)
      | int => cases type <;> cases hwider
      | string | bool | object => cases hnumeric
    subst hlong
    obtain ⟨⟨i, hi⟩, j, hj⟩ := exists_asLong hwiden (.inr rfl)
    by_contra hdefined
    have hdefined : ¬(op.divides = true ∧ j = 0) := by
      rintro ⟨hop, rfl⟩
      exact hdefined ⟨hop, ⟨i, hi⟩, hj⟩
    obtain ⟨l, hl, -⟩ := exists_onLongs op (i := i) hdefined
    have hresult := apply_long_eq_ok op hi hj hl
    rw [apply_eq_applyIn ha hb rfl] at hresult
    exact hnone _ hresult
  · rintro ⟨hop, ⟨i, hi⟩, hj⟩
    obtain ⟨rfl, rfl⟩ : wider = .long ∧ type = .int := by
      rcases widen_integers hi hj hwiden with rfl | rfl <;> cases type <;> cases hwider
      exact ⟨rfl, rfl⟩
    rw [apply_int hi hj, apply_long hi hj, onLongs_eq_error ⟨hop, rfl⟩]
    rfl

/-! ### The type of the operands -/

/-- The static type stands for the wider type of the values, unless an untyped operand holds a
number of a wider type than the other operand is declared with. -/
theorem apply_static (htype : Compile.arithType op s t = .ok type) (ha : a.IsOperand s)
    (hb : b.IsOperand t) (hwiden : a.type.widen b.type = some wider) (h : ¬Narrows s t a b) :
    op.apply a b type = op.apply a b wider := by
  obtain ⟨haNumeric, hs⟩ := ha
  obtain ⟨hbNumeric, ht⟩ := hb
  have hobject {u : AttributeType} (hu : u.isNumeric = true) : u ≠ .object := by
    rintro rfl
    cases hu
  rcases hs with rfl | rfl <;> rcases ht with rfl | rfl
  · obtain rfl := arithType_untyped_left htype
    exact apply_object hwiden
  · obtain rfl := arithType_untyped_left htype
    have hnot : a.type.isWider b.type = false := Bool.eq_false_iff.2 fun hw => h (.inl ⟨rfl, hw⟩)
    rw [widen_of_not_isWider haNumeric hbNumeric hnot] at hwiden
    rw [Option.some.inj hwiden]
  · obtain rfl := arithType_untyped_right htype
    have hnot : b.type.isWider a.type = false := Bool.eq_false_iff.2 fun hw => h (.inr ⟨rfl, hw⟩)
    rw [widen_comm, widen_of_not_isWider hbNumeric haNumeric hnot] at hwiden
    rw [Option.some.inj hwiden]
  · rw [arithType_typed (hobject haNumeric) (hobject hbNumeric) htype] at hwiden
    rw [Option.some.inj hwiden]

/-- Where an untyped operand holds a number of a wider type, the static type is the narrower one. -/
theorem isWider_of_narrows (htype : Compile.arithType op s t = .ok type) (ha : a.IsOperand s)
    (hb : b.IsOperand t) (hwiden : a.type.widen b.type = some wider) (h : Narrows s t a b) :
    type.isNumeric = true ∧ wider.isWider type = true := by
  rcases h with ⟨rfl, hw⟩ | ⟨rfl, hw⟩
  · obtain rfl := arithType_untyped_left htype
    obtain ⟨-, htNumeric⟩ := isNumeric_of_isWider hw
    rcases hb.2 with rfl | rfl
    · cases htNumeric
    · rw [widen_of_isWider hw] at hwiden
      exact ⟨htNumeric, Option.some.inj hwiden ▸ hw⟩
  · obtain rfl := arithType_untyped_right htype
    obtain ⟨-, hsNumeric⟩ := isNumeric_of_isWider hw
    rcases ha.2 with rfl | rfl
    · cases hsNumeric
    · rw [widen_comm, widen_of_isWider hw] at hwiden
      exact ⟨hsNumeric, Option.some.inj hwiden ▸ hw⟩

end Arithmetic

namespace Compile

open Arithmetic

/-- Compiled arithmetic on numbers that its operands may have for their values is arithmetic in the
wider type of the two numbers, unless an untyped operand holds a number of a wider type than the
other operand is declared with. There it is arithmetic in the declared type, which is the narrower
one, and its result is another one unless both are failures of a division by zero. -/
theorem arith_widens {context : Context} {layout : Layout} {op : Arithmetic} {e₁ e₂ : Expr}
    {n k : Nat} {c : Code} (hcode : code context (.arith op e₁ e₂) layout n = .ok (c, k)) :
    ∃ l r n', code context e₁ layout n = .ok (l, n') ∧ code context e₂ layout n' = .ok (r, k) ∧
      c = .arith op l r c.type ∧
      ∀ rows f m m₁ m₂ a b, l.run rows f m = (.ok a, m₁) → r.run rows f m₁ = (.ok b, m₂) →
        a.IsOperand l.type → b.IsOperand r.type →
        ∃ wider, a.type.widen b.type = some wider ∧
          (¬Narrows l.type r.type a b → c.run rows f m = (op.apply a b wider, m₂)) ∧
          (Narrows l.type r.type a b →
            wider.isWider c.type = true ∧ c.run rows f m = (op.apply a b c.type, m₂) ∧
              (c.run rows f m = (op.apply a b wider, m₂) ↔ op.DividesByZero a b)) := by
  obtain ⟨l, r, n', type, hl, hr, htype, rfl⟩ := code_arith.1 hcode
  refine ⟨l, r, n', hl, hr, rfl, fun rows f m m₁ m₂ a b hleft hright ha hb => ?_⟩
  have hrun : (Code.arith op l r type).run rows f m = (op.apply a b type, m₂) := by
    rw [Code.run, Run.bind_of_ok hleft, Run.bind_of_ok hright, Run.run_ofExcept]
  obtain ⟨wider, hwiden⟩ : ∃ wider, a.type.widen b.type = some wider := by
    cases hw : a.type.isWider b.type with
    | true => exact ⟨_, AttributeType.widen_of_isWider hw⟩
    | false => exact ⟨_, AttributeType.widen_of_not_isWider ha.1 hb.1 hw⟩
  refine ⟨wider, hwiden, fun hnot => ?_, fun hnarrows => ?_⟩
  · rw [hrun, apply_static htype ha hb hwiden hnot]
  · obtain ⟨hnumeric, hwider⟩ := isWider_of_narrows htype ha hb hwiden hnarrows
    refine ⟨hwider, hrun, ?_⟩
    rw [hrun, Prod.mk.injEq, and_iff_left rfl]
    exact apply_eq_apply_iff hnumeric hwiden hwider

namespace Readings

/-- A layout with an untyped attribute beside an integer and a double. -/
def slots : Layout := .single ⟨"Reading", [⟨"x", .object⟩, ⟨"y", .int⟩, ⟨"z", .double⟩]⟩

def noRows : SourceRows := fun _ => []

def reading (x y z : Value) : Frame := .single (.current 0 [x, y, z])

/-- The compiled sum of the untyped attribute and another one. -/
def sumWith (position : Nat) (type : AttributeType) : Code :=
  .arith .add (.read 0 0 .object) (.read 0 position type) type

theorem code_sumWith_y :
    code .standard (.arith .add (.named "x") (.named "y")) slots 0 = .ok (sumWith 1 .int, 0) := rfl

theorem code_sumWith_z :
    code .standard (.arith .add (.named "x") (.named "z")) slots 0 = .ok (sumWith 2 .double, 0) :=
  rfl

def half : Number.Double := ⟨0x3FE0000000000000⟩

def fiveAndHalf : Number.Double := ⟨0x4016000000000000⟩

def oneAndHalf : Number.Double := ⟨0x3FF8000000000000⟩

def twoAndHalf : Number.Double := ⟨0x4004000000000000⟩

end Readings

open Readings

/-- An untyped five and a declared half are added as doubles. -/
theorem arith_widens_readings :
    code .standard (.arith .add (.named "x") (.named "z")) slots 0 = .ok (sumWith 2 .double, 0) ∧
      (sumWith 2 .double).run noRows (reading (.long 5) .null (.double half)) (.fresh 0) =
        (add.apply (.long 5) (.double half) .double, .fresh 0) ∧
      add.apply (.long 5) (.double half) .double = .ok (.double fiveAndHalf) := by
  obtain ⟨l, r, n', -, -, hsum, hrun⟩ := arith_widens code_sumWith_z
  cases hsum
  obtain ⟨wider, hwiden, hwide, -⟩ := hrun noRows (reading (.long 5) .null (.double half))
    (.fresh 0) (.fresh 0) (.fresh 0) (.long 5) (.double half) rfl rfl ⟨rfl, .inl rfl⟩
    ⟨rfl, .inr rfl⟩
  obtain rfl : wider = .double := Option.some.inj hwiden.symm
  refine ⟨code_sumWith_z, hwide ?_, by decide +kernel⟩
  rintro (⟨-, hwider⟩ | ⟨hobject, -⟩)
  · cases hwider
  · cases hobject

/-- An untyped one and a half is cut off where an integer is added to it. -/
theorem arith_narrows_readings :
    code .standard (.arith .add (.named "x") (.named "y")) slots 0 = .ok (sumWith 1 .int, 0) ∧
      (Value.double oneAndHalf).type.widen (Value.int 1).type = some .double ∧
      add.apply (.double oneAndHalf) (.int 1) .double = .ok (.double twoAndHalf) ∧
      (sumWith 1 .int).run noRows (reading (.double oneAndHalf) (.int 1) .null) (.fresh 0) =
        (.ok (.int 2), .fresh 0) := by
  refine ⟨code_sumWith_y, rfl, by decide +kernel, by decide +kernel⟩

end Compile

end EventQuery
