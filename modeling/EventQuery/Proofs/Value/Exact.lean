import EventQuery.Proofs.Number.Comparison
import EventQuery.Proofs.Value.Order
import Mathlib.Data.Rat.Cast.Order
import Mathlib.Order.WithBot
import Mathlib.Tactic.GCongr

/-!
The order of values as the order of exact numbers. `Value.number?` is the rational or infinite
number that a value denotes, read off its own format, and `Value.machineOrder` compares values by
the operations of their machine types. `order_lawful` puts together that the two agree with the
total order of values, that the order is lawful, and that equality, the order of conditions and
hashing follow it.
-/

namespace EventQuery

namespace Number

/-- A rational number or an infinity. -/
abbrev Exact := WithBot (WithTop ℚ)

def Exact.ofRat (q : ℚ) : Exact := WithBot.some (WithTop.some q)

@[simp] theorem Exact.ofRat_lt_ofRat {p q : ℚ} : ofRat p < ofRat q ↔ p < q := by
  rw [ofRat, ofRat, WithBot.coe_lt_coe, WithTop.coe_lt_coe]

/-- The number that a datum denotes, the unit of its format being two to the power of minus
`shift`. -/
def Datum.number? (shift : Nat) : Datum → Option Exact
  | .finite negative units => some (.ofRat (signed negative units / 2 ^ shift))
  | .infinite negative => some (if negative then ⊥ else ⊤)
  | .nan .. => none

/-- A rank among all numbers is that of an exact number. -/
inductive RankOf : Exact → Int × Int → Prop
  | below : RankOf ⊥ (-1, 0)
  | units (n : Int) : RankOf (.ofRat (n / 2 ^ Format.double.unitShift)) (0, n)
  | above : RankOf ⊤ (1, 0)

/-- Ranks are compared as the numbers are. -/
theorem RankOf.compare_eq {x y : Exact} {r s : Int × Int} (hx : RankOf x r) (hy : RankOf y s) :
    compare x y = Value.compareRanks r s := by
  have hlt {x y : Exact} {r s : Int × Int} (h : x < y) (hrank : r.1 < s.1) :
      compare x y = Value.compareRanks r s ∧ compare y x = Value.compareRanks s r :=
    ⟨(compare_lt_iff_lt.2 h).trans (compareRanks_of_lt hrank).symm,
      (compare_gt_iff_gt.2 h).trans (compareRanks_of_gt hrank).symm⟩
  have hscale : (0 : ℚ) < 2 ^ Format.double.unitShift := by positivity
  cases hx <;> cases hy
  case units.units m n =>
    rw [compareRanks_same]
    rcases lt_trichotomy m n with h | rfl | h
    · rw [Int.compare_eq_lt.2 h, compare_lt_iff_lt, Exact.ofRat_lt_ofRat]
      gcongr
    · rw [Int.compare_eq_eq.2 rfl, compare_eq_iff_eq]
    · rw [Int.compare_eq_gt.2 h, compare_gt_iff_gt, Exact.ofRat_lt_ofRat]
      gcongr
  case below.below => exact compare_eq_iff_eq.2 rfl
  case above.above => exact compare_eq_iff_eq.2 rfl
  case below.units n => exact (hlt (WithBot.bot_lt_coe _) (by simp)).1
  case below.above => exact (hlt (WithBot.bot_lt_coe _) (by simp)).1
  case units.above n => exact (hlt (WithBot.coe_lt_coe.2 (WithTop.coe_lt_top _)) (by simp)).1
  case units.below n => exact (hlt (WithBot.bot_lt_coe _) (by simp)).2
  case above.below => exact (hlt (WithBot.bot_lt_coe _) (by simp)).2
  case above.units n => exact (hlt (WithBot.coe_lt_coe.2 (WithTop.coe_lt_top _)) (by simp)).2

theorem rankOf_datum {d : Datum} {x : Exact} (h : d.number? Format.double.unitShift = some x) :
    RankOf x d.rank := by
  cases d with
  | finite negative units =>
      cases h
      exact .units _
  | infinite negative =>
      cases h
      cases negative
      · exact .above
      · exact .below
  | nan negative payload => cases h

theorem rankOf_int (i : Int) : RankOf (.ofRat i) (rankOfInt i) := by
  have hunits : (i : ℚ) = ((i * (2 ^ Format.double.unitShift : Nat) : Int) : ℚ) /
      2 ^ Format.double.unitShift := by
    rw [Int.cast_mul, Int.cast_natCast, Nat.cast_pow, Nat.cast_ofNat]
    exact (mul_div_cancel_right₀ _ (by positivity)).symm
  rw [hunits, rankOfInt, pow2_eq]
  exact .units _

/-- The double of a single denotes the number of the single. -/
theorem rankOf_toDouble {s : Single} {x : Exact}
    (h : s.datum.number? Format.single.unitShift = some x) : RankOf x s.toDouble.rank := by
  obtain ⟨shift, hunit⟩ : ∃ shift, Format.double.unitShift = shift + Format.single.unitShift :=
    ⟨925, by decide⟩
  have hnumber : s.datum.isNaN = false := by
    cases hdatum : s.datum with
    | nan negative payload => rw [hdatum] at h; cases h
    | _ => rfl
  refine rankOf_datum ?_
  rw [Single.datum_toDouble hunit hnumber, ← h]
  cases s.datum with
  | finite negative units =>
      have hsigned :
          (signed negative (units * 2 ^ shift) : ℚ) = signed negative units * 2 ^ shift := by
        unfold signed
        split <;> push_cast <;> ring
      have hratio : (signed negative (units * 2 ^ shift) : ℚ) / 2 ^ Format.double.unitShift =
          signed negative units / 2 ^ Format.single.unitShift := by
        rw [hsigned, hunit, pow_add, mul_comm ((2 : ℚ) ^ shift),
          mul_div_mul_right _ _ (by positivity)]
      rw [Datum.scaled, Datum.number?, Datum.number?, hratio]
  | _ => rfl

end Number

namespace Value

open Number

/-- What a floating point value denotes. -/
def datum? : Value → Option Datum
  | .float x => some x.datum
  | .double x => some x.datum
  | _ => none

def isZero (v : Value) : Bool := v.datum?.any Datum.isZero

def isNaN (v : Value) : Bool := v.datum?.any Datum.isNaN

/-- The number that a value denotes. Not-a-numbers and values of other kinds denote none. -/
def number? : Value → Option Exact
  | .int i => some (.ofRat i.toInt)
  | .long l => some (.ofRat l.toInt)
  | .float x => x.datum.number? Format.single.unitShift
  | .double x => x.datum.number? Format.double.unitShift
  | .null | .bool _ | .string _ => none

/-- Compare numbers: integers as integers, an integer with a double by the whole part of the double,
and other numbers as doubles. -/
def machineNumberOrder (a b : Value) : Ordering :=
  match a.asLong, b.asLong with
  | some i, some j => compare i.toInt j.toInt
  | some i, none => compareLongDouble i (b.asDouble.getD .zero)
  | none, some j => (compareLongDouble j (a.asDouble.getD .zero)).swap
  | none, none => compareDoubles (a.asDouble.getD .zero) (b.asDouble.getD .zero)

/-- Compare values by kind, and values of one kind by the operations of their types. -/
def machineOrder (a b : Value) : Ordering :=
  if a.kind ≠ b.kind then compare a.kind.rank b.kind.rank
  else
    match a, b with
    | .bool x, .bool y => compare x y
    | .string x, .string y => compare x y
    | .null, .null => .eq
    | a, b => machineNumberOrder a b

theorem rankOf_exact {a : Value} {x : Exact} (h : a.number? = some x) : RankOf x a.numberRank := by
  cases a with
  | int i =>
      cases h
      exact rankOf_int _
  | long l =>
      cases h
      exact rankOf_int _
  | float s => exact rankOf_toDouble h
  | double d => exact rankOf_datum h
  | _ => cases h

/-- All values of numeric types denote a number, except the not-a-numbers. -/
theorem number?_eq_none {a : Value} : a.number? = none ↔ a.kind ≠ .numeric ∨ a.isNaN = true := by
  have hdatum (shift : Nat) (d : Datum) : d.number? shift = none ↔ d.isNaN = true := by
    cases d <;> simp [Datum.number?, Datum.isNaN]
  cases a <;> simp [number?, kind, isNaN, datum?, hdatum]

theorem kind_of_exact {a : Value} {x : Exact} (h : a.number? = some x) : a.kind = .numeric := by
  cases a with
  | null | bool _ | string _ => cases h
  | _ => rfl

/-- Numbers are in the order of their ranks. -/
theorem order_of_numeric {a b : Value} (ha : a.kind = .numeric) (hb : b.kind = .numeric) :
    a.order b = compareRanks a.numberRank b.numberRank := by
  rw [order, ha, hb]
  cases a with
  | null | bool _ | string _ => cases ha
  | _ => rfl

/-- An integer has the rank of its content, and any other number that of its double. -/
theorem numberRank_eq {a : Value} (h : a.kind = .numeric) :
    a.numberRank = match a.asLong with
      | some i => rankOfInt i.toInt
      | none => (a.asDouble.getD .zero).rank := by
  cases a with
  | null | bool _ | string _ => cases h
  | int i => exact congrArg rankOfInt i.toInt_toInt64.symm
  | long _ | float _ | double _ => rfl

theorem machineNumberOrder_eq {a b : Value} (ha : a.kind = .numeric) (hb : b.kind = .numeric) :
    machineNumberOrder a b = compareRanks a.numberRank b.numberRank := by
  rw [numberRank_eq ha, numberRank_eq hb, machineNumberOrder]
  cases a.asLong <;> cases b.asLong
  · exact compareDoubles_eq _ _
  · exact (congrArg Ordering.swap (compareLongDouble_eq _ _)).trans (compareRanks_swap _ _)
  · exact compareLongDouble_eq _ _
  · exact (compareRanks_rankOfInt _ _).symm

/-- Comparing by the operations of the machine types is comparing exactly. -/
theorem machineOrder_eq (a b : Value) : a.machineOrder b = a.order b := by
  unfold machineOrder
  split
  · rename_i hkind
    have hrank : a.kind.rank ≠ b.kind.rank := by
      revert hkind
      cases a.kind <;> cases b.kind <;> decide
    rw [order]
    cases hcompare : compare a.kind.rank b.kind.rank with
    | eq => exact absurd (Nat.compare_eq_eq.1 hcompare) hrank
    | _ => rfl
  · rename_i hkind
    replace hkind := Decidable.not_not.1 hkind
    cases hnumeric : a.kind with
    | numeric =>
        have hother := hkind.symm.trans hnumeric
        rw [order_of_numeric hnumeric hother, ← machineNumberOrder_eq hnumeric hother]
        cases a with
        | null | bool _ | string _ => cases hnumeric
        | _ => rfl
    | _ =>
        -- The contents of the other kinds are compared as they are.
        cases a
        all_goals cases hnumeric
        all_goals
          cases b
          all_goals cases hkind
          rfl

/-! ### Hashing -/

theorem hashWord_congr {x y : Double} (h : x.rank = y.rank) : hashWord x = hashWord y := by
  have hzero {z : Double} (hz : z.datum.isZero = true) : hashWord z = 0 := by
    unfold hashWord
    cases hdatum : z.datum with
    | finite negative units =>
        obtain rfl : units = 0 := by simpa [hdatum, Datum.isZero] using hz
        rfl
    | _ => rw [hdatum] at hz; cases hz
  rcases Double.rank_eq_iff.1 h with rfl | ⟨hx, hy⟩
  · rfl
  · rw [hzero hx, hzero hy]

/-- A number is hashed as the double of its rank, if there is one. -/
theorem hashData_of_numeric {a : Value} (h : a.kind = .numeric) :
    a.hashData = .number (hashWord (a.asDouble.getD .zero)) := by
  cases a with
  | null | bool _ | string _ => cases h
  | _ => rfl

/-- Equal numbers have doubles of one rank: those of integers are equal, and an integer that equals
a double is not rounded. -/
theorem rank_asDouble_congr {a b : Value} (ha : a.kind = .numeric) (hb : b.kind = .numeric)
    (h : a.numberRank = b.numberRank) :
    (a.asDouble.getD .zero).rank = (b.asDouble.getD .zero).rank := by
  rw [numberRank_eq ha, numberRank_eq hb] at h
  cases hi : a.asLong with
  | some i =>
      cases hj : b.asLong with
      | some j =>
          rw [hi, hj] at h
          rw [asDouble_of_asLong hi, asDouble_of_asLong hj, rankOfInt_inj h]
      | none =>
          rw [hi, hj] at h
          replace h : rankOfInt i.toInt = (b.asDouble.getD .zero).rank := h
          rw [asDouble_of_asLong hi, Option.getD_some, Double.rank_ofInt_of_rank h.symm, h]
  | none =>
      cases hj : b.asLong with
      | some j =>
          rw [hi, hj] at h
          replace h : (a.asDouble.getD .zero).rank = rankOfInt j.toInt := h
          rw [asDouble_of_asLong hj, Option.getD_some, Double.rank_ofInt_of_rank h, h]
      | none =>
          rwa [hi, hj] at h

/-- Equal values give the same data to a hash table. -/
theorem hashData_congr {a b : Value} (h : a.same b = true) : a.hashData = b.hashData := by
  have hkind := kind_eq_of_same h
  have hcontent := contentOrder_of_same h
  cases hnumeric : a.kind with
  | numeric =>
      have hother := hkind.symm.trans hnumeric
      have hrank : a.numberRank = b.numberRank := by
        rw [← compareRanks_eq_iff, ← order_of_numeric hnumeric hother]
        exact same_iff.1 h
      rw [hashData_of_numeric hnumeric, hashData_of_numeric hother,
        hashWord_congr (rank_asDouble_congr hnumeric hother hrank)]
  | null => rw [eq_null_of_kind hnumeric, eq_null_of_kind (hkind.symm.trans hnumeric)]
  | bool =>
      cases a <;> cases hnumeric
      cases b <;> cases hkind
      rw [Std.compare_eq_iff_eq.1 hcontent]
  | string =>
      cases a <;> cases hnumeric
      cases b <;> cases hkind
      rw [Std.compare_eq_iff_eq.1 hcontent]

/-! ### The laws -/

/-- Values have one total order. It is reflexive, antisymmetric and transitive, it is what the
machine operations compute, and on numbers it is the order of the exact numbers. The order of
conditions, equality and hashing all follow it. -/
theorem order_lawful (a b c : Value) :
    a.order a = .eq ∧ b.order a = (a.order b).swap ∧
      ((a.order b).isLE → (b.order c).isLE → (a.order c).isLE) ∧
      a.machineOrder b = a.order b ∧
      (a.number? = none ↔ a.kind ≠ .numeric ∨ a.isNaN = true) ∧
      (∀ x y, a.number? = some x → b.number? = some y → a.order b = compare x y) ∧
      (a.compare? b = none ↔ a = .null ∨ b = .null ∨ a.kind ≠ b.kind) ∧
      (∀ o, a.compare? b = some o → o = a.order b) ∧
      (a.same b = true ↔ a.order b = .eq) ∧
      (a.same b = true → a.hashData = b.hashData) := by
  refine ⟨order_self a, (order_swap a b).symm, Std.TransCmp.isLE_trans, machineOrder_eq a b,
    number?_eq_none, ?_, compare?_eq_none, ?_, same_iff, hashData_congr⟩
  · intro x y hx hy
    rw [order_of_numeric (kind_of_exact hx) (kind_of_exact hy)]
    exact ((rankOf_exact hx).compare_eq (rankOf_exact hy)).symm
  · intro o ho
    unfold compare? at ho
    split at ho
    · cases ho
    · exact (Option.some.inj ho).symm

/-- The least integer that is no double lies above the double below it, as the numbers do. The
lowest integer equals its double and hashes like it. -/
theorem order_lawful_beyond_doubles :
    order (.double (.ofInt (2 ^ 53))) (.long (2 ^ 53 + 1)) = .lt ∧
      order (.double (.ofInt (2 ^ 53))) (.long (2 ^ 53 + 1)) =
        compare (Exact.ofRat (2 ^ 53)) (Exact.ofRat (2 ^ 53 + 1)) ∧
      (order (.double (.ofInt (2 ^ 53))) (.string "")).isLE ∧
      hashData (.long Int64.minValue) = hashData (.double minusTwoPow63) := by
  obtain ⟨-, -, htrans, hmachine, -, hexact, -⟩ :=
    order_lawful (.double (.ofInt (2 ^ 53))) (.long (2 ^ 53 + 1)) (.string "")
  obtain ⟨-, -, -, -, -, -, -, -, -, hhash⟩ :=
    order_lawful (.long Int64.minValue) (.double minusTwoPow63) .null
  have hbelow : order (.double (.ofInt (2 ^ 53))) (.long (2 ^ 53 + 1)) = .lt := by
    rw [← hmachine]
    decide +kernel
  have hdouble : number? (.double (.ofInt (2 ^ 53))) = some (.ofRat (2 ^ 53)) := by
    have hdatum : (Double.ofInt (2 ^ 53)).datum =
        .finite false (2 ^ 53 * 2 ^ Format.double.unitShift) := by decide +kernel
    rw [number?, hdatum, Datum.number?, signed, if_neg Bool.false_ne_true]
    push_cast
    rw [mul_div_cancel_right₀ _ (by positivity)]
    norm_num
  have hlong : number? (.long (2 ^ 53 + 1)) = some (.ofRat (2 ^ 53 + 1)) := by
    have hcontent : (2 ^ 53 + 1 : Int64).toInt = 2 ^ 53 + 1 := by decide
    rw [number?, hcontent]
    norm_num
  exact ⟨hbelow, hexact _ _ hdouble hlong, htrans (by rw [hbelow]; rfl) (by decide),
    hhash (by decide +kernel)⟩

end Value

end EventQuery
