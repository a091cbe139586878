import EventQuery.Eval.Compile
import EventQuery.Proofs.Eval.Stateless
import Mathlib.Data.List.Forall2

/-!
Static types of scalar operations. Arithmetic and functions on values of their static types give a
value of the static type of the result, or they fail because of the data: a division by zero, a
malformed regular expression or a text that is no timestamp.
-/

namespace EventQuery

/-- A value of a static type: null, or of that type at run time. An untyped value is null. -/
def Value.HasType (v : Value) (type : AttributeType) : Prop := v = .null ∨ v.type = type

/-- The failures that depend on data rather than on types. -/
inductive EvalError.IsDataFault : EvalError → Prop where
  | divisionByZero : IsDataFault .divisionByZero
  | malformedRegex : IsDataFault (.invalidArgument "regex:matches" .malformedRegex)
  | invalidTimestamp (cause : TimeError) : IsDataFault (.invalidTimestamp cause)

/-- An outcome that typed expressions may have: a result that meets a condition, or a failure
because of data. An aggregate that overflows does not complete. -/
def Meets {α : Type} (post : α → Prop) : Except EvalError α → Prop
  | .ok a => post a
  | .error e => e = .overflow ∨ e.IsDataFault

theorem Meets.bind {α β : Type} {pre : α → Prop} {post : β → Prop} {x : Except EvalError α}
    {k : α → Except EvalError β} (hx : Meets pre x) (hk : ∀ a, pre a → Meets post (k a)) :
    Meets post (x >>= k) := by
  cases x with
  | error e => exact hx
  | ok a => exact hk a hx

theorem Meets.mono {α : Type} {pre post : α → Prop} {x : Except EvalError α} (hx : Meets pre x)
    (h : ∀ a, pre a → post a) : Meets post x := by
  cases x with
  | error e => exact hx
  | ok a => exact h a hx

namespace Value

variable {v w : Value} {t type : AttributeType}

@[simp] theorem hasType_null (type : AttributeType) : Value.null.HasType type := .inl rfl

@[simp] theorem hasType_type (v : Value) : v.HasType v.type := .inr rfl

@[simp] theorem hasType_bool (b : Bool) : (Value.bool b).HasType .bool := .inr rfl

theorem type_eq_object : v.type = .object ↔ v = .null := by cases v <;> simp [type]

theorem isNull_eq_false : v.isNull = false ↔ v ≠ .null := by cases v <;> simp [isNull]

theorem HasType.type_eq (h : v.HasType type) (hnull : v.isNull = false) : v.type = type :=
  h.resolve_left (isNull_eq_false.1 hnull)

theorem hasType_object : v.HasType .object ↔ v = .null := by
  rw [HasType, type_eq_object, or_self]

theorem hasType_string : v.HasType .string ↔ v = .null ∨ ∃ s, v = .string s := by
  cases v <;> simp [HasType, type]

/-- A number can be cast to every numeric type. -/
theorem exists_castNumeric (hv : v.type.isNumeric = true) (htype : type.isNumeric = true) :
    ∃ w, v.castNumeric type = some w ∧ w.type = type := by
  cases v <;> cases type <;> first | exact ⟨_, rfl, rfl⟩ | (cases hv; done) | cases htype

theorem exists_castLong (hv : v.type.isNumeric = true) :
    ∃ x, v.castNumeric .long = some (.long x) := by
  cases v <;> first | exact ⟨_, rfl⟩ | cases hv

theorem exists_asDouble (hv : v.type.isNumeric = true) : ∃ x, v.asDouble = some x := by
  cases v <;> first | exact ⟨_, rfl⟩ | cases hv

end Value

namespace AttributeType

variable {s t u : AttributeType}

theorem widen_eq_some (h : s.widen t = some u) :
    s.isNumeric = true ∧ t.isNumeric = true ∧ u.isNumeric = true := by
  cases s <;> cases t <;> cases h <;> exact ⟨rfl, rfl, rfl⟩

/-- A value of the first type becomes one of the second by a numeric cast or none. -/
def Adapts (s t : AttributeType) : Prop := s = .object ∨ s = t ∨ (s.isNumeric ∧ t.isNumeric)

theorem Adapts.refl (t : AttributeType) : t.Adapts t := .inr (.inl rfl)

theorem Adapts.trans (hst : s.Adapts t) (htu : t.Adapts u) : s.Adapts u := by
  rcases hst with rfl | rfl | ⟨hs, ht⟩
  · exact .inl rfl
  · exact htu
  · rcases htu with rfl | rfl | ⟨-, hu⟩
    · cases ht
    · exact .inr (.inr ⟨hs, ht⟩)
    · exact .inr (.inr ⟨hs, hu⟩)

end AttributeType

open AttributeType

/-- A value that adapts to the type of a result conforms to it. -/
theorem Code.conform_hasType {v : Value} {s t : AttributeType} (hv : v.HasType s) (h : s.Adapts t) :
    (Code.conform t v).HasType t := by
  rcases hv with rfl | rfl
  · cases t <;> exact .inl rfl
  · rcases h with hnull | rfl | ⟨hs, ht⟩
    · obtain rfl := Value.type_eq_object.1 hnull
      cases t <;> exact .inl rfl
    · simp [conform]
    · obtain ⟨w, hcast, hw⟩ := Value.exists_castNumeric hs ht
      unfold conform
      split
      · exact .inr (by rw [hcast, Option.getD_some, hw])
      · rename_i hsame
        exact .inr (by simpa [ht] using hsame)

theorem Code.conform_of_hasType {v : Value} {t : AttributeType} (hv : v.HasType t) :
    (Code.conform t v).HasType t := Code.conform_hasType hv (.refl t)

namespace Arithmetic

variable {op : Arithmetic} {a b : Value} {s t type : AttributeType}

theorem onLongs_meets (op : Arithmetic) (x y : Int64) : Meets (fun _ => True) (op.onLongs x y) := by
  cases op <;> simp only [onLongs]
  case divide | remainder =>
    split
    · exact .inr .divisionByZero
    · trivial
  all_goals trivial

/-- Numbers have a result in every numeric type. -/
theorem applyIn_meets (ha : a.type.isNumeric = true) (hb : b.type.isNumeric = true)
    (htype : type.isNumeric = true) : Meets (fun v => v.HasType type) (op.applyIn a b type) := by
  obtain ⟨i, hi⟩ := Value.exists_castLong ha
  obtain ⟨j, hj⟩ := Value.exists_castLong hb
  obtain ⟨x, hx⟩ := Value.exists_asDouble ha
  obtain ⟨y, hy⟩ := Value.exists_asDouble hb
  cases type with
  | int | long =>
      simp only [applyIn, hi, hj]
      exact (onLongs_meets op i j).bind fun _ _ => .inr rfl
  | float | double =>
      simp only [applyIn, hx, hy]
      exact .inr rfl
  | string | bool | object => cases htype

/-- Arithmetic on operands of their static types gives a value of the type of the expression. -/
theorem apply_meets (ha : a.HasType s) (hb : b.HasType t)
    (htype : Compile.arithType op s t = .ok type) :
    Meets (fun v => v.HasType type) (op.apply a b type) := by
  unfold apply
  split
  · exact Value.hasType_null type
  · rename_i hnull
    simp only [Bool.or_eq_true, not_or, Bool.not_eq_true] at hnull
    obtain rfl := ha.type_eq hnull.1
    obtain rfl := hb.type_eq hnull.2
    have hwiden : a.type.widen b.type = some type := by
      have hobject {v : Value} (hv : v.isNull = false) : v.type ≠ .object :=
        fun h => Value.isNull_eq_false.1 hv (Value.type_eq_object.1 h)
      simp only [Compile.arithType, hobject hnull.1, hobject hnull.2, decide_false, Bool.false_and,
        Bool.false_eq_true, if_false] at htype
      cases hwiden : a.type.widen b.type with
      | some wider =>
          rw [hwiden] at htype
          rw [Except.ok.inj htype]
      | none =>
          rw [hwiden] at htype
          cases htype
    obtain ⟨hat, hbt, htype⟩ := widen_eq_some hwiden
    have hne : type ≠ .object := by
      rintro rfl
      cases htype
    rw [if_neg hne]
    exact applyIn_meets hat hbt htype

end Arithmetic

theorem Arity.accepts_exactly {n count : Nat} :
    (Arity.exactly n).accepts count = true ↔ count = n := by
  change (decide (n ≤ count) && decide (count ≤ n)) = true ↔ count = n
  rw [Bool.and_eq_true, decide_eq_true_eq, decide_eq_true_eq]
  omega

namespace Builtin

variable {b : Builtin} {vs : List Value} {types : List AttributeType} {type : AttributeType}

/-! ### Functions that give one of their arguments -/

/-- The common type of a list is one that all its types adapt to. -/
theorem adapts_of_unifyFrom {common : AttributeType} (h : b.unifyFrom common types = .ok type) :
    common.Adapts type ∧ ∀ t ∈ types, t.Adapts type := by
  induction types generalizing common with
  | nil =>
      cases h
      exact ⟨.refl _, nofun⟩
  | cons t rest ih =>
      rw [List.forall_mem_cons]
      unfold unifyFrom at h
      split at h
      · rename_i hobject
        exact ⟨(ih h).1, .inl hobject, (ih h).2⟩
      split at h
      · rename_i hcommon
        refine ⟨?_, ih h⟩
        rcases Bool.or_eq_true_iff.1 hcommon with hobject | hsame
        · exact .inl (of_decide_eq_true hobject)
        · exact of_decide_eq_true hsame ▸ (ih h).1
      · cases hwiden : common.widen t with
        | none =>
            rw [hwiden] at h
            cases h
        | some wider =>
            rw [hwiden] at h
            obtain ⟨hcommon, ht, hwider⟩ := widen_eq_some hwiden
            obtain ⟨hadapts, hrest⟩ := ih h
            exact ⟨.trans (.inr (.inr ⟨hcommon, hwider⟩)) hadapts,
              .trans (.inr (.inr ⟨ht, hwider⟩)) hadapts, hrest⟩

/-- Of arguments that have a common type, each conforms to it. -/
theorem conform_of_unify (hvs : List.Forall₂ Value.HasType vs types)
    (h : b.unify types = .ok type) {v : Value} (hv : v = .null ∨ v ∈ vs) :
    (Code.conform type v).HasType type := by
  rcases hv with rfl | hv
  · exact Code.conform_hasType (Value.hasType_null type) (.refl type)
  · obtain ⟨i, hi, rfl⟩ := List.getElem_of_mem hv
    have hlength := hvs.length_eq
    exact Code.conform_hasType (hvs.get hi (hlength ▸ hi))
      ((adapts_of_unifyFrom h).2 _ (List.getElem_mem _))

theorem unify_of_unifyNumeric (h : b.unifyNumeric types = .ok type) : b.unify types = .ok type := by
  unfold unifyNumeric at h
  split at h
  · cases h
  · exact h

/-- A choice among values is one of them. -/
theorem foldl_choice_mem {choose : Value → Value → Value}
    (hchoose : ∀ v w, choose v w = v ∨ choose v w = w) (v : Value) (rest : List Value) :
    rest.foldl choose v ∈ v :: rest := by
  induction rest generalizing v with
  | nil => exact List.mem_singleton_self v
  | cons w rest ih =>
      rcases hchoose v w with h | h
      · rw [List.foldl_cons, h]
        exact List.cons_subset_cons v (List.subset_cons_self w rest) (ih v)
      · rw [List.foldl_cons, h]
        exact List.mem_cons_of_mem v (ih w)

theorem greatest_mem (vs : List Value) :
    (greatest vs).getD .null = .null ∨ (greatest vs).getD .null ∈ vs := by
  cases vs with
  | nil => exact .inl rfl
  | cons v rest => exact .inr (foldl_choice_mem (fun v w => by split <;> simp) v rest)

theorem least_mem (vs : List Value) :
    (least vs).getD .null = .null ∨ (least vs).getD .null ∈ vs := by
  cases vs with
  | nil => exact .inl rfl
  | cons v rest => exact .inr (foldl_choice_mem (fun v w => by split <;> simp) v rest)

theorem first_mem (vs : List Value) (test : Value → Bool) :
    (vs.find? test).getD .null = .null ∨ (vs.find? test).getD .null ∈ vs := by
  cases h : vs.find? test with
  | none => exact .inl rfl
  | some v => exact .inr (List.mem_of_find?_eq_some h)

/-! ### Functions of texts and instants -/

theorem hasType_of_expectType {v : Value} {found expected : AttributeType}
    (h : b.expectType found expected = .ok ()) (hv : v.HasType found) : v.HasType expected := by
  unfold expectType at h
  split at h
  · rename_i haccepted
    rcases Bool.or_eq_true_iff.1 haccepted with hsame | hobject
    · exact of_decide_eq_true hsame ▸ hv
    · rw [of_decide_eq_true hobject, Value.hasType_object] at hv
      exact .inl hv
  · cases h

theorem matchesWhole_meets (pattern text : String) :
    Meets (fun _ => True) (matchesWhole pattern text) := by
  unfold matchesWhole
  split
  · trivial
  · exact .inr .malformedRegex

/-- An instant is a text or an integer. -/
theorem toMillis_meets {v : Value} {t : AttributeType} (hv : v.HasType t)
    (htype : toMillis.resultType [t] = .ok type) :
    Meets (fun v => v.HasType type) (toMillis.apply [v]) := by
  have hlong : type = .long := by
    cases t <;> cases htype <;> rfl
  subst hlong
  rcases hv with rfl | rfl
  · exact Value.hasType_null _
  cases v with
  | string text =>
      simp only [apply]
      cases Time.parseTimestamp text with
      | ok millis => exact .inr rfl
      | error cause => exact .inr (.invalidTimestamp cause)
  | null => exact .inl rfl
  | int | long => exact .inr rfl
  | bool | float | double => cases htype

/-- A built-in function of arguments of their static types gives a value that conforms to the type
of the call. -/
theorem apply_meets (harity : b.arity.accepts vs.length = true)
    (hvs : List.Forall₂ Value.HasType vs types) (htype : b.resultType types = .ok type) :
    Meets (fun v => (Code.conform type v).HasType type) (b.apply vs) := by
  cases b with
  | coalesce => exact conform_of_unify hvs htype (first_mem vs _)
  | maximum =>
      exact conform_of_unify hvs (unify_of_unifyNumeric htype)
        ((greatest_mem _).imp_right fun h => (List.mem_filter.1 h).1)
  | minimum =>
      exact conform_of_unify hvs (unify_of_unifyNumeric htype)
        ((least_mem _).imp_right fun h => (List.mem_filter.1 h).1)
  | ifThenElse =>
      obtain ⟨condition, yes, no, rfl⟩ := List.length_eq_three.1 (Arity.accepts_exactly.1 harity)
      obtain _ | ⟨hcondition, hbranches⟩ := hvs
      obtain ⟨_, -, hunify⟩ := Run.bind_eq_ok.1 htype
      refine conform_of_unify hbranches hunify (.inr ?_)
      split <;> simp
  | concat =>
      cases htype
      refine Code.conform_of_hasType ?_
      split
      · exact Value.hasType_null _
      · exact .inr rfl
  | length =>
      obtain ⟨v, rfl⟩ := List.length_eq_one_iff.1 (Arity.accepts_exactly.1 harity)
      obtain _ | ⟨hv, _ | _⟩ := hvs
      obtain ⟨_, htext, htype⟩ := Run.bind_eq_ok.1 htype
      cases htype
      rcases Value.hasType_string.1 (hasType_of_expectType htext hv) with rfl | ⟨text, rfl⟩
      · exact Code.conform_of_hasType (Value.hasType_null _)
      · exact Code.conform_of_hasType (.inr rfl)
  | regexMatches =>
      obtain ⟨pattern, text, rfl⟩ := List.length_eq_two.1 (Arity.accepts_exactly.1 harity)
      obtain _ | ⟨hpattern, _ | ⟨htext, _ | _⟩⟩ := hvs
      obtain ⟨_, hpatternType, htype⟩ := Run.bind_eq_ok.1 htype
      obtain ⟨_, htextType, htype⟩ := Run.bind_eq_ok.1 htype
      cases htype
      rcases Value.hasType_string.1 (hasType_of_expectType hpatternType hpattern) with
        rfl | ⟨pattern, rfl⟩
      · exact Code.conform_of_hasType (Value.hasType_null _)
      rcases Value.hasType_string.1 (hasType_of_expectType htextType htext) with rfl | ⟨text, rfl⟩
      · exact Code.conform_of_hasType (Value.hasType_null _)
      exact (matchesWhole_meets pattern text).bind fun found _ =>
        Code.conform_of_hasType (Value.hasType_bool found)
  | toMillis =>
      obtain ⟨v, rfl⟩ := List.length_eq_one_iff.1 (Arity.accepts_exactly.1 harity)
      obtain _ | ⟨hv, _ | _⟩ := hvs
      exact (toMillis_meets hv htype).mono fun _ => Code.conform_of_hasType

end Builtin

/-- The values of a function follow its rule for types: arguments of types that it accepts give a
value that conforms to the type of the call, or a failure because of data. -/
def Function.IsTyped (f : Function) : Prop :=
  ∀ (vs : List Value) (types : List AttributeType) (type : AttributeType),
    f.arity.accepts vs.length = true → List.Forall₂ Value.HasType vs types →
      f.resultType types = .ok type →
      Meets (fun v => (Code.conform type v).HasType type) (f.apply vs)

theorem Function.isTyped_of_standard {f : Function} (h : f ∈ standard) : f.IsTyped := by
  obtain ⟨b, -, rfl⟩ := List.mem_map.1 h
  exact fun _ _ _ => Builtin.apply_meets

end EventQuery
