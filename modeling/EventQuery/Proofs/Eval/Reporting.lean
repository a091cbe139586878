import EventQuery.Proofs.Eval.Acceptance

/-!
Computations that report their failures. A compilation always gives code or names what is wrong with
the expression, and so do the scalar functions and the arithmetic of values: none of them runs into
the overflow that only an aggregate can meet.
-/

namespace EventQuery

namespace Compile

open Allot

/-- A compilation gives a result or names what is wrong. -/
def Reports {α : Type} (x : Allot EvalError α) : Prop := ∀ n, x n ≠ .error .overflow

section Rules

variable {α β : Type} {x : Allot EvalError α} {k : α → Allot EvalError β}

theorem reports_pure (a : α) : Reports (pure a : Allot EvalError α) := nofun

theorem reports_throw {e : EvalError} (h : e ≠ .overflow) :
    Reports (throw e : Allot EvalError α) := fun _ heq => h (Except.error.inj heq)

theorem reports_lift {r : Except EvalError α} (h : r ≠ .error .overflow) :
    Reports (liftM r : Allot EvalError α) := by
  intro n heq
  cases r with
  | ok a => cases heq
  | error e =>
      cases heq
      exact h rfl

theorem Reports.bind (hx : Reports x) (hk : ∀ a, Reports (k a)) : Reports (x >>= k) := by
  intro n heq
  cases hrun : x n with
  | ok result => exact hk result.1 result.2 ((bind_of_ok hrun).symm.trans heq)
  | error e =>
      rw [bind_of_error hrun] at heq
      obtain rfl : e = .overflow := Except.error.inj heq
      exact hx n hrun

end Rules

theorem expectBool_ne_overflow (type : AttributeType) : expectBool type ≠ .error .overflow := by
  cases type <;> nofun

theorem checkComparable_ne_overflow (op : Comparison) (s t : AttributeType) :
    checkComparable op s t ≠ .error .overflow := by
  unfold checkComparable
  split <;> nofun

theorem arithType_ne_overflow (op : Arithmetic) (s t : AttributeType) :
    arithType op s t ≠ .error .overflow := by
  unfold arithType
  split
  · nofun
  split
  · nofun
  split <;> nofun

theorem resultType_ne_overflow (kind : FoldKind) (t : AttributeType) :
    kind.resultType t ≠ .error .overflow := by
  unfold FoldKind.resultType
  split <;> nofun

theorem check_ne_overflow (a : Arity) (name : String) (count : Nat) :
    a.check name count ≠ .error .overflow := by
  unfold Arity.check
  split <;> nofun

end Compile

namespace Builtin

theorem unifyFrom_ne_overflow (b : Builtin) (types : List AttributeType) :
    ∀ common, b.unifyFrom common types ≠ .error .overflow := by
  induction types with
  | nil => exact nofun
  | cons t rest ih =>
      intro common
      unfold unifyFrom
      split
      · exact ih common
      split
      · exact ih t
      split
      · exact ih _
      · nofun

theorem unifyNumeric_ne_overflow (b : Builtin) (types : List AttributeType) :
    b.unifyNumeric types ≠ .error .overflow := by
  unfold unifyNumeric
  split
  · nofun
  · exact unifyFrom_ne_overflow b types _

theorem expectType_eq (b : Builtin) (found expected : AttributeType) :
    b.expectType found expected = .ok () ∨
      b.expectType found expected =
        .error (.invalidArgument b.name (.wrongType expected found)) := by
  unfold expectType
  split
  · exact .inl rfl
  · exact .inr rfl

theorem expectType_bind_ne_overflow {α : Type} (b : Builtin) (found expected : AttributeType)
    {x : Except EvalError α} (h : x ≠ .error .overflow) :
    (do b.expectType found expected; x) ≠ .error .overflow := by
  rcases expectType_eq b found expected with hcheck | hcheck <;> rw [hcheck]
  · exact h
  · nofun

theorem resultType_ne_overflow (b : Builtin) (types : List AttributeType) :
    b.resultType types ≠ .error .overflow := by
  unfold resultType
  split
  · exact unifyFrom_ne_overflow _ _ _
  · exact expectType_bind_ne_overflow _ _ _ (unifyFrom_ne_overflow _ _ _)
  · exact unifyNumeric_ne_overflow _ _
  · exact unifyNumeric_ne_overflow _ _
  · nofun
  · exact expectType_bind_ne_overflow _ _ _ nofun
  · exact expectType_bind_ne_overflow _ _ _ (expectType_bind_ne_overflow _ _ _ nofun)
  · split <;> nofun
  · nofun

/-- The value of a built-in function is there, or a failure is reported. -/
theorem apply_ne_overflow (b : Builtin) (args : List Value) :
    b.apply args ≠ .error .overflow := by
  unfold apply
  split
  · nofun
  · nofun
  · nofun
  · nofun
  · nofun
  · nofun
  · unfold matchesWhole
    split <;> nofun
  · split <;> nofun
  · split
    · nofun
    · split <;> nofun
  · nofun

end Builtin

/-- A function completes: it has a type for every list of types and a value for every list of
values, or it reports a failure. -/
structure Function.Completes (f : Function) : Prop where
  resultType (types : List AttributeType) : f.resultType types ≠ .error .overflow
  apply (args : List Value) : f.apply args ≠ .error .overflow

theorem Function.completes_of_standard {f : Function} (h : f ∈ standard) : f.Completes := by
  obtain ⟨b, -, rfl⟩ := List.mem_map.1 h
  exact ⟨b.resultType_ne_overflow, b.apply_ne_overflow⟩

namespace Arithmetic

theorem onLongs_ne_overflow (op : Arithmetic) (a b : Int64) :
    op.onLongs a b ≠ .error .overflow := by
  cases op with
  | divide | remainder =>
      unfold onLongs
      dsimp only
      split <;> nofun
  | _ => nofun

theorem applyIn_ne_overflow (op : Arithmetic) (a b : Value) (target : AttributeType) :
    op.applyIn a b target ≠ .error .overflow := by
  have honLongs (x y : Int64) (result : Int64 → Value) :
      (do Except.ok (result (← op.onLongs x y))) ≠ .error EvalError.overflow := by
    cases h : op.onLongs x y with
    | ok l => nofun
    | error e =>
        intro heq
        cases heq
        exact onLongs_ne_overflow op x y h
  unfold applyIn
  split
  · split
    · exact honLongs _ _ fun l => if .int = AttributeType.int then .int l.toInt32 else .long l
    · nofun
  · split
    · exact honLongs _ _ fun l => if .long = AttributeType.int then .int l.toInt32 else .long l
    · nofun
  · split <;> nofun
  · split <;> nofun
  all_goals nofun

/-- Arithmetic has a result or reports a failure. -/
theorem apply_ne_overflow (op : Arithmetic) (a b : Value) (target : AttributeType) :
    op.apply a b target ≠ .error .overflow := by
  unfold apply
  split
  · nofun
  split
  · split
    · exact applyIn_ne_overflow _ _ _ _
    · nofun
  · exact applyIn_ne_overflow _ _ _ _

end Arithmetic

namespace Compile

theorem reports_aggregate (kind : AggregateKind) (args : List Code) :
    Reports (aggregate kind args) := by
  unfold aggregate
  split
  · exact Reports.bind nofun fun _ => reports_pure _
  · exact (reports_lift (resultType_ne_overflow _ _)).bind fun _ =>
      Reports.bind nofun fun _ => reports_pure _
  · exact reports_throw nofun

variable {context : Context}

mutual

/-- Every compilation over functions that complete gives code or reports a failure. -/
theorem reports_code (hcompletes : ∀ f ∈ context.functions, f.Completes) :
    ∀ (e : Expr) (layout : Layout), Reports (code context e layout)
  | .const v, layout => reports_pure _
  | .var v, layout => by
      simp only [code]
      cases layout.resolve v with
      | ok b => exact reports_pure _
      | error e => cases e <;> exact reports_throw nofun
  | .and l r, layout | .or l r, layout => by
      simp only [code]
      exact (reports_code hcompletes l layout).bind fun _ =>
        (reports_lift (expectBool_ne_overflow _)).bind fun _ =>
          (reports_code hcompletes r layout).bind fun _ =>
            (reports_lift (expectBool_ne_overflow _)).bind fun _ => reports_pure _
  | .not e, layout => by
      simp only [code]
      exact (reports_code hcompletes e layout).bind fun _ =>
        (reports_lift (expectBool_ne_overflow _)).bind fun _ => reports_pure _
  | .compare op l r, layout => by
      simp only [code]
      exact (reports_code hcompletes l layout).bind fun _ =>
        (reports_code hcompletes r layout).bind fun _ =>
          (reports_lift (checkComparable_ne_overflow _ _ _)).bind fun _ => reports_pure _
  | .arith op l r, layout => by
      simp only [code]
      exact (reports_code hcompletes l layout).bind fun _ =>
        (reports_code hcompletes r layout).bind fun _ =>
          (reports_lift (arithType_ne_overflow _ _ _)).bind fun _ => reports_pure _
  | .call space name args, layout => by
      simp only [code]
      split
      · split
        · exact reports_throw nofun
        · exact (reports_codes hcompletes args layout).bind fun _ => reports_aggregate _ _
      · split
        · exact reports_throw nofun
        · rename_i hf
          have hf := hcompletes _ (List.mem_of_find?_eq_some hf)
          exact (reports_lift (check_ne_overflow _ _ _)).bind fun _ =>
            (reports_codes hcompletes args layout).bind fun _ =>
              (reports_lift (hf.resultType _)).bind fun _ => reports_pure _
  | .member e source, layout => by
      simp only [code]
      split
      · exact reports_throw nofun
      · exact (reports_code hcompletes e _).bind fun _ =>
          (reports_lift (expectBool_ne_overflow _)).bind fun _ => reports_pure _
  | .isNull e, layout => by
      simp only [code]
      exact (reports_code hcompletes e layout).bind fun _ => reports_pure _
  | .slotEmpty stream, layout => by
      simp only [code]
      cases layout.slotOf stream with
      | some slot => exact reports_pure _
      | none => exact reports_throw nofun

theorem reports_codes (hcompletes : ∀ f ∈ context.functions, f.Completes) :
    ∀ (es : List Expr) (layout : Layout), Reports (codes context es layout)
  | [], layout => reports_pure _
  | e :: es, layout => by
      simp only [codes]
      exact (reports_code hcompletes e layout).bind fun _ =>
        (reports_codes hcompletes es layout).bind fun _ => reports_pure _

end

end Compile

end EventQuery
