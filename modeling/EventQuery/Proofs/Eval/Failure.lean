import EventQuery.Proofs.Eval.Run
import EventQuery.Proofs.Eval.Soundness

/-!
Where evaluations fail. An evaluation fails exactly where it comes to a step that fails by itself:
an operator or a function on values that it has no result for, or an aggregate that cannot hold its
result. Everything above such a step passes the failure on.
-/

namespace EventQuery

namespace Run

variable {ε α β : Type} {m m' : Memory} {e : ε}

theorem bind_eq_error {x : Run ε α} {k : α → Run ε β} :
    (x >>= k) m = (.error e, m') ↔
      x m = (.error e, m') ∨ ∃ a m₁, x m = (.ok a, m₁) ∧ k a m₁ = (.error e, m') := by
  rcases hx : x m with ⟨y | a, m₁⟩
  · rw [bind_of_error hx]
    constructor
    · intro h
      cases h
      exact .inl rfl
    · rintro (h | ⟨a, m₂, h, -⟩)
      · cases h
        rfl
      · cases h
  · rw [bind_of_ok hx]
    refine ⟨fun h => .inr ⟨a, m₁, rfl, h⟩, ?_⟩
    rintro (h | ⟨b, m₂, h, hk⟩)
    · cases h
    · cases h
      exact hk

/-- A computation whose value is only wrapped fails where the computation does. -/
theorem map_eq_error {x : Run ε α} {g : α → β} :
    (do return g (← x) : Run ε β) m = (.error e, m') ↔ x m = (.error e, m') := by
  refine bind_eq_error.trans (or_iff_left ?_)
  rintro ⟨a, m₁, -, h⟩
  cases h

/-- A search for an element that passes ends at the first element whose test fails or passes. -/
theorem anyM_eq_iff {test : α → Run ε Bool} {as : List α} {r : Except ε Bool}
    (hr : r ≠ .ok false) :
    anyM test as m = (r, m') ↔
      ∃ before a after m₁, as = before ++ a :: after ∧ anyM test before m = (.ok false, m₁) ∧
        test a m₁ = (r, m') := by
  induction as generalizing m with
  | nil =>
      refine iff_of_false (fun h => hr (congrArg Prod.fst h).symm) ?_
      rintro ⟨before, a, after, m₁, h, -⟩
      simp at h
  | cons a rest ih =>
      constructor
      · intro h
        rcases hfirst : test a m with ⟨e | _ | _, m₁⟩
        · rw [anyM, bind_of_error hfirst] at h
          cases h
          exact ⟨[], a, rest, m, rfl, rfl, hfirst⟩
        · rw [anyM, bind_of_ok hfirst] at h
          obtain ⟨before, b, after, m₂, rfl, hbefore, hb⟩ := ih.1 h
          refine ⟨a :: before, b, after, m₂, rfl, ?_, hb⟩
          rw [anyM, bind_of_ok hfirst]
          exact hbefore
        · rw [anyM, bind_of_ok hfirst] at h
          cases h
          exact ⟨[], a, rest, m, rfl, rfl, hfirst⟩
      · rintro ⟨before, b, after, m₂, has, hbefore, hb⟩
        cases before with
        | nil =>
            obtain ⟨rfl, rfl⟩ := List.cons.inj has
            cases hbefore
            rcases r with e | _ | _
            · exact bind_of_error hb
            · exact absurd rfl hr
            · exact bind_of_ok hb
        | cons first before =>
            obtain ⟨rfl, rfl⟩ := List.cons.inj has
            obtain ⟨passes, m₁, hfirst, hbefore⟩ := of_run_bind hbefore
            cases passes with
            | true => cases hbefore
            | false =>
                rw [anyM, bind_of_ok hfirst]
                exact ih.2 ⟨before, b, after, m₂, rfl, hbefore, hb⟩

/-- A search for an element that passes fails at the first element whose test fails, where none
before it passes. -/
theorem anyM_eq_error {test : α → Run ε Bool} {as : List α} :
    anyM test as m = (.error e, m') ↔
      ∃ before a after m₁, as = before ++ a :: after ∧ anyM test before m = (.ok false, m₁) ∧
        test a m₁ = (.error e, m') :=
  anyM_eq_iff nofun

/-- A search finds the first element that passes, where the test of none before it fails. -/
theorem anyM_eq_true {test : α → Run ε Bool} {as : List α} :
    anyM test as m = (.ok true, m') ↔
      ∃ before a after m₁, as = before ++ a :: after ∧ anyM test before m = (.ok false, m₁) ∧
        test a m₁ = (.ok true, m') :=
  anyM_eq_iff nofun

/-- A filter fails at the first element whose test fails. -/
theorem filterM_eq_error {test : α → Run ε Bool} {as : List α} :
    filterM test as m = (.error e, m') ↔
      ∃ before a after passed m₁, as = before ++ a :: after ∧
        filterM test before m = (.ok passed, m₁) ∧ test a m₁ = (.error e, m') := by
  induction as generalizing m with
  | nil =>
      refine iff_of_false nofun ?_
      rintro ⟨before, a, after, passed, m₁, h, -⟩
      simp at h
  | cons a rest ih =>
      rw [filterM, bind_eq_error]
      constructor
      · rintro (hfirst | ⟨passes, m₁, hfirst, hrest⟩)
        · exact ⟨[], a, rest, [], m, rfl, rfl, hfirst⟩
        · obtain ⟨before, b, after, passed, m₂, rfl, hbefore, hb⟩ := ih.1 (map_eq_error.1 hrest)
          refine ⟨a :: before, b, after, if passes then a :: passed else passed, m₂, rfl, ?_, hb⟩
          rw [filterM, bind_of_ok hfirst, bind_of_ok hbefore]
          rfl
      · rintro ⟨before, b, after, passed, m₂, has, hbefore, hb⟩
        cases before with
        | nil =>
            obtain ⟨rfl, rfl⟩ := List.cons.inj has
            cases hbefore
            exact .inl hb
        | cons first before =>
            obtain ⟨rfl, rfl⟩ := List.cons.inj has
            obtain ⟨passes, m₁, hfirst, hbefore⟩ := of_run_bind hbefore
            obtain ⟨others, m₃, hbefore, hpure⟩ := of_run_bind hbefore
            cases hpure
            exact .inr ⟨passes, m₁, hfirst,
              map_eq_error.2 (ih.2 ⟨before, b, after, others, _, rfl, hbefore, hb⟩)⟩

end Run

/-- Arguments fail at the first one that fails. -/
theorem Code.runAll_eq_error {rows : SourceRows} {cs : List Code} {f : Frame} {m m' : Memory}
    {e : EvalError} :
    runAll rows cs f m = (.error e, m') ↔
      ∃ before c after vs m₁, cs = before ++ c :: after ∧
        runAll rows before f m = (.ok vs, m₁) ∧ c.run rows f m₁ = (.error e, m') := by
  induction cs generalizing m with
  | nil =>
      refine iff_of_false nofun ?_
      rintro ⟨before, c, after, vs, m₁, h, -⟩
      simp at h
  | cons c cs ih =>
      rw [runAll, Run.bind_eq_error]
      constructor
      · rintro (hfirst | ⟨v, m₁, hfirst, hrest⟩)
        · exact ⟨[], c, cs, [], m, rfl, rfl, hfirst⟩
        · rcases Run.bind_eq_error.1 hrest with hrest | ⟨vs, m₂, -, hpure⟩
          · obtain ⟨before, d, after, vs, m₂, rfl, hbefore, hd⟩ := ih.1 hrest
            refine ⟨c :: before, d, after, v :: vs, m₂, rfl, ?_, hd⟩
            rw [runAll, Run.bind_of_ok hfirst, Run.bind_of_ok hbefore]
            rfl
          · cases hpure
      · rintro ⟨before, d, after, vs, m₂, hcs, hbefore, hd⟩
        cases before with
        | nil =>
            obtain ⟨rfl, rfl⟩ := List.cons.inj hcs
            cases hbefore
            exact .inl hd
        | cons first before =>
            obtain ⟨rfl, rfl⟩ := List.cons.inj hcs
            obtain ⟨v, m₁, hfirst, hbefore⟩ := Run.of_run_bind hbefore
            obtain ⟨vs', m₄, hbefore, hpure⟩ := Run.of_run_bind hbefore
            cases hpure
            exact .inr ⟨v, m₁, hfirst, Run.bind_eq_error.2
              (.inl (ih.2 ⟨before, d, after, vs', _, rfl, hbefore, hd⟩))⟩

/-- Away from resets a count reads and writes its own cell, and leaves it alone where it fails. -/
theorem Code.runCount_eq {cell : Nat} {kind : EventKind} {m : Memory} (hkind : kind ≠ .reset) :
    runCount cell kind m =
      match (m.read cell).step (kind = .current) with
      | .error e => (.error e, m)
      | .ok a => (.ok (.long (.ofInt a.count)), m.write cell a) := by
  cases kind with
  | reset => exact absurd rfl hkind
  | current =>
      change (do
        let a ← Run.ofExcept ((m.read cell).step true)
        Run.writeCell cell a
        return .long (.ofInt a.count) : Run EvalError Value) m = _
      simp only [decide_true]
      cases (m.read cell).step true <;> rfl
  | expired =>
      change (do
        let a ← Run.ofExcept ((m.read cell).step false)
        Run.writeCell cell a
        return .long (.ofInt a.count) : Run EvalError Value) m = _
      simp only [reduceCtorEq, decide_false]
      cases (m.read cell).step false <;> rfl

namespace Evaluation

/-- The evaluation fails with an error. -/
def Fails (rows : SourceRows) (x : Evaluation) (e : EvalError) : Prop :=
  ∃ m, x.code.run rows x.frame x.memory = (.error e, m)

/-- A step of an evaluation fails by itself, after all that it calls has succeeded. -/
inductive FailsHere (rows : SourceRows) : Evaluation → EvalError → Prop where
  | arith {op : Arithmetic} {l r : Code} {type : AttributeType} {f : Frame} {m m₁ m₂ : Memory}
      {a b : Value} {e : EvalError} (hl : l.run rows f m = (.ok a, m₁))
      (hr : r.run rows f m₁ = (.ok b, m₂)) (h : op.apply a b type = .error e) :
      FailsHere rows ⟨.arith op l r type, f, m⟩ e
  | call {fn : Function} {args : List Code} {type : AttributeType} {f : Frame} {m m₁ : Memory}
      {vs : List Value} {e : EvalError} (hargs : Code.runAll rows args f m = (.ok vs, m₁))
      (h : fn.apply vs = .error e) : FailsHere rows ⟨.call fn args type, f, m⟩ e
  | count {cell : Nat} {f : Frame} {m : Memory} {e : EvalError} (hkind : f.kind ≠ .reset)
      (h : (m.read cell).step (f.kind = .current) = .error e) :
      FailsHere rows ⟨.count cell, f, m⟩ e
  | fold {kind : FoldKind} {argument : Code} {type : AttributeType} {cell : Nat} {f : Frame}
      {m m₁ : Memory} {v : Value} {e : EvalError} (hkind : f.kind ≠ .reset)
      (hargument : argument.run rows f m = (.ok v, m₁))
      (h : (m₁.read cell).fold kind v (f.kind = .current) = .error e) :
      FailsHere rows ⟨.fold kind argument type cell, f, m⟩ e

variable {rows : SourceRows} {x y : Evaluation} {e : EvalError}

theorem run_fold {kind : FoldKind} {argument : Code} {type : AttributeType} {cell : Nat} {f : Frame}
    (hkind : f.kind ≠ .reset) :
    (Code.fold kind argument type cell).run rows f =
      (do Code.runFold cell kind type (f.kind = .current) (← argument.run rows f)) := by
  rw [Code.run]
  cases h : f.kind with
  | reset => exact absurd h hkind
  | current => rfl
  | expired => rfl

/-- A step that fails by itself is an evaluation that fails. -/
theorem FailsHere.fails (h : FailsHere rows x e) : Fails rows x e := by
  cases h with
  | @arith op l r type f m m₁ m₂ a b e hl hr h =>
      refine ⟨m₂, ?_⟩
      change (Code.arith op l r type).run rows f m = _
      rw [Code.run, Run.bind_of_ok hl, Run.bind_of_ok hr, h]
      rfl
  | @call fn args type f m m₁ vs e hargs h =>
      refine ⟨m₁, ?_⟩
      change (Code.call fn args type).run rows f m = _
      rw [Code.run, Run.bind_of_ok hargs, h]
      rfl
  | @count cell f m e hkind h =>
      refine ⟨m, ?_⟩
      change (Code.count cell).run rows f m = _
      rw [Code.run, Code.runCount_eq hkind, h]
  | @fold kind argument type cell f m m₁ v e hkind hargument h =>
      refine ⟨m₁, ?_⟩
      change (Code.fold kind argument type cell).run rows f m = _
      rw [run_fold hkind, Run.bind_of_ok hargument, Code.runFold_eq, h]

/-- An evaluation passes on the failure of an evaluation that it calls. -/
theorem Calls.fails (h : Calls rows x y) (hy : Fails rows y e) : Fails rows x e := by
  obtain ⟨m', hy⟩ := hy
  refine ⟨m', ?_⟩
  cases h with
  | andLeft | orLeft | not | isNull | compareLeft | arithLeft =>
      dsimp only at hy ⊢
      rw [Code.run, Run.bind_of_error hy]
  | andRight hl htrue =>
      dsimp only at hy ⊢
      rw [Code.run, Run.bind_of_ok hl, htrue]
      exact Run.bind_of_error hy
  | orRight hl hfalse =>
      dsimp only at hy ⊢
      rw [Code.run, Run.bind_of_ok hl, hfalse]
      exact Run.bind_of_error hy
  | compareRight hl | arithRight hl =>
      dsimp only at hy ⊢
      rw [Code.run, Run.bind_of_ok hl, Run.bind_of_error hy]
  | @argument fn before after c type f m m₁ vs hbefore =>
      change (Code.call fn (before ++ c :: after) type).run rows f m = _
      rw [Code.run]
      exact Run.bind_of_error (Code.runAll_eq_error.2 ⟨before, c, after, vs, m₁, rfl, hbefore, hy⟩)
  | folded hkind =>
      dsimp only at hy ⊢
      rw [run_fold hkind, Run.bind_of_error hy]
  | @row condition source slot before after row f m m₁ hsource hbefore =>
      change (Code.member condition source slot).run rows f m = _
      have htest : condition.test rows (f.setSlot slot (some row)) m₁ = (.error e, m') := by
        rw [Code.test]
        exact Run.bind_of_error hy
      rw [Code.run]
      exact Run.bind_of_error
        (Run.anyM_eq_error.2 ⟨before, row, after, m₁, hsource, hbefore, htest⟩)

/-- A failure comes from an evaluation that is called, or from the step itself. -/
theorem Fails.cases (h : Fails rows x e) :
    FailsHere rows x e ∨ ∃ y, Calls rows x y ∧ Fails rows y e := by
  obtain ⟨c, f, m⟩ := x
  obtain ⟨m', h⟩ := h
  dsimp only at h
  cases c with
  | const v => cases h
  | read slot position type => cases h
  | slotEmpty slot => cases h
  | and l r =>
      rw [Code.run] at h
      rcases Run.bind_eq_error.1 h with hl | ⟨a, m₁, hl, h⟩
      · exact .inr ⟨_, .andLeft, m', hl⟩
      · cases htrue : a.isTrue with
        | false =>
            rw [htrue] at h
            cases h
        | true =>
            rw [htrue] at h
            exact .inr ⟨_, .andRight hl htrue, m', Run.map_eq_error.1 h⟩
  | or l r =>
      rw [Code.run] at h
      rcases Run.bind_eq_error.1 h with hl | ⟨a, m₁, hl, h⟩
      · exact .inr ⟨_, .orLeft, m', hl⟩
      · cases htrue : a.isTrue with
        | true =>
            rw [htrue] at h
            cases h
        | false =>
            rw [htrue] at h
            exact .inr ⟨_, .orRight hl htrue, m', Run.map_eq_error.1 h⟩
  | not c =>
      rw [Code.run] at h
      exact .inr ⟨_, .not, m', Run.map_eq_error.1 h⟩
  | isNull c =>
      rw [Code.run] at h
      exact .inr ⟨_, .isNull, m', Run.map_eq_error.1 h⟩
  | compare op l r =>
      rw [Code.run] at h
      rcases Run.bind_eq_error.1 h with hl | ⟨a, m₁, hl, h⟩
      · exact .inr ⟨_, .compareLeft, m', hl⟩
      · exact .inr ⟨_, .compareRight hl, m', Run.map_eq_error.1 h⟩
  | arith op l r type =>
      rw [Code.run] at h
      rcases Run.bind_eq_error.1 h with hl | ⟨a, m₁, hl, h⟩
      · exact .inr ⟨_, .arithLeft, m', hl⟩
      · rcases Run.bind_eq_error.1 h with hr | ⟨b, m₂, hr, h⟩
        · exact .inr ⟨_, .arithRight hl, m', hr⟩
        · rw [Run.run_ofExcept] at h
          exact .inl (.arith hl hr (Prod.mk.inj h).1)
  | call fn args type =>
      rw [Code.run] at h
      rcases Run.bind_eq_error.1 h with hargs | ⟨vs, m₁, hargs, h⟩
      · obtain ⟨before, c, after, vs, m₁, rfl, hbefore, hc⟩ := Code.runAll_eq_error.1 hargs
        exact .inr ⟨_, .argument hbefore, m', hc⟩
      · rw [Run.map_eq_error, Run.run_ofExcept] at h
        exact .inl (.call hargs (Prod.mk.inj h).1)
  | count cell =>
      rw [Code.run] at h
      by_cases hkind : f.kind = .reset
      · rw [hkind] at h
        cases h
      · rw [Code.runCount_eq hkind] at h
        cases hstep : (m.read cell).step (f.kind = .current) with
        | ok a =>
            rw [hstep] at h
            cases h
        | error e' =>
            rw [hstep] at h
            cases h
            exact .inl (.count hkind hstep)
  | fold kind argument type cell =>
      by_cases hkind : f.kind = .reset
      · rw [Code.run, hkind] at h
        cases h
      · rw [run_fold hkind] at h
        rcases Run.bind_eq_error.1 h with hargument | ⟨v, m₁, hargument, h⟩
        · exact .inr ⟨_, .folded hkind, m', hargument⟩
        · rw [Code.runFold_eq] at h
          cases hfold : (m₁.read cell).fold kind v (f.kind = .current) with
          | ok a =>
              rw [hfold] at h
              cases h
          | error e' =>
              rw [hfold] at h
              cases h
              exact .inl (.fold hkind hargument hfold)
  | member condition source slot =>
      rw [Code.run, Run.map_eq_error] at h
      obtain ⟨before, row, after, m₁, hsource, hbefore, htest⟩ := Run.anyM_eq_error.1 h
      exact .inr ⟨_, .row hsource hbefore, m', Run.map_eq_error.1 htest⟩

/-- The code of an evaluation that is called is a part of the code that calls it. -/
theorem Calls.sizeOf_lt (h : Calls rows x y) : sizeOf y.code < sizeOf x.code := by
  cases h with
  | @argument fn before after c type f m m₁ vs _ =>
      have hmem : c ∈ before ++ c :: after := by simp
      have hlt := List.sizeOf_lt_of_mem hmem
      simp only [Code.call.sizeOf_spec]
      omega
  | _ =>
      simp only [Code.and.sizeOf_spec, Code.or.sizeOf_spec, Code.not.sizeOf_spec,
        Code.isNull.sizeOf_spec, Code.compare.sizeOf_spec, Code.arith.sizeOf_spec,
        Code.fold.sizeOf_spec, Code.member.sizeOf_spec]
      omega

/-- An evaluation fails exactly where it comes to a step that fails by itself. -/
theorem fails_iff : Fails rows x e ↔ ∃ y, Reaches rows x y ∧ FailsHere rows y e := by
  constructor
  · intro h
    induction hn : sizeOf x.code using Nat.strongRecOn generalizing x with
    | ind n ih =>
        rcases h.cases with hhere | ⟨y, hcall, hy⟩
        · exact ⟨x, .refl, hhere⟩
        · obtain ⟨z, hyz, hz⟩ := ih _ (hn ▸ hcall.sizeOf_lt) hy rfl
          exact ⟨z, .head hcall hyz, hz⟩
  · rintro ⟨y, hreaches, hy⟩
    induction hreaches using Relation.ReflTransGen.head_induction_on with
    | refl => exact hy.fails
    | head hcall _ ih => exact hcall.fails ih

end Evaluation

end EventQuery
