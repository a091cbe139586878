import EventQuery.Eval.Code
import Mathlib.Control.Monad.Basic

/-!
Code without aggregates. It neither reads nor changes the memory, so its evaluation is a plain
function from frames to values or errors, `Code.value`.
-/

namespace EventQuery

instance {ε α : Type} [DecidableEq ε] [DecidableEq α] (run : Run ε α) (m : Memory)
    (result : Except ε α × Memory) :
    Decidable (run m = result) :=
  (inferInstance : DecidableEq (Except ε α × Memory)) (run m) result

namespace Run

variable {ε ε' α β : Type}

theorem run_ofExcept (r : Except ε α) (m : Memory) : (ofExcept r : Run ε α) m = (r, m) := by
  cases r <;> rfl

@[simp] theorem ofExcept_ok_bind (a : α) (k : α → Run ε β) : (ofExcept (.ok a) >>= k) = k a := rfl

@[simp] theorem ok_bind (a : α) (k : α → Except ε β) : ((.ok a : Except ε α) >>= k) = k a := rfl

theorem bind_eq_ok {x : Except ε α} {k : α → Except ε β} {b : β} :
    (x >>= k) = .ok b ↔ ∃ a, x = .ok a ∧ k a = .ok b := by
  cases x <;> simp [bind, Except.bind]

/-- A computation that succeeds has succeeded in its first part. -/
theorem of_run_bind {x : Run ε α} {k : α → Run ε β} {m m' : Memory} {b : β}
    (h : (x >>= k) m = (.ok b, m')) :
    ∃ a m₁, x m = (.ok a, m₁) ∧ k a m₁ = (.ok b, m') := by
  change ExceptT.bindCont k (x m).1 (x m).2 = _ at h
  rcases hx : x m with ⟨e | a, m₁⟩
  · rw [hx] at h
    cases h
  · rw [hx] at h
    exact ⟨a, m₁, rfl, h⟩

theorem of_run_mapError {g : ε → ε'} {x : Run ε α} {m m' : Memory} {a : α}
    (h : mapError g x m = (.ok a, m')) :
    x m = (.ok a, m') := by
  unfold mapError at h
  rcases hx : x m with ⟨e | b, m₁⟩
  · rw [hx] at h
    cases h
  · rw [hx] at h
    cases h
    rfl

theorem of_run_ofExcept {r : Except ε α} {m m' : Memory} {a : α}
    (h : (ofExcept r : Run ε α) m = (.ok a, m')) :
    r = .ok a ∧ m' = m := by
  rw [run_ofExcept] at h
  cases h
  exact ⟨rfl, rfl⟩

@[simp] theorem mapError_ofExcept (g : ε → ε') (r : Except ε α) :
    mapError g (ofExcept r) = ofExcept (r.mapError g) := by
  cases r <;> rfl

/-- Whether some element passes a test that may fail; the elements after the first that passes are
not tested. -/
def anyPasses (test : α → Except ε Bool) : List α → Except ε Bool
  | [] => .ok false
  | a :: rest => do
    if ← test a then return true
    anyPasses test rest

/-- The elements that pass a test that may fail. -/
def passing (test : α → Except ε Bool) : List α → Except ε (List α)
  | [] => .ok []
  | a :: rest => do
    let passes ← test a
    let others ← passing test rest
    return if passes then a :: others else others

theorem anyM_ofExcept {test : α → Run ε Bool} {test' : α → Except ε Bool} {as : List α}
    (h : ∀ a ∈ as, test a = ofExcept (test' a)) : anyM test as = ofExcept (anyPasses test' as) := by
  induction as with
  | nil => rfl
  | cons a rest ih =>
      have hrest := ih fun b hb => h b (List.mem_cons_of_mem _ hb)
      simp only [anyM, anyPasses, h a List.mem_cons_self, hrest]
      cases test' a with
      | error e => rfl
      | ok passes => cases passes <;> rfl

theorem filterM_ofExcept {test : α → Run ε Bool} {test' : α → Except ε Bool} {as : List α}
    (h : ∀ a ∈ as, test a = ofExcept (test' a)) :
    filterM test as = ofExcept (passing test' as) := by
  induction as with
  | nil => rfl
  | cons a rest ih =>
      have hrest := ih fun b hb => h b (List.mem_cons_of_mem _ hb)
      simp only [filterM, passing, h a List.mem_cons_self, hrest]
      cases test' a with
      | error e => rfl
      | ok passes => cases passing test' rest <;> rfl

theorem filterM_pure {test : α → Run ε Bool} {p : α → Bool} {as : List α}
    (h : ∀ a ∈ as, test a = pure (p a)) :
    filterM test as = pure (as.filter p) := by
  induction as with
  | nil => rfl
  | cons a rest ih =>
      rw [filterM, h a List.mem_cons_self, pure_bind,
        ih fun b hb => h b (List.mem_cons_of_mem _ hb), pure_bind, List.filter_cons]

/-- A filter succeeds where every test does. -/
theorem exists_passing_iff {test : α → Except ε Bool} {as : List α} :
    (∃ found, passing test as = .ok found) ↔ ∀ a ∈ as, ∃ passes, test a = .ok passes := by
  induction as with
  | nil => simp [passing]
  | cons a rest ih =>
      rw [List.forall_mem_cons, ← ih]
      simp only [passing]
      cases test a with
      | error e => simp [bind, Except.bind]
      | ok passes => cases passing test rest <;> simp [bind, Except.bind, pure, Except.pure]

theorem passing_eq_filter {test : α → Except ε Bool} {as found : List α}
    (h : passing test as = .ok found) :
    found = as.filter fun a => (test a).toOption == some true := by
  induction as generalizing found with
  | nil => simpa [passing] using h.symm
  | cons a rest ih =>
      simp only [passing] at h
      cases ha : test a with
      | error e => simp [ha, bind, Except.bind] at h
      | ok passes =>
          cases hrest : passing test rest with
          | error e => simp [ha, hrest, bind, Except.bind] at h
          | ok others =>
              rw [List.filter_cons, ← ih hrest, ha]
              cases passes <;> simpa [ha, hrest, bind, Except.bind, pure, Except.pure,
                Except.toOption] using h.symm

theorem mem_passing {test : α → Except ε Bool} {as found : List α}
    (h : passing test as = .ok found) (a : α) : a ∈ found ↔ a ∈ as ∧ test a = .ok true := by
  rw [passing_eq_filter h, List.mem_filter]
  cases test a <;> simp [Except.toOption]

/-- A filter fails as one of its tests does. -/
theorem exists_of_passing_eq_error {test : α → Except ε Bool} {as : List α} {e : ε}
    (h : passing test as = .error e) : ∃ a ∈ as, test a = .error e := by
  induction as with
  | nil => simp [passing] at h
  | cons a rest ih =>
      simp only [passing] at h
      cases ha : test a with
      | error e' =>
          obtain rfl : e' = e := by simpa [ha, bind, Except.bind] using h
          exact ⟨a, List.mem_cons_self, ha⟩
      | ok passes =>
          cases hrest : passing test rest with
          | error e' =>
              obtain rfl : e' = e := by simpa [ha, hrest, bind, Except.bind] using h
              obtain ⟨b, hb, hfail⟩ := ih hrest
              exact ⟨b, List.mem_cons_of_mem _ hb, hfail⟩
          | ok others => simp [ha, hrest, bind, Except.bind, pure, Except.pure] at h

/-- A filter whose tests all fail to pass finds nothing. -/
theorem passing_eq_nil {test : α → Except ε Bool} {as : List α}
    (h : ∀ a ∈ as, test a = .ok false) : passing test as = .ok [] := by
  induction as with
  | nil => rfl
  | cons a rest ih =>
      obtain ⟨ha, hrest⟩ := List.forall_mem_cons.1 h
      rw [passing, ha, ih hrest]
      rfl

/-- A filter fails with the only cause that its tests fail with. -/
theorem passing_eq_error {test : α → Except ε Bool} {as : List α} {x : ε}
    (h : ∀ a ∈ as, test a = .ok false ∨ test a = .error x) (hfails : ∃ a ∈ as, test a = .error x) :
    passing test as = .error x := by
  induction as with
  | nil => simp at hfails
  | cons a rest ih =>
      obtain ⟨ha, hrest⟩ := List.forall_mem_cons.1 h
      rcases ha with ha | ha
      · have hlater : ∃ b ∈ rest, test b = .error x := by simpa [ha] using hfails
        rw [passing, ha, ih hrest hlater]
        rfl
      · rw [passing, ha]
        rfl

end Run

namespace Code

mutual

/-- No aggregate occurs. -/
def isStateless : Code → Bool
  | .const _ | .read .. | .slotEmpty _ => true
  | .and l r | .or l r | .compare _ l r | .arith _ l r _ => isStateless l && isStateless r
  | .not e | .isNull e | .member e _ _ => isStateless e
  | .call _ args _ => allStateless args
  | .count _ | .fold .. => false

/-- No aggregate occurs in a list of arguments. -/
def allStateless : List Code → Bool
  | [] => true
  | c :: cs => isStateless c && allStateless cs

end

mutual

/-- The value of code without aggregates; that of an aggregate is left null here. -/
def value (rows : SourceRows) : Code → Frame → Except EvalError Value
  | .const v, _ => .ok v
  | .read slot position _, f => .ok (((f.slot slot).map (·.get position)).getD .null)
  | .and l r, f => do
    if (← value rows l f).isTrue then return .bool (← value rows r f).isTrue
    return .bool false
  | .or l r, f => do
    if (← value rows l f).isTrue then return .bool true
    return .bool (← value rows r f).isTrue
  | .not e, f => do return .bool (!(← value rows e f).isTrue)
  | .compare op l r, f => do
    let a ← value rows l f
    let b ← value rows r f
    return .bool (op.holds a b)
  | .arith op l r type, f => do
    let a ← value rows l f
    let b ← value rows r f
    op.apply a b type
  | .call fn args type, f => do
    let vs ← values rows args f
    let v ← fn.apply vs
    return conform type v
  | .count _, _ | .fold .., _ => .ok .null
  | .member condition source slot, f => do
    let found ← Run.anyPasses
      (fun row => do return (← value rows condition (f.setSlot slot (some row))).isTrue)
        (rows source)
    return .bool found
  | .isNull e, f => do return .bool (← value rows e f).isNull
  | .slotEmpty slot, f => .ok (.bool (f.slot slot).isNone)

/-- The values of a list of arguments. -/
def values (rows : SourceRows) : List Code → Frame → Except EvalError (List Value)
  | [], _ => .ok []
  | c :: cs, f => do
    let v ← value rows c f
    let vs ← values rows cs f
    return v :: vs

end

/-- The value as a condition: all but `true` is false. -/
def decision (rows : SourceRows) (c : Code) (f : Frame) : Except EvalError Bool := do
  return (← value rows c f).isTrue

mutual

/-- Code without aggregates runs as a plain function. -/
theorem run_eq_value (rows : SourceRows) :
    ∀ (c : Code) (f : Frame), c.isStateless = true → c.run rows f = Run.ofExcept (c.value rows f)
  | .const _, _, _ | .read .., _, _ | .slotEmpty _, _, _ => rfl
  | .and l r, f, h => by
      simp only [isStateless, Bool.and_eq_true] at h
      simp only [run, value, run_eq_value rows l f h.1, run_eq_value rows r f h.2]
      cases value rows l f with
      | error e => rfl
      | ok a =>
          simp only [Run.ofExcept_ok_bind, Run.ok_bind]
          cases a.isTrue <;> cases value rows r f <;> rfl
  | .or l r, f, h => by
      simp only [isStateless, Bool.and_eq_true] at h
      simp only [run, value, run_eq_value rows l f h.1, run_eq_value rows r f h.2]
      cases value rows l f with
      | error e => rfl
      | ok a =>
          simp only [Run.ofExcept_ok_bind, Run.ok_bind]
          cases a.isTrue <;> cases value rows r f <;> rfl
  | .not e, f, h => by
      simp only [run, value, run_eq_value rows e f h]
      cases value rows e f <;> rfl
  | .compare op l r, f, h => by
      simp only [isStateless, Bool.and_eq_true] at h
      simp only [run, value, run_eq_value rows l f h.1, run_eq_value rows r f h.2]
      cases value rows l f <;> cases value rows r f <;> rfl
  | .arith op l r type, f, h => by
      simp only [isStateless, Bool.and_eq_true] at h
      simp only [run, value, run_eq_value rows l f h.1, run_eq_value rows r f h.2]
      cases value rows l f <;> cases value rows r f <;> rfl
  | .call fn args type, f, h => by
      simp only [run, value, runAll_eq_values rows args f h]
      cases values rows args f with
      | error e => rfl
      | ok vs =>
          simp only [Run.ofExcept_ok_bind, Run.ok_bind]
          cases fn.apply vs <;> rfl
  | .member condition source slot, f, h => by
      have htest : ∀ row ∈ rows source,
          (do return (← run rows condition (f.setSlot slot (some row))).isTrue :
            Run EvalError Bool) =
            Run.ofExcept
              (do return (← value rows condition (f.setSlot slot (some row))).isTrue) := by
        intro row _
        rw [run_eq_value rows condition _ h]
        cases value rows condition (f.setSlot slot (some row)) <;> rfl
      simp only [run, value, Run.anyM_ofExcept htest]
      generalize Run.anyPasses _ (rows source) = found
      cases found <;> rfl
  | .isNull e, f, h => by
      simp only [run, value, run_eq_value rows e f h]
      cases value rows e f <;> rfl

theorem runAll_eq_values (rows : SourceRows) :
    ∀ (cs : List Code) (f : Frame), allStateless cs = true →
    runAll rows cs f = Run.ofExcept (values rows cs f)
  | [], _, _ => rfl
  | c :: cs, f, h => by
      simp only [allStateless, Bool.and_eq_true] at h
      simp only [runAll, values, run_eq_value rows c f h.1, runAll_eq_values rows cs f h.2]
      cases value rows c f <;> cases values rows cs f <;> rfl

end

theorem test_eq_decision {rows : SourceRows} {c : Code} (h : c.isStateless = true) (f : Frame) :
    c.test rows f = Run.ofExcept (c.decision rows f) := by
  simp only [test, decision, run_eq_value rows c f h]
  cases value rows c f <;> rfl

/-- The right side of a conjunction is evaluated only where the left one holds. -/
theorem decision_and {rows : SourceRows} {f : Frame} {l r : Code} :
    (Code.and l r).decision rows f =
      (do if ← l.decision rows f then r.decision rows f else return false) := by
  simp only [decision, value]
  cases l.value rows f with
  | error x => rfl
  | ok a =>
      simp only [Run.ok_bind, pure, Except.pure]
      cases a.isTrue
      · rfl
      · cases r.value rows f with
        | error x => rfl
        | ok b =>
            simp only [Run.ok_bind, if_true]
            cases b.isTrue <;> rfl

end Code

end EventQuery
