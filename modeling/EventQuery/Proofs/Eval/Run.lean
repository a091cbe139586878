import EventQuery.Proofs.Eval.Stateless

/-!
Computations over a memory, opened at a given memory: what a sequence of two computations does once
it is known what the first one does.
-/

namespace EventQuery

namespace Memory

variable {m : Memory} {a : Accumulator} {i j : Nat}

theorem read_write_self (h : i < m.cells.length) : (m.write i a).read i = a := by
  simp [read, write, List.getElem?_set_self h]

theorem read_write_of_ne (h : i ≠ j) : (m.write i a).read j = m.read j := by
  simp [read, write, List.getElem?_set_ne h]

@[simp] theorem length_write : (m.write i a).cells.length = m.cells.length := by simp [write]

@[simp] theorem read_fresh (n : Nat) : (fresh n).read i = .empty := by
  rw [read, fresh, List.getElem?_replicate]
  split <;> rfl

end Memory

namespace Run

variable {ε ε' α β : Type} {x : Run ε α} {k : α → Run ε β} {m m' : Memory} {a : α} {e : ε}

@[simp] theorem pure_apply (a : α) (m : Memory) : (pure a : Run ε α) m = (.ok a, m) := rfl

theorem state_bind (x : StateM Memory α) (k : α → StateM Memory β) (m : Memory) :
    (x >>= k) m = k (x m).1 (x m).2 := rfl

theorem bind_of_ok (h : x m = (.ok a, m')) : (x >>= k) m = k a m' := by
  change ExceptT.bindCont k (x m).1 (x m).2 = _
  rw [h]
  rfl

theorem bind_of_error (h : x m = (.error e, m')) : (x >>= k) m = (.error e, m') := by
  change ExceptT.bindCont k (x m).1 (x m).2 = _
  rw [h]
  rfl

theorem mapError_of_ok (f : ε → ε') (h : x m = (.ok a, m')) : mapError f x m = (.ok a, m') := by
  simp only [mapError, h]

theorem mapError_of_error (f : ε → ε') (h : x m = (.error e, m')) :
    mapError f x m = (.error (f e), m') := by
  simp only [mapError, h]

theorem mapError_bind (f : ε → ε') (x : Run ε α) (k : α → Run ε β) :
    mapError f (x >>= k) = mapError f x >>= fun a => mapError f (k a) := by
  funext m
  rcases hx : x m with ⟨e | a, m'⟩
  · rw [bind_of_error (mapError_of_error f hx), mapError_of_error f (bind_of_error hx)]
  · rw [bind_of_ok (mapError_of_ok f hx)]
    simp only [mapError, bind_of_ok hx]

/-- The elements that pass a test are listed in their order. -/
theorem sublist_filterM {test : α → Run ε Bool} {as found : List α}
    (h : filterM test as m = (.ok found, m')) : found.Sublist as := by
  induction as generalizing m found with
  | nil =>
      cases h
      exact .slnil
  | cons a rest ih =>
      obtain ⟨passes, m₁, -, h⟩ := of_run_bind h
      obtain ⟨others, m₂, hothers, h⟩ := of_run_bind h
      cases h
      have hrest := ih hothers
      cases passes
      · exact hrest.cons a
      · exact hrest.cons_cons a

/-- Where every test is decided, some element passes if the elements that pass are not none. -/
theorem anyPasses_of_passing {test : α → Except ε Bool} {as found : List α}
    (h : passing test as = .ok found) : anyPasses test as = .ok !found.isEmpty := by
  induction as generalizing found with
  | nil =>
      cases h
      rfl
  | cons a rest ih =>
      obtain ⟨passes, ha, h⟩ := bind_eq_ok.1 h
      obtain ⟨others, hrest, h⟩ := bind_eq_ok.1 h
      cases h
      simp only [anyPasses, ha, ok_bind]
      cases passes
      · exact ih hrest
      · rfl

end Run

namespace Accumulator

variable {a b : Accumulator} {added : Bool}

/-- A step moves the count by one, or the count has no room for it. -/
theorem step_cases (a : Accumulator) (added : Bool) :
    a.step added = .ok { a with count := if added then a.count + 1 else a.count - 1 } ∨
      a.step added = .error .overflow := by
  unfold step
  extract_lets count
  split
  · exact .inl rfl
  · exact .inr rfl

theorem step_count (h : a.step added = .ok b) :
    b = { a with count := if added then a.count + 1 else a.count - 1 } := by
  rcases step_cases a added with hstep | hstep <;> cases hstep.symm.trans h
  rfl

/-- Only the least integer cannot be taken away from a sum. -/
theorem addToSums_cases (a : Accumulator) (v : Value) (added : Bool) :
    (∃ sumLong sumDouble,
        a.addToSums v added = .ok { a with sumLong := sumLong, sumDouble := sumDouble }) ∨
      a.addToSums v added = .error .overflow ∧ added = false ∧ v.asLong = some Int64.minValue := by
  unfold addToSums
  cases v.asLong with
  | none => exact .inl ⟨_, _, rfl⟩
  | some l =>
      cases added with
      | true => exact .inl ⟨_, _, rfl⟩
      | false =>
          by_cases hleast : l = Int64.minValue
          · subst hleast
            exact .inr ⟨rfl, rfl, rfl⟩
          · dsimp only
            rw [if_neg hleast]
            exact .inl ⟨_, _, rfl⟩

end Accumulator

/-- An aggregate reads and writes its own cell, and leaves it alone where it fails. -/
theorem Code.runFold_eq {kind : FoldKind} {type : AttributeType} {cell : Nat} {added : Bool}
    {v : Value} {m : Memory} :
    runFold cell kind type added v m =
      match (m.read cell).fold kind v added with
      | .error e => (.error e, m)
      | .ok a => (.ok (a.result kind type), m.write cell a) := by
  change (do
    let a ← Run.ofExcept ((m.read cell).fold kind v added)
    Run.writeCell cell a
    return a.result kind type : Run EvalError Value) m = _
  cases (m.read cell).fold kind v added <;> rfl

/-- An evaluation gives a value for every code of a list. -/
theorem Code.length_runAll {rows : SourceRows} {cs : List Code} {f : Frame} {m m' : Memory}
    {vs : List Value} (h : runAll rows cs f m = (.ok vs, m')) : vs.length = cs.length := by
  induction cs generalizing m vs m' with
  | nil =>
      cases h
      rfl
  | cons c cs ih =>
      obtain ⟨v, _, -, h⟩ := Run.of_run_bind h
      obtain ⟨rest, _, hrest, h⟩ := Run.of_run_bind h
      cases h
      rw [List.length_cons, List.length_cons, ih hrest]

end EventQuery
