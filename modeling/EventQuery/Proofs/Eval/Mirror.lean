import EventQuery.Proofs.Eval.Cells
import EventQuery.Proofs.Eval.Run

/-!
Two runs side by side. Code touches no cells but its own, so the same code over other cells does the
same, as long as the cells of the one correspond to those of the other. What else is known about the
two memories, such as that the cells of a third computation are left alone, is part of the relation
in which they stand.
-/

namespace EventQuery

variable {R : Memory → Memory → Prop} {σ : Nat → Nat} {ε ε' α β : Type}

/-- On related memories two computations give the same result, and they leave related memories. -/
structure Mirrors (R : Memory → Memory → Prop) (x y : StateM Memory α) : Prop where
  result : ∀ {m m'}, R m m' → (x m).1 = (y m').1
  memory : ∀ {m m'}, R m m' → R (x m).2 (y m').2

namespace Mirrors

theorem of_pure (a : α) : Mirrors R (pure a) (pure a) := ⟨fun _ => rfl, id⟩

theorem state_bind {x y : StateM Memory α} {k l : α → StateM Memory β} (hx : Mirrors R x y)
    (hk : ∀ a, Mirrors R (k a) (l a)) : Mirrors R (x >>= k) (y >>= l) where
  result {m m'} h := by
    rw [Run.state_bind, Run.state_bind, hx.result h]
    exact (hk _).result (hx.memory h)
  memory {m m'} h := by
    rw [Run.state_bind, Run.state_bind, hx.result h]
    exact (hk _).memory (hx.memory h)

theorem ok (a : α) : Mirrors R (pure a : Run ε α) (pure a : Run ε α) := ⟨fun _ => rfl, id⟩

theorem ofExcept (r : Except ε α) :
    Mirrors R (Run.ofExcept r : Run ε α) (Run.ofExcept r : Run ε α) := by
  constructor <;> intro m m' h <;> rw [Run.run_ofExcept, Run.run_ofExcept]
  exact h

theorem throw (e : ε) : Mirrors R (throw e : Run ε α) (throw e : Run ε α) := ofExcept (.error e)

theorem bind {x y : Run ε α} {k l : α → Run ε β} (hx : Mirrors R x y)
    (hk : ∀ a, Mirrors R (k a) (l a)) : Mirrors R (x >>= k : Run ε β) (y >>= l : Run ε β) := by
  refine state_bind (k := ExceptT.bindCont k) (l := ExceptT.bindCont l) hx fun result => ?_
  cases result with
  | ok a => exact hk a
  | error e => exact of_pure (Except.error e)

theorem mapError (f : ε → ε') {x y : Run ε α} (hx : Mirrors R x y) :
    Mirrors R (Run.mapError f x) (Run.mapError f y) := by
  have hstate (z : Run ε α) : Run.mapError f z =
      ((z.run >>= fun result => pure (result.mapError f) : StateM Memory (Except ε' α))) := by
    funext m
    change _ = ((z m).1.mapError f, (z m).2)
    unfold Run.mapError
    rcases z m with ⟨_ | _, _⟩ <;> rfl
  rw [hstate, hstate]
  exact state_bind hx fun result => of_pure _

theorem anyM {test test' : α → Run ε Bool} (h : ∀ a, Mirrors R (test a) (test' a)) (as : List α) :
    Mirrors R (Run.anyM test as) (Run.anyM test' as) := by
  induction as with
  | nil => exact ok false
  | cons a rest ih =>
      refine (h a).bind fun passes => ?_
      cases passes
      · exact ih
      · exact ok true

theorem filterM {test test' : α → Run ε Bool} (h : ∀ a, Mirrors R (test a) (test' a))
    (as : List α) : Mirrors R (Run.filterM test as) (Run.filterM test' as) := by
  induction as with
  | nil => exact ok []
  | cons a rest ih => exact (h a).bind fun passes => ih.bind fun others => ok _

/-- A computation that mirrors itself whatever the memories have in common does not depend on the
memory. -/
theorem result_eq {x : StateM Memory α} (h : ∀ R, Mirrors R x x) (m m' : Memory) :
    (x m).1 = (x m').1 :=
  (h fun _ _ => True).result trivial

/-- It does not change the memory either. -/
theorem memory_eq {x : StateM Memory α} (h : ∀ R, Mirrors R x x) (m : Memory) : (x m).2 = m := by
  have hself : m = m ∧ m = m := ⟨rfl, rfl⟩
  exact ((h fun m₁ m₂ => m₁ = m ∧ m₂ = m).memory hself).1

end Mirrors

/-- Related memories hold the same in a cell and in its counterpart, and stay related when both are
written. -/
structure Links (R : Memory → Memory → Prop) (σ : Nat → Nat) (cells : List Nat) : Prop where
  read : ∀ {m m' i}, i ∈ cells → R m m' → m.read i = m'.read (σ i)
  write : ∀ {m m' i a}, i ∈ cells → R m m' → R (m.write i a) (m'.write (σ i) a)

namespace Links

variable {xs ys : List Nat}

theorem mono (h : Links R σ ys) (hsub : xs ⊆ ys) : Links R σ xs where
  read hi := h.read (hsub hi)
  write hi := h.write (hsub hi)

theorem left (h : Links R σ (xs ++ ys)) : Links R σ xs := h.mono (List.subset_append_left xs ys)

theorem right (h : Links R σ (xs ++ ys)) : Links R σ ys := h.mono (List.subset_append_right xs ys)

theorem nil : Links R σ [] where
  read := nofun
  write := nofun

variable {cell : Nat}

theorem mirrors_readCell (h : Links R σ [cell]) :
    Mirrors R (Run.readCell cell : Run ε Accumulator) (Run.readCell (σ cell) : Run ε Accumulator) :=
  ⟨fun hR => congrArg Except.ok (h.read (List.mem_singleton_self cell) hR), id⟩

theorem mirrors_writeCell (h : Links R σ [cell]) (a : Accumulator) :
    Mirrors R (Run.writeCell cell a : Run ε Unit) (Run.writeCell (σ cell) a : Run ε Unit) :=
  ⟨fun _ => rfl, fun hR => h.write (List.mem_singleton_self cell) hR⟩

end Links

/-- A computation that reads and writes its cells and does nothing else keeps the size of the
memory. -/
theorem Mirrors.length_eq {x : StateM Memory α} (cells : List Nat)
    (h : ∀ R, Links R id cells → Mirrors R x x) (m : Memory) :
    (x m).2.cells.length = m.cells.length := by
  have hlinks : Links (fun m₁ m₂ => m₁ = m₂ ∧ m₁.cells.length = m.cells.length) id cells :=
    ⟨fun _ h => congrArg (Memory.read · _) h.1, fun _ h =>
      ⟨congrArg (Memory.write · _ _) h.1, Memory.length_write.trans h.2⟩⟩
  have hself : m = m ∧ m.cells.length = m.cells.length := ⟨rfl, rfl⟩
  exact ((h _ hlinks).memory hself).2

namespace Code

mutual

/-- The same code over other cells. -/
def rename (σ : Nat → Nat) : Code → Code
  | .const v => .const v
  | .read slot position type => .read slot position type
  | .and l r => .and (rename σ l) (rename σ r)
  | .or l r => .or (rename σ l) (rename σ r)
  | .not e => .not (rename σ e)
  | .compare op l r => .compare op (rename σ l) (rename σ r)
  | .arith op l r type => .arith op (rename σ l) (rename σ r) type
  | .call f args type => .call f (renameAll σ args) type
  | .count cell => .count (σ cell)
  | .fold kind argument type cell => .fold kind (rename σ argument) type (σ cell)
  | .member condition source slot => .member (rename σ condition) source slot
  | .isNull e => .isNull (rename σ e)
  | .slotEmpty slot => .slotEmpty slot

/-- Several codes over other cells. -/
def renameAll (σ : Nat → Nat) : List Code → List Code
  | [] => []
  | c :: cs => rename σ c :: renameAll σ cs

end

mutual

@[simp] theorem rename_id : ∀ (c : Code), c.rename id = c
  | .const _ | .read .. | .slotEmpty _ | .count _ => rfl
  | .and l r | .or l r | .compare _ l r | .arith _ l r _ => by
      simp only [rename, rename_id l, rename_id r]
  | .not e | .isNull e | .member e _ _ => by simp only [rename, rename_id e]
  | .fold _ argument _ _ => by simp only [rename, rename_id argument, id]
  | .call _ args _ => by simp only [rename, renameAll_id args]

@[simp] theorem renameAll_id : ∀ (cs : List Code), renameAll id cs = cs
  | [] => rfl
  | c :: cs => by simp only [renameAll, rename_id c, renameAll_id cs]

end

@[simp] theorem type_rename (c : Code) : (c.rename σ).type = c.type := by
  cases c <;> rfl

theorem mirrors_runCount {cell : Nat} (h : Links R σ [cell]) (kind : EventKind) :
    Mirrors R (runCount cell kind) (runCount (σ cell) kind) := by
  cases kind with
  | reset => exact (h.mirrors_writeCell .empty).bind fun _ => .ok _
  | current | expired =>
      exact h.mirrors_readCell.bind fun a => (Mirrors.ofExcept _).bind fun a =>
        (h.mirrors_writeCell a).bind fun _ => .ok _

theorem mirrors_runFold {cell : Nat} (h : Links R σ [cell]) (kind : FoldKind)
    (type : AttributeType) (added : Bool) (v : Value) :
    Mirrors R (runFold cell kind type added v) (runFold (σ cell) kind type added v) :=
  h.mirrors_readCell.bind fun _ => (Mirrors.ofExcept _).bind fun a =>
    (h.mirrors_writeCell a).bind fun _ => .ok (a.result kind type)

mutual

/-- Code runs over other cells as it does over its own. -/
theorem mirrors_run (rows : SourceRows) :
    ∀ (c : Code) (f : Frame), Links R σ c.cells → Mirrors R (c.run rows f) ((c.rename σ).run rows f)
  | .const _, _, _ | .read .., _, _ | .slotEmpty _, _, _ => .ok _
  | .and l r, f, h => by
      simp only [cells] at h
      simp only [run, rename]
      refine (mirrors_run rows l f h.left).bind fun a => ?_
      split
      · exact (mirrors_run rows r f h.right).bind fun b => .ok _
      · exact .ok _
  | .or l r, f, h => by
      simp only [cells] at h
      simp only [run, rename]
      refine (mirrors_run rows l f h.left).bind fun a => ?_
      split
      · exact .ok _
      · exact (mirrors_run rows r f h.right).bind fun b => .ok _
  | .not e, f, h => by
      simp only [cells] at h
      simp only [run, rename]
      exact (mirrors_run rows e f h).bind fun a => .ok _
  | .compare op l r, f, h => by
      simp only [cells] at h
      simp only [run, rename]
      exact (mirrors_run rows l f h.left).bind fun a =>
        (mirrors_run rows r f h.right).bind fun b => .ok _
  | .arith op l r type, f, h => by
      simp only [cells] at h
      simp only [run, rename]
      exact (mirrors_run rows l f h.left).bind fun a =>
        (mirrors_run rows r f h.right).bind fun b => .ofExcept (op.apply a b type)
  | .call fn args type, f, h => by
      simp only [cells] at h
      simp only [run, rename]
      exact (mirrors_runAll rows args f h).bind fun vs => (Mirrors.ofExcept (fn.apply vs)).bind
        fun v => .ok (conform type v)
  | .count cell, f, h => by
      simp only [cells] at h
      simp only [run, rename]
      exact mirrors_runCount h f.kind
  | .fold kind argument type cell, f, h => by
      simp only [cells] at h
      have hfold (added : Bool) := (mirrors_run rows argument f h.left).bind
        fun v => mirrors_runFold h.right kind type added v
      simp only [run, rename]
      split
      · exact (h.right.mirrors_writeCell .empty).bind fun _ => .ok _
      · exact hfold true
      · exact hfold false
  | .member condition source slot, f, h => by
      simp only [cells] at h
      simp only [run, rename]
      refine (Mirrors.anyM (fun row => ?_) (rows source)).bind fun found => .ok _
      exact (mirrors_run rows condition (f.setSlot slot (some row)) h).bind fun a => .ok a.isTrue
  | .isNull e, f, h => by
      simp only [cells] at h
      simp only [run, rename]
      exact (mirrors_run rows e f h).bind fun a => .ok _

theorem mirrors_runAll (rows : SourceRows) :
    ∀ (cs : List Code) (f : Frame), Links R σ (allCells cs) →
      Mirrors R (runAll rows cs f) (runAll rows (renameAll σ cs) f)
  | [], _, _ => .ok []
  | c :: cs, f, h => by
      simp only [allCells] at h
      simp only [runAll, renameAll]
      exact (mirrors_run rows c f h.left).bind fun v =>
        (mirrors_runAll rows cs f h.right).bind fun vs => .ok (v :: vs)

end

theorem mirrors_test (rows : SourceRows) (c : Code) (f : Frame) (h : Links R σ c.cells) :
    Mirrors R (c.test rows f) ((c.rename σ).test rows f) :=
  (mirrors_run rows c f h).bind fun v => .ok v.isTrue

end Code

end EventQuery
