import EventQuery.Partition
import EventQuery.Proofs.Partition.Allotment

/-!
A copy is the original over new cells. Copying goes through all parts in the order of their cells
and takes one new cell for each, so the new cells correspond to the old ones in that order, and
those of the original are left as they are.
-/

namespace EventQuery

namespace Memory

variable {m : Memory} {k n i : Nat}

/-- A memory with some more accumulators, which have seen no event. -/
def extend (m : Memory) (count : Nat) : Memory := ⟨m.cells ++ List.replicate count .empty⟩

@[simp] theorem length_extend : (m.extend n).cells.length = m.cells.length + n := by simp [extend]

@[simp] theorem extend_zero : m.extend 0 = m := by simp [extend]

theorem extend_extend : (m.extend k).extend n = m.extend (k + n) := by
  simp only [extend, List.append_assoc, List.replicate_append_replicate]

theorem read_extend_left (h : i < m.cells.length) : (m.extend n).read i = m.read i := by
  simp [read, extend, List.getElem?_append_left h]

theorem read_extend_right (h : m.cells.length ≤ i) : (m.extend n).read i = .empty := by
  rw [read, extend, List.getElem?_append_right h, List.getElem?_replicate]
  split <;> rfl

theorem extend_nil : (⟨[]⟩ : Memory).extend n = fresh n := rfl

end Memory

variable {α β : Type} {σ : Nat → Nat}

/-- A copying of an artifact with some cells gives the artifact over the new cells, in the order of
the old ones. -/
def Copies (σ : Nat → Nat) (copying : StateM Memory α) (cells : List Nat) (copy : α) : Prop :=
  ∀ m : Memory, cells.map σ = List.range' m.cells.length cells.length →
    copying m = (copy, m.extend cells.length)

namespace Copies

theorem pure (a : α) : Copies σ (pure a) [] a := fun m _ => by
  rw [List.length_nil, Memory.extend_zero]
  rfl

theorem allot (cell : Nat) : Copies σ Memory.allot [cell] (σ cell) := by
  intro m hσ
  have hcell : σ cell = m.cells.length := by simpa using hσ
  rw [hcell]
  rfl

theorem bind {x : StateM Memory α} {k : α → StateM Memory β} {xs ys : List Nat} {a : α} {b : β}
    (hx : Copies σ x xs a) (hk : Copies σ (k a) ys b) : Copies σ (x >>= k) (xs ++ ys) b := by
  intro m hσ
  rw [List.map_append, List.length_append, ← List.range'_append, Nat.one_mul] at hσ
  obtain ⟨hxs, hys⟩ := List.append_inj hσ (by simp)
  rw [Run.state_bind, hx m hxs, List.length_append, ← Memory.extend_extend]
  exact hk _ (by simpa using hys)

/-- The last step of a copying takes no cell. -/
theorem map {x : StateM Memory α} {xs : List Nat} {a : α} (hx : Copies σ x xs a) (f : α → β) :
    Copies σ (x >>= fun a => Pure.pure (f a)) xs (f a) := by
  have h := hx.bind (k := fun a => Pure.pure (f a)) (Copies.pure (f a))
  rwa [List.append_nil] at h

end Copies

/-- The new cell for a cell, where the new ones start at `base`. -/
def newCell (cells : List Nat) (base i : Nat) : Nat := base + cells.idxOf i

theorem map_newCell {cells : List Nat} (h : cells.Nodup) (base : Nat) :
    cells.map (newCell cells base) = List.range' base cells.length := by
  refine List.ext_getElem (by simp) fun i hi _ => ?_
  simp only [List.getElem_map, newCell, List.getElem_range', Nat.one_mul]
  rw [h.idxOf_getElem i (by simpa using hi)]

theorem newCell_injective {cells : List Nat} {base i j : Nat} (hi : i ∈ cells)
    (h : newCell cells base i = newCell cells base j) : i = j :=
  (List.idxOf_inj hi).1 (Nat.add_left_cancel h)

namespace Code

mutual

theorem copies_clone (key : String) : ∀ (c : Code), Copies σ (c.clone key) c.cells (c.rename σ)
  | .const _ | .read .. | .slotEmpty _ => by
      simp only [clone, cells, rename]
      exact .pure _
  | .and l r | .or l r | .compare _ l r | .arith _ l r _ => by
      simp only [clone, cells, rename]
      exact (copies_clone key l).bind ((copies_clone key r).map _)
  | .not e | .isNull e | .member e _ _ => by
      simp only [clone, cells, rename]
      exact (copies_clone key e).map _
  | .call _ args _ => by
      simp only [clone, cells, rename]
      exact (copies_cloneAll key args).map _
  | .count cell => by
      simp only [clone, cells, rename]
      exact (Copies.allot cell).map _
  | .fold _ argument _ cell => by
      simp only [clone, cells, rename]
      exact (copies_clone key argument).bind ((Copies.allot cell).map _)

theorem copies_cloneAll (key : String) :
    ∀ (cs : List Code), Copies σ (cloneAll key cs) (allCells cs) (renameAll σ cs)
  | [] => by
      simp only [cloneAll, allCells, renameAll]
      exact .pure _
  | c :: cs => by
      simp only [cloneAll, allCells, renameAll]
      exact (copies_clone key c).bind ((copies_cloneAll key cs).map _)

end

end Code

namespace Plan

theorem copies_cloneVerifier (key : String) (verifier : Option Code) :
    Copies σ (cloneVerifier key verifier) (verifierCells verifier)
      (verifier.map (Code.rename σ)) := by
  cases verifier with
  | none => exact .pure none
  | some condition => exact (condition.copies_clone key).map some

theorem copies_clone (key : String) (p : Plan) : Copies σ (p.clone key) p.cells (p.rename σ) := by
  induction p with
  | compare name op position value => exact (value.copies_clone key).map _
  | isNull name => exact .pure _
  | gate condition => exact (condition.copies_clone key).map _
  | gated condition inner ih => exact (condition.copies_clone key).bind (ih.map _)
  | both l r verifier ihl ihr | either l r verifier ihl ihr =>
      exact ihl.bind (ihr.bind ((copies_cloneVerifier key verifier).map _))
  | narrowed inner verifier ih | complement inner verifier ih =>
      exact ih.bind ((copies_cloneVerifier key verifier).map _)
  | scan verifier => exact (copies_cloneVerifier key verifier).map _

end Plan

theorem Operator.copies_clone (key : String) (o : Operator) :
    Copies σ (o.clone key) o.cells (o.rename σ) := by
  obtain ⟨p | ⟨kind, condition⟩, slot⟩ := o
  · exact (p.copies_clone key).map _
  · exact (condition.copies_clone key).map _

/-- The code that folds buckets is the same in a copy, down to its cells. -/
theorem FoldCode.clone_eq (key : String) {layout : RollupLayout} {context : Context}
    {fold : FoldCode} (h : (layout.baseCodes context).finish = .ok fold) :
    FoldCode.clone key fold = fold := by
  obtain ⟨codes, count, hcodes, rfl⟩ := Allot.finish_eq_ok.1 h
  have hcells : Allotted 0 count (Code.allCells codes) :=
    Compile.allotted_of_codes context _ (Allot.mapError_eq_ok.1 hcodes)
  have hlength : (Code.allCells codes).length = count := hcells.length
  have hcopy : Code.cloneAll key codes ⟨[]⟩ = (codes, .fresh count) := by
    have hcopies : Copies id (Code.cloneAll key codes) (Code.allCells codes)
        (Code.renameAll id codes) := Code.copies_cloneAll key codes
    have h := hcopies ⟨[]⟩ (by rw [List.map_id, hcells.length]; exact hcells.2)
    rwa [Code.renameAll_id, hlength, Memory.extend_nil] at h
  change (⟨(Code.cloneAll key codes ⟨[]⟩).1, (Code.cloneAll key codes ⟨[]⟩).2⟩ : FoldCode) = _
  rw [hcopy]

namespace Retrieval

theorem copies_cloneWithin (key : String) (within : List (Granularity × Operator)) :
    Copies σ (cloneWithin key within) (withinCells within) (renameWithin σ within) := by
  induction within with
  | nil => exact .pure _
  | cons entry rest ih => exact (entry.2.copies_clone key).bind (ih.map _)

theorem copies_clone (key : String) {r : Retrieval} (hfold : FoldCode.clone key r.fold = r.fold) :
    Copies σ (r.clone key) r.cells (r.rename σ) := by
  simp only [clone, cells, rename, hfold]
  refine (copies_cloneWithin key r.within).bind ?_
  refine (r.inMemory.copies_clone key).bind ?_
  refine (r.since.copies_clone key).bind ?_
  refine (r.before.copies_clone key).bind ?_
  refine (r.on.copies_clone key).bind ?_
  refine (r.per.copies_clone key).bind ?_
  exact (Code.copies_cloneAll key r.outputs).map _

end Retrieval

end EventQuery
