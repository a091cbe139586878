import EventQuery.Proofs.Partition.Lookup
import EventQuery.Rollup.Chain

/-!
Compiled lookups over other cells. The code that folds buckets stays the same: buckets have memories
of their own.
-/

namespace EventQuery

variable {R : Memory → Memory → Prop} {σ : Nat → Nat}

namespace Retrieval

/-- The cells of the conditions on the tables. -/
def withinCells (within : List (Granularity × Operator)) : List Nat := within.flatMap (·.2.cells)

/-- The cells of the aggregates of a lookup. -/
def cells (r : Retrieval) : List Nat :=
  withinCells r.within ++ (r.inMemory.cells ++ (r.since.cells ++ (r.before.cells ++ (r.on.cells ++
    (r.per.cells ++ Code.allCells r.outputs)))))

/-- The conditions on the tables over other cells. -/
def renameWithin (σ : Nat → Nat) (within : List (Granularity × Operator)) :
    List (Granularity × Operator) :=
  within.map fun (g, operator) => (g, operator.rename σ)

/-- The same lookup over other cells. -/
def rename (σ : Nat → Nat) (r : Retrieval) : Retrieval where
  aggregation := r.aggregation
  within := renameWithin σ r.within
  inMemory := r.inMemory.rename σ
  since := r.since.rename σ
  before := r.before.rename σ
  on := r.on.rename σ
  per := r.per.rename σ
  fold := r.fold
  outputs := Code.renameAll σ r.outputs
  outputDefinition := r.outputDefinition

/-- The cells of each part of a lookup correspond to others. -/
structure Linked (R : Memory → Memory → Prop) (σ : Nat → Nat) (r : Retrieval) : Prop where
  within : Links R σ (withinCells r.within)
  inMemory : Links R σ r.inMemory.cells
  since : Links R σ r.since.cells
  before : Links R σ r.before.cells
  on : Links R σ r.on.cells
  per : Links R σ r.per.cells
  outputs : Links R σ (Code.allCells r.outputs)

variable {r : Retrieval}

theorem linked_of_links (h : Links R σ r.cells) : r.Linked R σ where
  within := h.left
  inMemory := h.right.left
  since := h.right.right.left
  before := h.right.right.right.left
  on := h.right.right.right.right.left
  per := h.right.right.right.right.right.left
  outputs := h.right.right.right.right.right.right

@[simp] theorem rename_id (r : Retrieval) : r.rename id = r := by
  simp [rename, renameWithin]

theorem lookup_renameWithin (within : List (Granularity × Operator)) (g : Granularity) :
    (renameWithin σ within).lookup g = (within.lookup g).map (Operator.rename σ) := by
  induction within with
  | nil => rfl
  | cons entry rest ih =>
      obtain ⟨own, operator⟩ := entry
      simp only [renameWithin] at ih
      simp only [renameWithin, List.map_cons, List.lookup_cons]
      cases g == own <;> simp [ih]

@[simp] theorem granularities_rename (r : Retrieval) :
    (r.rename σ).granularities = r.granularities := by
  simp [granularities, rename, renameWithin]

theorem withinFor_rename (r : Retrieval) (g : Granularity) :
    (r.rename σ).withinFor g = (r.withinFor g).map (Operator.rename σ) := by
  simp only [withinFor, granularities_rename]
  rw [show (r.rename σ).within.lookup g = _ from lookup_renameWithin r.within g]
  cases r.within.lookup g <;> rfl

/-- The condition on the table of a granularity is one of those of the lookup. -/
theorem mem_of_withinFor {g : Granularity} {operator : Operator}
    (h : r.withinFor g = .ok operator) : (g, operator) ∈ r.within := by
  unfold withinFor at h
  split at h
  · cases h
    obtain ⟨_, _, hwithin, -⟩ := List.lookup_eq_some_iff.1 ‹_›
    rw [hwithin]
    exact List.mem_append_right _ List.mem_cons_self
  · cases h

theorem mirrors_perFor (hper : Links R σ r.per.cells) (rows : SourceRows) (matching : Frame) :
    Mirrors R (r.perFor rows matching) ((r.rename σ).perFor rows matching) := by
  simp only [perFor]
  refine ((Code.mirrors_run rows r.per matching hper).mapError RollupError.eval).bind fun v => ?_
  cases v with
  | string name =>
      refine (Mirrors.ofExcept _).bind fun g => ?_
      rw [withinFor_rename]
      cases r.withinFor g with
      | error e => exact .throw e
      | ok operator => exact .ok g
  | _ => exact .throw _

theorem mirrors_inMemoryInRange (hr : r.Linked R σ) (rows : SourceRows) (matching : Frame)
    (g : Granularity) (stores : List BucketStore) :
    Mirrors R (r.inMemoryInRange rows matching g stores)
      ((r.rename σ).inMemoryInRange rows matching g stores) := by
  simp only [inMemoryInRange]
  split
  · exact .ok _
  · refine (Mirrors.ofExcept _).bind fun newest => (Mirrors.ofExcept _).bind fun oldest => ?_
    refine ((r.since.mirrors_contains rows matching _ hr.since).mapError RollupError.lookup).bind
      fun started => ?_
    split
    · exact (r.before.mirrors_contains rows matching _ hr.before).mapError RollupError.lookup
    · exact .ok _

theorem mirrors_outputAll (hr : r.Linked R σ) (rows : List Event) :
    Mirrors R (r.outputAll rows) ((r.rename σ).outputAll rows) := by
  induction rows with
  | nil => exact .ok _
  | cons row rest ih =>
      have houtput : Mirrors R (r.output row) ((r.rename σ).output row) :=
        ((Code.mirrors_runAll noRows r.outputs (.single row) hr.outputs).mapError
          RollupError.eval).bind fun _ => .ok _
      exact houtput.bind fun first => ih.bind fun others => .ok _

/-- From the selected rows on, with the outputs cleared in between. -/
theorem mirrors_answer (hr : r.Linked R σ) (rows : SourceRows) (matching : Frame)
    (selected : List Event) (trace : RetrievalTrace) :
    Mirrors R
      (do
        let outputs ← r.outputAll selected
        let _ ← (Code.runAll noRows r.outputs (.single (.reset 0))).mapError RollupError.eval
        let found ← (r.on.find rows matching (.ofEvents outputs)).mapError RollupError.lookup
        return (found.map (·.event), trace) : Run RollupError (List Event × RetrievalTrace))
      (do
        let outputs ← (r.rename σ).outputAll selected
        let _ ← (Code.runAll noRows (r.rename σ).outputs (.single (.reset 0))).mapError
          RollupError.eval
        let found ← ((r.rename σ).on.find rows matching (.ofEvents outputs)).mapError
          RollupError.lookup
        return (found.map (·.event), trace) : Run RollupError (List Event × RetrievalTrace)) := by
  refine (mirrors_outputAll hr selected).bind fun outputs => ?_
  refine ((Code.mirrors_runAll noRows r.outputs _ hr.outputs).mapError RollupError.eval).bind
    fun _ => ?_
  exact ((r.on.mirrors_find rows matching _ hr.on).mapError RollupError.lookup).bind
    fun found => .ok _

/-- A lookup finds the same over other cells. -/
theorem mirrors_find (hr : r.Linked R σ) (rows : SourceRows) (matching : Frame) (g : Granularity)
    (table : Holder) (stores : List BucketStore) :
    Mirrors R (r.find rows matching g table stores)
      ((r.rename σ).find rows matching g table stores) := by
  simp only [find, withinFor_rename]
  cases hwithin : r.withinFor g with
  | error e => exact .throw e
  | ok within =>
      have hcells : within.cells ⊆ withinCells r.within := fun cell hcell =>
        List.mem_flatMap.2 ⟨_, mem_of_withinFor hwithin, hcell⟩
      refine ((within.mirrors_find rows matching _ (hr.within.mono hcells)).mapError
        RollupError.lookup).bind fun persisted => ?_
      refine (mirrors_inMemoryInRange hr rows matching g stores).bind fun inRange => ?_
      split
      · refine (Mirrors.ofExcept _).bind fun folded => ?_
        refine ((r.inMemory.mirrors_find rows matching _ hr.inMemory).mapError
          RollupError.lookup).bind fun live => ?_
        exact (Mirrors.ok _).bind fun _ => mirrors_answer hr rows matching _ _
      · exact (Mirrors.ok _).bind fun _ => mirrors_answer hr rows matching _ _

end Retrieval

/-- A lookup finds the same in a running aggregation over other cells. -/
theorem Rollup.mirrors_find {r : Retrieval} (hr : r.Linked R σ) (rollup : Rollup)
    (rows : SourceRows) (matching : Frame) :
    Mirrors R (rollup.find rows matching r) (rollup.find rows matching (r.rename σ)) := by
  simp only [find]
  refine (Retrieval.mirrors_perFor hr.per rows matching).bind fun g => ?_
  split
  · exact .throw _
  · exact Retrieval.mirrors_find hr rows matching g _ _

end EventQuery
