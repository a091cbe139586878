import EventQuery.Proofs.Eval.Aggregate
import EventQuery.Proofs.Eval.Run
import EventQuery.Proofs.Rollup.Codes

/-!
Buckets as the rows that have been folded into them. A column that is carried over has the value of
the last row, and every other column has what its accumulator makes of the values of all rows,
untouched by the other columns.
-/

namespace EventQuery

namespace Code

/-- The code of a column gives the value of the row, or what its accumulator makes of it. -/
inductive Steps (row : Event) (m m' : Memory) : Code → Value → Prop
  | read {position : Nat} {type : AttributeType} :
      Steps row m m' (.read 0 position type) (row.get position)
  | fold {kind : FoldKind} {position : Nat} {type result : AttributeType} {cell : Nat}
      {a : Accumulator} (folds : (m.read cell).fold kind (row.get position) true = .ok a)
      (written : m'.read cell = a) :
      Steps row m m' (.fold kind (.read 0 position type) result cell) (a.result kind result)

/-- Only the cell of the column matters. -/
theorem Steps.congr {row : Event} {c : Code} {m m' n n' : Memory} {v : Value}
    (h : Steps row m m' c v)
    (hread : ∀ cell, c.cell? = some cell →
      n.read cell = m.read cell ∧ n'.read cell = m'.read cell) :
    Steps row n n' c v := by
  cases h with
  | read => exact .read
  | fold folds written =>
      obtain ⟨hn, hn'⟩ := hread _ rfl
      exact .fold (hn ▸ folds) (hn'.trans written)

/-- A column changes no cell but its own. -/
structure Keeps (m m' : Memory) (cells : List Nat) : Prop where
  length : m'.cells.length = m.cells.length
  others : ∀ cell, cell ∉ cells → m'.read cell = m.read cell

variable {row : Event} {c : Code} {m m' : Memory} {v : Value}

theorem steps_of_run {column : RollupColumn} {position : Nat} (hc : column.BaseCode position c)
    (hrow : row.kind = .current) (hcell : ∀ cell, c.cell? = some cell → cell < m.cells.length)
    (h : c.run noRows (.single row) m = (.ok v, m')) :
    c.Steps row m m' v ∧ Keeps m m' c.cell?.toList := by
  cases hc with
  | carry =>
      cases h
      exact ⟨.read, rfl, fun _ _ => rfl⟩
  | @fold kind type result cell =>
      have hkind : (Frame.single row).kind = .current := hrow
      simp only [run, hkind] at h
      replace h : runFold cell kind result true (row.get position) m = (.ok v, m') := h
      rw [runFold_eq] at h
      cases hfold : (m.read cell).fold kind (row.get position) true with
      | error e =>
          rw [hfold] at h
          cases h
      | ok a =>
          rw [hfold] at h
          cases h
          refine ⟨.fold hfold (Memory.read_write_self (hcell cell rfl)), Memory.length_write,
            fun other hother => ?_⟩
          exact Memory.read_write_of_ne fun heq => hother (by simp [cell?, heq])

end Code

namespace Bucket

variable {columns : List RollupColumn} {fold : FoldCode} {b b' : Bucket} {row : Event}
  {rows : List Event}

theorem runColumns_cons {f : Frame} {c : Code} {cs : List Code} {old vs : List Value}
    {m m' : Memory} (h : runColumns f (c :: cs) old m = ((vs, .ok ()), m')) :
    ∃ v rest m₁, c.run noRows f m = (.ok v, m₁) ∧
      runColumns f cs old.tail m₁ = ((rest, .ok ()), m') ∧
      vs = v :: rest := by
  rcases hc : c.run noRows f m with ⟨e | v, m₁⟩
  · simp only [runColumns, bind, StateT.bind, ExceptT.run, hc] at h
    cases h
  · simp only [runColumns, bind, StateT.bind, ExceptT.run, hc] at h
    rcases hrest : runColumns f cs old.tail m₁ with ⟨⟨rest, result⟩, m₂⟩
    rw [hrest] at h
    cases h
    exact ⟨v, rest, m₁, rfl, hrest, rfl⟩

/-- Columns that run to the end each take their step, and leave the cells of no column alone. -/
theorem runColumns_spec {cs : List Code} {old vs : List Value} {m m' : Memory}
    (hform : ∀ c ∈ cs, ∃ (column : RollupColumn) (position : Nat), column.BaseCode position c)
    (hnodup : (cs.filterMap Code.cell?).Nodup)
    (hbounded : ∀ cell ∈ cs.filterMap Code.cell?, cell < m.cells.length)
    (hrow : row.kind = .current) (h : runColumns (.single row) cs old m = ((vs, .ok ()), m')) :
    Code.Keeps m m' (cs.filterMap Code.cell?) ∧
      ∀ (j : Nat) (c : Code), cs[j]? = some c → ∃ v, vs[j]? = some v ∧ c.Steps row m m' v := by
  induction cs generalizing old vs m with
  | nil =>
      cases h
      exact ⟨⟨rfl, fun _ _ => rfl⟩, by simp⟩
  | cons c rest ih =>
      obtain ⟨column, position, hc⟩ := hform c List.mem_cons_self
      obtain ⟨v, rest', m₁, hrun, hrest, rfl⟩ := runColumns_cons h
      -- The cells of the other columns are different, so the steps do not touch each other.
      have hcells : (c :: rest).filterMap Code.cell? =
          c.cell?.toList ++ rest.filterMap Code.cell? := by
        rw [List.filterMap_cons]
        cases c.cell? <;> rfl
      rw [hcells] at hnodup hbounded ⊢
      obtain ⟨-, hnodup', hdisjoint⟩ := List.nodup_append.1 hnodup
      obtain ⟨hstep, hkeeps⟩ :=
        Code.steps_of_run hc hrow (fun cell hcell => hbounded cell (by simp [hcell])) hrun
      obtain ⟨hkeeps', hsteps⟩ := ih (fun c hc => hform c (List.mem_cons_of_mem _ hc)) hnodup'
        (fun cell hcell => hkeeps.length ▸ hbounded cell (List.mem_append_right _ hcell)) hrest
      refine ⟨⟨hkeeps'.length.trans hkeeps.length, fun cell hcell => ?_⟩, fun j c' hc' => ?_⟩
      · rw [List.mem_append, not_or] at hcell
        rw [hkeeps'.others cell hcell.2, hkeeps.others cell hcell.1]
      · cases j with
        | zero =>
            cases hc'
            refine ⟨v, rfl, hstep.congr fun cell hcell => ⟨rfl, hkeeps'.others cell fun hmem => ?_⟩⟩
            exact hdisjoint cell (by simp [hcell]) cell hmem rfl
        | succ j =>
            obtain ⟨v', hv', hstep'⟩ := hsteps j c' hc'
            refine ⟨v', hv', hstep'.congr fun cell hcell =>
              ⟨(hkeeps.others cell fun hmem => ?_).symm, rfl⟩⟩
            exact hdisjoint cell hmem cell
              (List.mem_filterMap.2 ⟨c', List.mem_of_getElem? hc', hcell⟩) rfl

/-- A bucket of a start that rows have been folded into, one after the other. -/
inductive Collects (fold : FoldCode) (start : Int64) : Bucket → List Event → Prop
  | empty : Collects fold start (.empty fold start) []
  | process {b b' : Bucket} {rows : List Event} {row : Event} (earlier : Collects fold start b rows)
      (current : row.kind = .current) (processed : b.process fold row = (.ok (), b')) :
      Collects fold start b' (rows ++ [row])

theorem process_eq_ok (h : b.process fold row = (.ok (), b')) :
    ∃ vs m, runColumns (.single row) fold.code b.columns b.memory = ((vs, .ok ()), m) ∧
      b' = ⟨b.timestamp, vs, m, true⟩ := by
  change ((runColumns (.single row) fold.code b.columns b.memory).1.2, _) = _ at h
  rcases hrun : runColumns (.single row) fold.code b.columns b.memory with ⟨⟨vs, result⟩, m⟩
  rw [hrun] at h
  obtain ⟨rfl, rfl⟩ := Prod.mk.inj h
  refine ⟨vs, m, rfl, ?_⟩
  simp [Except.isOk, Except.toBool]

namespace Collects

variable {start : Int64}

theorem timestamp (h : Collects fold start b rows) : b.timestamp = start := by
  induction h with
  | empty => rfl
  | process _ _ processed ih =>
      obtain ⟨vs, m, -, rfl⟩ := process_eq_ok processed
      exact ih

/-- A bucket holds data as soon as one row has been folded into it. -/
theorem processed_iff (h : Collects fold start b rows) : b.processed = true ↔ rows ≠ [] := by
  cases h with
  | empty => simp [Bucket.empty]
  | process _ _ processed =>
      obtain ⟨vs, m, -, rfl⟩ := process_eq_ok processed
      simp

/-- The cell of every column holds the values that the rows have in it. -/
theorem memory (hcodes : BaseCodes columns fold.code fold.memory.cells.length)
    (h : Collects fold start b rows) :
    b.memory.cells.length = fold.memory.cells.length ∧
      ∀ (j : Nat) (kind : FoldKind) (type result : AttributeType) (cell : Nat),
        fold.code[j]? = some (.fold kind (.read 0 (j + 1) type) result cell) →
        Accumulator.ofValues kind (rows.map (·.get (j + 1))) = .ok (b.memory.read cell) := by
  induction h with
  | empty =>
      refine ⟨by simp [Bucket.empty, Stateful.fresh, Memory.fresh],
        fun j kind type result cell _ => ?_⟩
      rw [Bucket.empty, Stateful.fresh, Memory.read_fresh]
      rfl
  | process earlier current processed ih =>
      obtain ⟨hlength, hcells⟩ := ih
      obtain ⟨vs, m, hrun, rfl⟩ := process_eq_ok processed
      obtain ⟨hkeeps, hsteps⟩ := runColumns_spec (fun c hc => hcodes.form hc) hcodes.nodup
        (fun cell hcell => hlength ▸ hcodes.bounded cell hcell) current hrun
      refine ⟨hkeeps.length.trans hlength, fun j kind type result cell hcode => ?_⟩
      -- The cell has held the values of the earlier rows, and the step adds that of this row.
      obtain ⟨v, -, hstep⟩ := hsteps j _ hcode
      cases hstep with
      | fold folds written =>
          rw [List.map_append, List.map_singleton, Accumulator.ofValues_snoc,
            hcells j kind type result cell hcode]
          exact folds.trans (congrArg Except.ok written.symm)

/-- The value of a column after the last row. -/
theorem column (hcodes : BaseCodes columns fold.code fold.memory.cells.length)
    (h : Collects fold start b rows) (hne : rows ≠ []) {j : Nat} {c : RollupColumn}
    (hc : columns[j]? = some c) :
    (c.kind? = none → b.toEvent.get (j + 1) = (rows.getLast hne).get (j + 1)) ∧
      ∀ kind, c.kind? = some kind →
        ∃ a result, Accumulator.ofValues kind (rows.map (·.get (j + 1))) = .ok a ∧
          (kind = .sum → c.type = .long → result = .long) ∧
          b.toEvent.get (j + 1) = a.result kind result := by
  have hmemory := (h.memory hcodes).2
  obtain ⟨code, hcode, hbase⟩ := hcodes.code j c hc
  cases h with
  | empty => exact absurd rfl hne
  | @process b b' rows row earlier current processed =>
      obtain ⟨vs, m, hrun, rfl⟩ := process_eq_ok processed
      obtain ⟨-, hsteps⟩ := runColumns_spec (fun c hc => hcodes.form hc) hcodes.nodup
        (fun cell hcell => (earlier.memory hcodes).1 ▸ hcodes.bounded cell hcell) current hrun
      obtain ⟨v, hv, hstep⟩ := hsteps j code hcode
      have hget : (Bucket.toEvent ⟨b.timestamp, vs, m, true⟩).get (j + 1) = v := by
        simp [toEvent, values, Event.current, Event.get, hv]
      rw [hget]
      cases hbase with
      | carry carried =>
          cases hstep
          rw [List.getLast_append_singleton]
          exact ⟨fun _ => rfl, fun kind hkind => absurd (carried.symm.trans hkind) nofun⟩
      | @fold kind type result cell folded long =>
          cases hstep with
          | fold folds written =>
              refine ⟨fun hnone => absurd (hnone.symm.trans folded) nofun, fun kind' hkind => ?_⟩
              obtain rfl := Option.some.inj (folded.symm.trans hkind)
              exact ⟨_, result, hmemory j kind type result cell hcode, long, by rw [written]⟩

end Collects

end Bucket

end EventQuery
