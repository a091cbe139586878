import EventQuery.Proofs.Rollup.Compiled
import EventQuery.Proofs.Rollup.Span

/-!
What a lookup in an aggregation selects: the rows of the time range from the table, and those from
the memory unless the span of the memory lies outside of the range.
-/

namespace EventQuery

open Allot Compile

/-! ### Ranges of the memory -/

namespace Retrieval

/-- A lookup passes over the memory only where no bucket in memory belongs into the range. -/
theorem not_inRange_of_inMemoryInRange {c : Retrieval} {start stop : Int64} {since before : Code}
    (hsince : c.since = Operator.scanning since)
    (hsinceTimes : since.Times fun t => decide (start ≤ t))
    (hbefore : c.before = Operator.scanning before)
    (hbeforeTimes : before.Times fun t => decide (t < stop)) {rows : SourceRows} {frame : Frame}
    {g : Granularity} {stores : List BucketStore} {m m' : Memory}
    (h : c.inMemoryInRange rows frame g stores m = (.ok false, m')) :
    ∀ e ∈ stores.flatMap BucketStore.entries, ∀ o, g.startTime e.2.timestamp = .ok o →
      ¬(start ≤ o ∧ o < stop) := by
  have hends : c.Ends rows frame (.ok fun t => decide (start ≤ t))
      (.ok fun t => decide (t < stop)) :=
    { rises := fun test htest s t hle hs => by
        cases htest
        exact decide_eq_true (Int64.le_trans (of_decide_eq_true hs) hle)
      falls := fun test htest s t hle ht => by
        cases htest
        exact decide_eq_true (Int64.lt_of_le_of_lt hle (of_decide_eq_true ht))
      since := fun row hrow => by
        rw [hsince, Operator.contains_row hsinceTimes.stateless, hsinceTimes.decision _ _ _ hrow]
        rfl
      before := fun row hrow => by
        rw [hbefore, Operator.contains_row hbeforeTimes.stateless, hbeforeTimes.decision _ _ _ hrow]
        rfl }
  rintro e he o ho ⟨hstart, hstop⟩
  have hspans := hends.spans_of_inMemoryInRange h e he o ho
  simp [spans, Except.map, hstart, hstop] at hspans

/-! ### What a lookup selects -/

/-- The test of a time range, which ends before `stop`. -/
def inRange (start stop t : Int64) : Bool := decide (start ≤ t) && decide (t < stop)

/-- The operators of a lookup select the rows of a time range. -/
structure Selects (c : Retrieval) (layout : RollupLayout) (start stop : Int64) : Prop where
  since : ∃ code : Code, c.since = .scanning code ∧ code.Times fun t => decide (start ≤ t)
  before : ∃ code : Code, c.before = .scanning code ∧ code.Times fun t => decide (t < stop)
  inMemory : ∃ code : Code, c.inMemory = .scanning code ∧ code.Times (inRange start stop)
  table : ∀ {g : Granularity} {o : Operator} {table : Holder} {rows : SourceRows} {frame : Frame}
    {seen : Capability} {m m' : Memory} {found : List StoredEvent}, c.within.lookup g = some o →
    table.Keyless (layout.tableDefinition g) →
    (∀ row ∈ table.rows, row.get 0 = .long row.timestamp) →
    o.find rows frame (.indexed table seen) m = (.ok found, m') →
    (found.map (·.event)).Perm (table.rows.filter fun row => inRange start stop row.timestamp)

variable {context : Context} {layout : RollupLayout} {tables : List (Granularity × Holder)}
  {on per : Expr} {within : Within} {matching : Definition} {c : Retrieval} {start stop : Int64}

theorem scanning_of_compileScan {e : Expr} {test : Int64 → Bool} {o : Operator}
    (he : e.Times layout.id test) (hid : matching.id ≠ layout.id)
    (hlayout : layout.internal.attributes[0]? = some ⟨timestampColumn, .long⟩)
    (h : (compileScan context layout.id matching layout.internal e).Gives o) :
    ∃ code : Code, o = .scanning code ∧ code.Times test := by
  obtain ⟨n, m, h⟩ := h
  obtain ⟨code, hcode, rfl⟩ := Operator.compile_unindexed (mapError_eq_ok.1 h) rfl nofun
  exact ⟨code, rfl, he.code hid hlayout (condition_eq_ok.1 hcode).1⟩

/-- The operator of a granularity has been compiled for its table. -/
theorem exists_of_lookup {e : Expr} {aggregation : String}
    {operators : List (Granularity × Operator)} {n m : Nat}
    (h : compileWithin context aggregation matching e tables n = .ok (operators, m))
    {g : Granularity} {o : Operator} (ho : operators.lookup g = some o) :
    ∃ table k k', (g, table) ∈ tables ∧
      Operator.compile context (.join matching table.definition (some aggregation)) e
        (.indexed table table.capability) k = .ok (o, k') := by
  induction tables generalizing operators n m with
  | nil =>
      obtain ⟨rfl, -⟩ := pure_eq_ok.1 h
      cases ho
  | cons first rest ih =>
      obtain ⟨f, table⟩ := first
      obtain ⟨operator, k, hoperator, h⟩ := bind_eq_ok.1 h
      obtain ⟨others, k', hothers, h⟩ := bind_eq_ok.1 h
      obtain ⟨rfl, rfl⟩ := pure_eq_ok.1 h
      by_cases hg : g = f
      · subst hg
        obtain rfl : operator = o := by simpa using ho
        exact ⟨table, _, _, List.mem_cons_self, mapError_eq_ok.1 hoperator⟩
      · rw [List.lookup_cons, beq_false_of_ne hg] at ho
        obtain ⟨table', k₁, k₂, hmem, hcompile⟩ := ih hothers ho
        exact ⟨table', k₁, k₂, List.mem_cons_of_mem _ hmem, hcompile⟩

theorem Compiled.selects (h : Compiled context layout tables on within per matching c)
    (hspans : within.Spans start stop) (hid : matching.id ≠ layout.id)
    (hlayout : layout.internal.attributes[0]? = some ⟨timestampColumn, .long⟩)
    (htables : ∀ p ∈ tables, p.2.definition = layout.tableDefinition p.1) :
    c.Selects layout start stop := by
  obtain ⟨since, before, hconditions, ⟨_, _, hwithin⟩, hinMemory, hsince, hbefore⟩ := h.conditions
  obtain ⟨since', before', hconditions', hsinceTimes, hbeforeTimes⟩ := hspans.conditions layout.id
  obtain ⟨rfl, rfl⟩ := Prod.mk.inj (Except.ok.inj (hconditions.symm.trans hconditions'))
  have hboth := hsinceTimes.and hbeforeTimes
  refine ⟨scanning_of_compileScan hsinceTimes hid hlayout hsince,
    scanning_of_compileScan hbeforeTimes hid hlayout hbefore,
    scanning_of_compileScan hboth hid hlayout hinMemory, ?_⟩
  intro g o table rows frame seen m m' found ho hkeyless hrows hfind
  obtain ⟨table₀, k, k', hmem, hcompile⟩ := exists_of_lookup hwithin ho
  have hdefinition := htables _ hmem
  rw [hdefinition] at hcompile
  exact Operator.find_table (d := layout.tableDefinition g) hboth hid hlayout hdefinition hcompile
    hkeyless hrows hfind

theorem withinFor_eq_ok {g : Granularity} {o : Operator} (h : c.withinFor g = .ok o) :
    c.within.lookup g = some o := by
  unfold withinFor at h
  split at h
  · cases h
    assumption
  · cases h

/-- The last steps of a lookup: rows are put out and then filtered. -/
theorem outputs_of_run {rows : SourceRows} {frame : Frame} {selected found : List Event}
    {trace trace' : RetrievalTrace} {m m' : Memory}
    (h : (do
      let outputs ← c.outputAll selected
      let _ ← (Code.runAll noRows c.outputs (.single (.reset 0))).mapError .eval
      let found ← (c.on.find rows frame (.ofEvents outputs)).mapError .lookup
      return (found.map (·.event), trace') : Run RollupError (List Event × RetrievalTrace)) m =
        (.ok (found, trace), m')) :
    ∃ outputs matched k₁ k₂ k₃, c.outputAll selected k₁ = (.ok outputs, k₂) ∧
      c.on.find rows frame (.ofEvents outputs) k₃ = (.ok matched, m') ∧
      found = matched.map (·.event) := by
  obtain ⟨outputs, k, houtputs, h⟩ := Run.of_run_bind h
  obtain ⟨_, n, -, h⟩ := Run.of_run_bind h
  obtain ⟨matched, _, hmatched, h⟩ := Run.of_run_bind h
  cases h
  exact ⟨outputs, matched, m, k, n, houtputs, Run.of_run_mapError hmatched, rfl⟩

/-- A lookup takes the rows of the range from its table, and from what it folds from the memory
unless no bucket in memory belongs into the range. -/
theorem Selects.find (h : c.Selects layout start stop) {g : Granularity} {table : Holder}
    {stores : List BucketStore} {rows : SourceRows} {frame : Frame} {m m' : Memory}
    {found : List Event} {trace : RetrievalTrace}
    (hkeyless : table.Keyless (layout.tableDefinition g))
    (hrows : ∀ row ∈ table.rows, row.get 0 = .long row.timestamp)
    (hfind : c.find rows frame g table stores m = (.ok (found, trace), m')) :
    ∃ persisted live,
      persisted.Perm (table.rows.filter fun row => inRange start stop row.timestamp) ∧
      ((∃ folded, c.folded g stores = .ok folded ∧
          live = (folded.buckets.map (·.toEvent)).filter fun row =>
            inRange start stop row.timestamp) ∨
        live = [] ∧ ∀ e ∈ stores.flatMap BucketStore.entries, ∀ o,
          g.startTime e.2.timestamp = .ok o → ¬(start ≤ o ∧ o < stop)) ∧
      ∃ outputs matched k₁ k₂ k₃, c.outputAll (persisted ++ live) k₁ = (.ok outputs, k₂) ∧
        c.on.find rows frame (.ofEvents outputs) k₃ = (.ok matched, m') ∧
        found = matched.map (·.event) := by
  obtain ⟨operator, _, hoperator, hfind⟩ := Run.of_run_bind hfind
  obtain ⟨persisted, _, hpersisted, hfind⟩ := Run.of_run_bind hfind
  have hpersisted := h.table (withinFor_eq_ok (Run.of_run_ofExcept hoperator).1) hkeyless hrows
    (Run.of_run_mapError hpersisted)
  obtain ⟨merges, k, hmerges, hfind⟩ := Run.of_run_bind hfind
  cases merges with
  | true =>
      obtain ⟨folded, k₁, hfolded, hfind⟩ := Run.of_run_bind hfind
      obtain ⟨live, k₂, hlive, hfind⟩ := Run.of_run_bind hfind
      obtain ⟨code, hcode, htimes⟩ := h.inMemory
      rw [hcode] at hlive
      have hselected := Operator.find_scanning (p := fun row => inRange start stop row.timestamp)
        (fun e he => ?_) (Run.of_run_mapError hlive)
      · exact ⟨_, _, hpersisted, .inl ⟨folded, (Run.of_run_ofExcept hfolded).1, hselected⟩,
          outputs_of_run hfind⟩
      · obtain ⟨b, -, hb⟩ := List.mem_map.1 he
        exact Operator.accepts_times htimes _ rfl (hb ▸ rfl)
  | false =>
      obtain ⟨since, hsince, hsinceTimes⟩ := h.since
      obtain ⟨before, hbefore, hbeforeTimes⟩ := h.before
      exact ⟨_, [], hpersisted,
        .inr ⟨rfl, not_inRange_of_inMemoryInRange hsince hsinceTimes hbefore hbeforeTimes hmerges⟩,
          outputs_of_run hfind⟩

end Retrieval

end EventQuery
