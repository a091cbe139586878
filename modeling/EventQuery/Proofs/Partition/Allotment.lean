import EventQuery.Proofs.Lookup.Soundness
import EventQuery.Proofs.Partition.Retrieval
import EventQuery.Proofs.Rollup.Compiled
import Mathlib.Data.List.Perm.Basic

/-!
The cells of plans, operators and lookups. Whatever is compiled owns distinct cells of the memory it
is compiled with, though not all of them: an operator for an indexed store compiles its whole
condition first and drops it. What is compiled without aggregates owns no cell.
-/

namespace EventQuery

open Allot

/-- Distinct cells from `n` to below `m`. -/
structure Owned (n m : Nat) (cells : List Nat) : Prop where
  le : n ≤ m
  nodup : cells.Nodup
  bounds : ∀ i ∈ cells, n ≤ i ∧ i < m

namespace Owned

variable {n k m : Nat} {xs ys : List Nat}

theorem of_allotted (h : Allotted n m xs) : Owned n m xs := ⟨h.1, h.nodup, fun i => (h.mem_iff i).1⟩

theorem append (hx : Owned n k xs) (hy : Owned k m ys) : Owned n m (xs ++ ys) where
  le := Nat.le_trans hx.le hy.le
  nodup := List.nodup_append.2 ⟨hx.nodup, hy.nodup, fun i hi j hj => by
    have := hx.bounds i hi
    have := hy.bounds j hj
    omega⟩
  bounds i hi := by
    have := hx.le
    have := hy.le
    rcases List.mem_append.1 hi with hi | hi
    · have := hx.bounds i hi
      omega
    · have := hy.bounds i hi
      omega

theorem perm (h : Owned n m xs) (hperm : xs.Perm ys) : Owned n m ys where
  le := h.le
  nodup := hperm.nodup_iff.1 h.nodup
  bounds i hi := h.bounds i (hperm.mem_iff.2 hi)

/-- Cells that have been allotted and dropped come before the others. -/
theorem after (hle : n ≤ k) (h : Owned k m xs) : Owned n m xs where
  le := Nat.le_trans hle h.le
  nodup := h.nodup
  bounds i hi := by
    have := h.bounds i hi
    omega

theorem eq_nil (h : Owned n n xs) : xs = [] :=
  List.eq_nil_iff_forall_not_mem.2 fun i hi => by
    have := h.bounds i hi
    omega

end Owned

namespace Plan

variable {context : Context} {capability : Capability} {info : MatchLayout} {n m : Nat}
  {isFirst : Bool} {e : Expr} {c : Code} {p : Plan}

theorem allotted_of_condition (h : condition context info e n = .ok (c, m)) :
    Allotted n m c.cells := Compile.allotted_of_condition (mapError_eq_ok.1 h)

theorem allotted_of_verifierFor {verifier : Option Code}
    (h : verifierFor context info isFirst e n = .ok (verifier, m)) :
    Allotted n m (verifierCells verifier) := by
  cases isFirst with
  | false =>
      obtain ⟨rfl, rfl⟩ := verifierFor_inner.1 h
      exact .nil
  | true =>
      obtain ⟨c, hc, rfl⟩ := verifierFor_outermost.1 h
      exact allotted_of_condition hc

/-- The cells of a plan are allotted in its order. -/
theorem allotted_of_build {cl : Classified}
    (hp : build context capability info cl isFirst n = .ok (p, m)) : Allotted n m p.cells := by
  replace hp := built_of_build hp
  induction hp with
  | gate tested | readAll tested => exact allotted_of_condition tested
  | truth | isNull => exact .nil
  | scan verified => exact allotted_of_verifierFor verified
  | lookup probe => exact Compile.allotted_of_code context _ probe
  | gatedLeft _ tested _ ih | gatedRight _ tested _ ih =>
      exact (allotted_of_condition tested).append ih
  | both _ _ _ _ verified ihl ihr | either _ _ verified ihl ihr =>
      exact ihl.append (ihr.append (allotted_of_verifierFor verified))
  | narrowedLeft _ _ verified ih | narrowedRight _ _ verified ih | complement _ verified ih =>
      exact ih.append (allotted_of_verifierFor verified)

theorem constant_of_condition (he : Compile.Compiles context info.layout e c) {c' : Code}
    (h : condition context info e n = .ok (c', m)) : m = n :=
  (he.constant.unique (Compile.condition_eq_ok.1 (mapError_eq_ok.1 h)).1).2

theorem constant_of_verifierFor (he : Compile.Compiles context info.layout e c)
    {verifier : Option Code} (h : verifierFor context info isFirst e n = .ok (verifier, m)) :
    m = n := by
  cases isFirst with
  | false => exact (verifierFor_inner.1 h).2
  | true =>
      obtain ⟨c', hc', -⟩ := verifierFor_outermost.1 h
      exact constant_of_condition he hc'

/-- A plan without aggregates takes no cell. -/
theorem constant_of_build {cl : Classified} (hcl : Describes context capability info cl c)
    (hp : build context capability info cl isFirst n = .ok (p, m)) : m = n := by
  replace hp := built_of_build hp
  induction hp generalizing c with
  | gate tested =>
      cases hcl with
      | independent compiles _ => exact constant_of_condition compiles tested
  | scan verified =>
      cases hcl with
      | exhaustive compiles _ => exact constant_of_verifierFor compiles verified
  | truth | isNull => rfl
  | readAll tested =>
      cases hcl with
      | named compiles _ => exact constant_of_condition compiles tested
  | lookup hv _ =>
      cases hcl with
      | lookup _ probe | mirrored _ probe => exact (probe.constant.unique hv).2
  | gatedLeft _ tested _ ih =>
      cases hcl with
      | and _ _ left right => exact (ih right).trans (constant_of_condition left.compiles tested)
  | gatedRight _ tested _ ih =>
      cases hcl with
      | and _ _ left right => exact (ih left).trans (constant_of_condition right.compiles tested)
  | both _ _ _ _ verified ihl ihr =>
      cases hcl with
      | and compiles _ left right =>
          exact (constant_of_verifierFor compiles verified).trans ((ihr right).trans (ihl left))
  | narrowedLeft _ _ verified ih =>
      cases hcl with
      | and compiles _ left _ =>
          exact (constant_of_verifierFor compiles verified).trans (ih left)
  | narrowedRight _ _ verified ih =>
      cases hcl with
      | and compiles _ _ right =>
          exact (constant_of_verifierFor compiles verified).trans (ih right)
  | either _ _ verified ihl ihr =>
      cases hcl with
      | or compiles _ left right =>
          exact (constant_of_verifierFor compiles verified).trans ((ihr right).trans (ihl left))
  | complement _ verified ih =>
      cases hcl with
      | not compiles _ operand =>
          exact (constant_of_verifierFor compiles verified).trans (ih operand)

theorem cells_of_build {cl : Classified} (hcl : Describes context capability info cl c)
    (h : build context capability info cl isFirst n = .ok (p, m)) : p.cells = [] := by
  obtain rfl := constant_of_build hcl h
  exact (Owned.of_allotted (allotted_of_build h)).eq_nil

end Plan

namespace Operator

variable {context : Context} {info : MatchLayout} {e : Expr} {container : Container} {n m : Nat}
  {o : Operator}

theorem owned_of_compile (h : compile context info e container n = .ok (o, m)) :
    Owned n m o.cells := by
  cases container with
  | indexed holder capability =>
      obtain ⟨c, cl, p, k, hc, -, hp, rfl⟩ := compile_indexed h
      have hplan := Owned.of_allotted (Plan.allotted_of_build hp)
      exact hplan.after (Compile.allotted_of_condition hc).1
  | other name => exact (throw_eq_ok.1 h).elim
  | _ =>
      obtain ⟨c, hc, rfl⟩ := compile_unindexed h rfl nofun
      exact .of_allotted (Compile.allotted_of_condition hc)

/-- An operator without aggregates owns no cell. -/
theorem cells_of_compile (hfree : e.isAggregateFree = true)
    (hinfo : ∀ holder capability, container = .indexed holder capability →
      info.Carries capability.definition)
    (h : compile context info e container n = .ok (o, m)) : o.cells = [] := by
  have hcondition {c : Code} {k : Nat}
      (hc : Compile.condition context e info.layout n = .ok (c, k)) : c.cells = [] :=
    Code.cells_of_isStateless c
      (Compile.compiles_of_code context e hfree (Compile.condition_eq_ok.1 hc).1).stateless
  cases container with
  | indexed holder capability =>
      obtain ⟨c, cl, p, k, hc, hcl, hp, rfl⟩ := compile_indexed h
      exact Plan.cells_of_build (describes_of_classify (hinfo holder capability rfl) e hfree
        (Compile.condition_eq_ok.1 hc).1 hcl) hp
  | other name => exact (throw_eq_ok.1 h).elim
  | _ =>
      obtain ⟨c, hc, rfl⟩ := compile_unindexed h rfl nofun
      exact hcondition hc

end Operator

theorem Expr.allAggregateFree_iff {es : List Expr} :
    Expr.allAggregateFree es = true ↔ ∀ e ∈ es, e.isAggregateFree = true := by
  induction es with
  | nil => simp [Expr.allAggregateFree]
  | cons e es ih => simp [Expr.allAggregateFree, ih]

/-- No aggregate is called in a time range. -/
def Within.isAggregateFree : Within → Bool
  | .range start stop => start.isAggregateFree && stop.isAggregateFree
  | .pattern e => e.isAggregateFree

namespace Within

theorem isAggregateFree_bound {e bound : Expr} (hfree : e.isAggregateFree = true)
    (h : Within.bound e = .ok bound) : bound.isAggregateFree = true := by
  unfold Within.bound at h
  split at h
  · split at h <;> cases h
    rfl
  · cases h
    rfl
  · cases h
    rfl
  · cases h
  · cases h
    simpa [Expr.isAggregateFree, Expr.allAggregateFree, Compile.aggregateOf] using hfree

theorem isAggregateFree_conditions {within : Within} {aggregation : String} {since before : Expr}
    (hfree : within.isAggregateFree = true)
    (h : within.conditions aggregation = .ok (since, before)) :
    since.isAggregateFree = true ∧ before.isAggregateFree = true := by
  obtain ⟨⟨start, stop⟩, hbounds, h⟩ := Run.bind_eq_ok.1 h
  cases h
  suffices start.isAggregateFree = true ∧ stop.isAggregateFree = true by
    simpa [Expr.isAggregateFree] using this
  cases within with
  | range first last =>
      obtain ⟨start', hstart, hbounds⟩ := Run.bind_eq_ok.1 hbounds
      obtain ⟨stop', hstop, hbounds⟩ := Run.bind_eq_ok.1 hbounds
      cases hbounds
      simp only [isAggregateFree, Bool.and_eq_true] at hfree
      exact ⟨isAggregateFree_bound hfree.1 hstart, isAggregateFree_bound hfree.2 hstop⟩
  | pattern e =>
      unfold bounds at hbounds
      split at hbounds
      · rename_i hrange
        cases hrange
      · split at hbounds <;> cases hbounds
        exact ⟨rfl, rfl⟩
      · cases hbounds

end Within

namespace RollupLayout

/-- The values of output rows call no aggregates: they read the columns, or divide one by
another. -/
theorem isAggregateFree_output {d : RollupDefinition} {a : AggregateOutput}
    {columns : List RollupColumn} {output : Expr} (h : columnsFor d a = .ok (columns, output)) :
    output.isAggregateFree = true := by
  unfold columnsFor at h
  dsimp only at h
  split at h
  · cases h
    rfl
  all_goals
    obtain ⟨_, -, h⟩ := Run.bind_eq_ok.1 h
    cases h
    rfl

theorem isAggregateFree_outputs {d : RollupDefinition} :
    ∀ {as : List AggregateOutput} {columns columns' : List RollupColumn}
      {outputs : List (String × Expr)},
      aggregateColumns d columns as = .ok (columns', outputs) →
      ∀ p ∈ outputs, p.2.isAggregateFree = true
  | [], _, _, _, h, p, hp => by
      cases h
      cases hp
  | a :: rest, _, _, _, h, p, hp => by
      obtain ⟨⟨needed, output⟩, ha, h⟩ := Run.bind_eq_ok.1 h
      obtain ⟨⟨columns', outputs⟩, hrest, h⟩ := Run.bind_eq_ok.1 h
      cases h
      rcases List.mem_cons.1 hp with rfl | hp
      · exact isAggregateFree_output ha
      · exact isAggregateFree_outputs hrest p hp

theorem isAggregateFree_outputColumns {d : RollupDefinition} {l : RollupLayout}
    (hl : ofDefinition d = .ok l) {columns : List (String × Expr)}
    (h : l.outputColumns = .ok columns) : ∀ p ∈ columns, p.2.isAggregateFree = true := by
  obtain ⟨groups, -, hl⟩ := Run.bind_eq_ok.1 hl
  obtain ⟨⟨columns', outputs⟩, houtputs, hl⟩ := Run.bind_eq_ok.1 hl
  cases hl
  unfold outputColumns at h
  split at h
  · cases h
  · cases h
    intro p hp
    rcases List.mem_cons.1 hp with rfl | hp
    · rfl
    · rcases List.mem_append.1 hp with hp | hp
      · obtain ⟨c, -, rfl⟩ := List.mem_map.1 hp
        rfl
      · exact isAggregateFree_outputs houtputs p hp

end RollupLayout

namespace Retrieval

variable {context : Context} {layout : RollupLayout} {aggregation : String} {n m : Nat}

theorem owned_of_compileScan {matching row : Definition} {e : Expr} {o : Operator}
    (h : compileScan context aggregation matching row e n = .ok (o, m)) : Owned n m o.cells :=
  Operator.owned_of_compile (mapError_eq_ok.1 h)

theorem owned_of_compileWithin {matching : Definition} {within : Expr} :
    ∀ {tables : List (Granularity × Holder)} {n m : Nat} {perTable : List (Granularity × Operator)},
      compileWithin context aggregation matching within tables n = .ok (perTable, m) →
      Owned n m (withinCells perTable)
  | [], n, m, perTable, h => by
      obtain ⟨rfl, rfl⟩ := pure_eq_ok.1 h
      exact .of_allotted .nil
  | (g, table) :: rest, n, m, perTable, h => by
      obtain ⟨operator, k, hoperator, h⟩ := bind_eq_ok.1 h
      obtain ⟨others, k', hothers, h⟩ := bind_eq_ok.1 h
      obtain ⟨rfl, rfl⟩ := pure_eq_ok.1 h
      exact (Operator.owned_of_compile (mapError_eq_ok.1 hoperator)).append
        (owned_of_compileWithin hothers)

theorem allotted_of_outputCodes {codes : List Code} {d : Definition}
    (h : layout.outputCodes context n = .ok ((codes, d), m)) :
    Allotted n m (Code.allCells codes) := by
  obtain ⟨columns, k, hcolumns, h⟩ := bind_eq_ok.1 h
  obtain ⟨codes', k', hcodes, h⟩ := bind_eq_ok.1 h
  obtain ⟨hpair, rfl⟩ := pure_eq_ok.1 h
  obtain ⟨-, rfl⟩ := lift_eq_ok.1 hcolumns
  obtain ⟨rfl, -⟩ := Prod.mk.inj hpair
  exact Compile.allotted_of_codes context _ (mapError_eq_ok.1 hcodes)

/-- The cells of a lookup are distinct. -/
theorem owned_of_compile {tables : List (Granularity × Holder)} {on per : Expr} {within : Within}
    {matching : Definition} {r : Retrieval}
    (h : compile context layout tables on within per matching n = .ok (r, m)) :
    Owned n m r.cells := by
  obtain ⟨⟨since, before⟩, _, hconditions, h⟩ := bind_eq_ok.1 h
  obtain ⟨perTable, _, hperTable, h⟩ := bind_eq_ok.1 h
  obtain ⟨inMemory, _, hinMemory, h⟩ := bind_eq_ok.1 h
  obtain ⟨sinceOperator, _, hsince, h⟩ := bind_eq_ok.1 h
  obtain ⟨beforeOperator, _, hbefore, h⟩ := bind_eq_ok.1 h
  obtain ⟨⟨outputs, outputDefinition⟩, _, houtputs, h⟩ := bind_eq_ok.1 h
  obtain ⟨onOperator, _, hon, h⟩ := bind_eq_ok.1 h
  obtain ⟨perCode, _, hper, h⟩ := bind_eq_ok.1 h
  split at h
  · cases h
  obtain ⟨fold, _, hfold, h⟩ := bind_eq_ok.1 h
  obtain ⟨rfl, rfl⟩ := pure_eq_ok.1 h
  obtain ⟨-, rfl⟩ := lift_eq_ok.1 hconditions
  obtain ⟨-, rfl⟩ := lift_eq_ok.1 hfold
  have houtputs := Owned.of_allotted (allotted_of_outputCodes houtputs)
  have hper := Owned.of_allotted (Compile.allotted_of_code context per (mapError_eq_ok.1 hper))
  -- The output row is compiled before the last two conditions and copied after them.
  have hlast := (houtputs.append ((owned_of_compileScan hon).append hper)).perm
    List.perm_append_comm
  rw [List.append_assoc] at hlast
  exact (owned_of_compileWithin hperTable).append ((owned_of_compileScan hinMemory).append
    ((owned_of_compileScan hsince).append ((owned_of_compileScan hbefore).append hlast)))

theorem cells_of_compileScan {matching row : Definition} {e : Expr} {o : Operator}
    (hfree : e.isAggregateFree = true)
    (h : (compileScan context aggregation matching row e).Gives o) : o.cells = [] := by
  obtain ⟨n, m, h⟩ := h
  refine Operator.cells_of_compile hfree (fun holder capability hcontainer => ?_)
    (mapError_eq_ok.1 h)
  cases hcontainer

theorem cells_of_compileWithin {matching : Definition} {within : Expr}
    (hfree : within.isAggregateFree = true) :
    ∀ {tables : List (Granularity × Holder)} {n m : Nat} {perTable : List (Granularity × Operator)},
      compileWithin context aggregation matching within tables n = .ok (perTable, m) →
      withinCells perTable = []
  | [], n, m, perTable, h => by
      obtain ⟨rfl, -⟩ := pure_eq_ok.1 h
      rfl
  | (g, table) :: rest, n, m, perTable, h => by
      obtain ⟨operator, k, hoperator, h⟩ := bind_eq_ok.1 h
      obtain ⟨others, k', hothers, h⟩ := bind_eq_ok.1 h
      obtain ⟨rfl, -⟩ := pure_eq_ok.1 h
      have hcells : operator.cells = [] := by
        refine Operator.cells_of_compile hfree (fun holder capability hcontainer => ?_)
          (mapError_eq_ok.1 hoperator)
        cases hcontainer
        rfl
      rw [withinCells, List.flatMap_cons, hcells, List.nil_append]
      exact cells_of_compileWithin hfree hothers

theorem cells_of_outputCodes {d : RollupDefinition} (hl : RollupLayout.ofDefinition d = .ok layout)
    {codes : List Code} {output : Definition}
    (h : (layout.outputCodes context).Gives (codes, output)) : Code.allCells codes = [] := by
  obtain ⟨n, m, h⟩ := h
  obtain ⟨columns, k, hcolumns, h⟩ := bind_eq_ok.1 h
  obtain ⟨codes', k', hcodes, h⟩ := bind_eq_ok.1 h
  obtain ⟨hpair, -⟩ := pure_eq_ok.1 h
  obtain ⟨rfl, -⟩ := Prod.mk.inj hpair
  have hfree := RollupLayout.isAggregateFree_outputColumns hl (lift_eq_ok.1 hcolumns).1
  have hall : Expr.allAggregateFree (columns.map (·.2)) = true :=
    Expr.allAggregateFree_iff.2 fun e he => by
      obtain ⟨p, hp, rfl⟩ := List.mem_map.1 he
      exact hfree p hp
  exact Code.allCells_of_allStateless codes
    (Compile.compiles_of_codes context _ hall (mapError_eq_ok.1 hcodes)).2

/-- A lookup whose conditions call no aggregates owns no cell. -/
theorem cells_of_compile {d : RollupDefinition} (hl : RollupLayout.ofDefinition d = .ok layout)
    {tables : List (Granularity × Holder)} {on per : Expr} {within : Within}
    {matching : Definition} {r : Retrieval} (hon : on.isAggregateFree = true)
    (hwithin : within.isAggregateFree = true) (hper : per.isAggregateFree = true)
    (h : r.Compiled context layout tables on within per matching) : r.cells = [] := by
  obtain ⟨since, before, hconditions, ⟨_, _, hperTable⟩, hinMemory, hsince, hbefore⟩ := h.conditions
  obtain ⟨hsinceFree, hbeforeFree⟩ := Within.isAggregateFree_conditions hwithin hconditions
  have hboth : (Expr.and since before).isAggregateFree = true := by
    simp [Expr.isAggregateFree, hsinceFree, hbeforeFree]
  obtain ⟨n, m, hcode⟩ := h.per
  rw [cells, cells_of_compileWithin hboth hperTable, cells_of_compileScan hboth hinMemory,
    cells_of_compileScan hsinceFree hsince, cells_of_compileScan hbeforeFree hbefore,
    cells_of_compileScan hon h.on, cells_of_outputCodes hl h.outputs,
    Code.cells_of_isStateless r.per (Compile.compiles_of_code context per hper hcode).stateless]
  rfl

end Retrieval

end EventQuery
