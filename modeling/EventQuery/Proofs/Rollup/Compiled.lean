import EventQuery.Proofs.Eval.Compile
import EventQuery.Rollup.Chain

/-!
The parts of a compiled lookup: what each of them has been compiled from.
-/

namespace EventQuery

open Allot

/-- A compilation that may start at any cell gives a result. -/
def Allot.Gives {ε α : Type} (x : Allot ε α) (a : α) : Prop := ∃ n m, x n = .ok (a, m)

namespace Retrieval

/-- A lookup that has been compiled for the tables of an aggregation. -/
structure Compiled (context : Context) (layout : RollupLayout)
    (tables : List (Granularity × Holder)) (on : Expr) (within : Within) (per : Expr)
    (matching : Definition) (c : Retrieval) : Prop where
  conditions : ∃ since before, within.conditions layout.id = .ok (since, before) ∧
    (compileWithin context layout.id matching (.and since before) tables).Gives c.within ∧
    (compileScan context layout.id matching layout.internal (.and since before)).Gives c.inMemory ∧
    (compileScan context layout.id matching layout.internal since).Gives c.since ∧
    (compileScan context layout.id matching layout.internal before).Gives c.before
  outputs : (layout.outputCodes context).Gives (c.outputs, c.outputDefinition)
  on : (compileScan context layout.id matching c.outputDefinition on).Gives c.on
  per : (Compile.code context per (.single matching)).Gives c.per
  fold : (layout.baseCodes context).finish = .ok c.fold

variable {context : Context} {layout : RollupLayout} {tables : List (Granularity × Holder)}
  {on per : Expr} {within : Within} {matching : Definition} {c : Retrieval} {n m : Nat}

theorem compiled_of_compile
    (h : compile context layout tables on within per matching n = .ok (c, m)) :
    Compiled context layout tables on within per matching c := by
  obtain ⟨⟨since, before⟩, _, hconditions, h⟩ := bind_eq_ok.1 h
  obtain ⟨perTable, _, hperTable, h⟩ := bind_eq_ok.1 h
  obtain ⟨inMemory, _, hinMemory, h⟩ := bind_eq_ok.1 h
  obtain ⟨sinceOperator, _, hsince, h⟩ := bind_eq_ok.1 h
  obtain ⟨beforeOperator, _, hbefore, h⟩ := bind_eq_ok.1 h
  obtain ⟨⟨outputs, outputDefinition⟩, _, houtputs, h⟩ := bind_eq_ok.1 h
  obtain ⟨onOperator, _, hon, h⟩ := bind_eq_ok.1 h
  obtain ⟨perCode, _, hper, h⟩ := bind_eq_ok.1 h
  split at h
  · cases h
  obtain ⟨fold, _, hfold, h⟩ := bind_eq_ok.1 h
  obtain ⟨rfl, -⟩ := pure_eq_ok.1 h
  exact
    { conditions := ⟨since, before, (lift_eq_ok.1 hconditions).1, ⟨_, _, hperTable⟩,
        ⟨_, _, hinMemory⟩, ⟨_, _, hsince⟩, ⟨_, _, hbefore⟩⟩
      outputs := ⟨_, _, houtputs⟩
      on := ⟨_, _, hon⟩
      per := ⟨_, _, mapError_eq_ok.1 hper⟩
      fold := (lift_eq_ok.1 hfold).1 }

end Retrieval

/-- Running a part of a lookup at once does not change it. -/
theorem Rollup.compiled_of_compile {r : Rollup} {rows : SourceRows} {on per : Expr}
    {within : Within} {matching : Definition} {compiled : Stateful Retrieval}
    (h : r.compile rows on within per matching = .ok compiled) :
    compiled.code.Compiled r.context r.layout r.tables on within per matching := by
  obtain ⟨s, hs, h⟩ := Run.bind_eq_ok.1 h
  obtain ⟨c, count, hc, rfl⟩ := finish_eq_ok.1 hs
  have hcode : compiled.code = c := by
    split at h
    · obtain ⟨_, -, h⟩ := Run.bind_eq_ok.1 h
      cases h
      rfl
    · cases h
      rfl
  exact hcode ▸ Retrieval.compiled_of_compile hc

end EventQuery
