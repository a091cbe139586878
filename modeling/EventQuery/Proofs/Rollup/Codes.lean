import EventQuery.Proofs.Rollup.Layout
import EventQuery.Rollup.Chain

/-!
The compiled columns of an aggregation. An event contributes to each column an attribute or a
constant. A row is folded in the column that stands in its own place, by an accumulator of its own
or, where a column is carried over, by none.
-/

namespace EventQuery

open Allot Compile

/-- The cell of an aggregate. -/
def Code.cell? : Code → Option Nat
  | .fold _ _ _ cell => some cell
  | _ => none

namespace RollupColumn

/-- The code that folds rows in a column which they have at a position. -/
inductive BaseCode (c : RollupColumn) (position : Nat) : Code → Prop
  | carry {type : AttributeType} (carried : c.kind? = none) :
      BaseCode c position (.read 0 position type)
  | fold {kind : FoldKind} {type result : AttributeType} {cell : Nat} (folded : c.kind? = some kind)
      (long : kind = .sum → c.type = .long → result = .long) :
      BaseCode c position (.fold kind (.read 0 position type) result cell)

end RollupColumn

/-- The codes that fold rows in columns, which own different cells of the memory. -/
structure BaseCodes (columns : List RollupColumn) (cs : List Code) (count : Nat) : Prop where
  length : cs.length = columns.length
  code : ∀ (j : Nat) (c : RollupColumn), columns[j]? = some c → ∃ code, cs[j]? = some code ∧
    c.BaseCode (j + 1) code
  nodup : (cs.filterMap Code.cell?).Nodup
  bounded : ∀ cell ∈ cs.filterMap Code.cell?, cell < count

/-- Every code is that of a column. -/
theorem BaseCodes.form {columns : List RollupColumn} {cs : List Code} {count : Nat}
    (h : BaseCodes columns cs count) {code : Code} (hcode : code ∈ cs) :
    ∃ (c : RollupColumn) (position : Nat), c.BaseCode position code := by
  obtain ⟨j, hj, rfl⟩ := List.getElem_of_mem hcode
  have hcolumn := List.getElem?_eq_getElem (h.length ▸ hj : j < columns.length)
  obtain ⟨code', hcode', hbase⟩ := h.code j _ hcolumn
  obtain rfl := Option.some.inj ((List.getElem?_eq_getElem hj).symm.trans hcode')
  exact ⟨_, j + 1, hbase⟩

namespace Compile

variable {context : Context} {d : Definition} {n m : Nat} {c : Code}

/-- An attribute of the only slot. -/
theorem code_named {name : String} (h : code context (.named name) (.single d) n = .ok (c, m)) :
    ∃ position type, d.position name = some position ∧
      (d.attributes[position]?).map (·.type) = some type ∧
      c = .read 0 position type ∧ m = n := by
  obtain ⟨b, hb, rfl, rfl⟩ := code_var.1 h
  obtain ⟨hslot, hposition, htype⟩ := Layout.resolve_single hb
  exact ⟨b.position, b.type, hposition, htype, by rw [hslot], rfl⟩

/-- A fold of an attribute takes one cell. -/
theorem code_fold_named {kind : FoldKind} {name : String}
    (h : code context (.call none kind.name [.named name]) (.single d) n = .ok (c, m)) :
    ∃ position type result, d.position name = some position ∧
      (d.attributes[position]?).map (·.type) = some type ∧
      kind.resultType type = .ok result ∧
      c = .fold kind (.read 0 position type) result n ∧ m = n + 1 := by
  have hkind : aggregateOf none kind.name = some (.fold kind) := by cases kind <;> rfl
  obtain ⟨args, k, hargs, haggregate⟩ := code_aggregate hkind h
  obtain ⟨arg, rest, k', harg, hrest, rfl⟩ := codes_cons.1 hargs
  obtain ⟨rfl, rfl⟩ := pure_eq_ok.1 hrest
  obtain ⟨position, type, hposition, htype, rfl, rfl⟩ := code_named harg
  obtain ⟨rfl, ⟨hcount, -⟩ | ⟨_, _, result, hfold, harguments, htyped, rfl⟩⟩ :=
    aggregate_eq_ok haggregate
  · cases hcount
  cases hfold
  cases harguments
  exact ⟨position, type, result, hposition, htype, htyped, rfl, rfl⟩

end Compile

namespace RollupLayout.Regular

variable {d : RollupDefinition} {l : RollupLayout} {context : Context} {n m : Nat}

/-- The code of one column. -/
theorem baseCode (h : Regular d l) {c : RollupColumn} {j : Nat} (hc : l.columns[j]? = some c)
    {code : Code} (hcode : Compile.code context c.base (.single l.internal) n = .ok (code, m)) :
    c.BaseCode (j + 1) code ∧ n ≤ m ∧ ∀ cell, code.cell? = some cell → cell = n ∧ n < m := by
  have hplace {position : Nat} {type : AttributeType}
      (hposition : l.internal.position c.name = some position)
      (htype : (l.internal.attributes[position]?).map (·.type) = some type) :
      position = j + 1 ∧ type = c.type := by
    rw [h.position_column hc] at hposition
    cases hposition
    rw [h.attribute_succ hc] at htype
    exact ⟨rfl, (Option.some.inj htype).symm⟩
  have hfold {kind : FoldKind} (hkind : c.kind? = some kind)
      (hbase : c.base = .call none kind.name [.named c.name]) :
      c.BaseCode (j + 1) code ∧ n ≤ m ∧ ∀ cell, code.cell? = some cell → cell = n ∧ n < m := by
    rw [hbase] at hcode
    obtain ⟨position, type, result, hposition, htype, hresult, rfl, rfl⟩ := code_fold_named hcode
    obtain ⟨rfl, rfl⟩ := hplace hposition htype
    refine ⟨.fold hkind fun hsum hlong => ?_, by omega,
      fun cell hcell => ⟨(Option.some.inj hcell).symm, by omega⟩⟩
    rw [hsum, hlong] at hresult
    exact (Except.ok.inj hresult).symm
  rcases h.column_form (List.mem_of_getElem? hc) with ⟨name, type, rfl⟩ | hneeded
  · obtain ⟨position, type', hposition, htype, rfl, rfl⟩ := code_named hcode
    obtain ⟨rfl, rfl⟩ := hplace hposition htype
    exact ⟨.carry rfl, Nat.le_refl _, nofun⟩
  · cases hneeded with
    | count => exact hfold rfl rfl
    | sum => exact hfold (by simp) rfl
    | min => exact hfold (by simp) rfl
    | max => exact hfold (by simp) rfl

theorem codes_base (h : Regular d l) {columns : List RollupColumn} (first : Nat) {cs : List Code}
    (hcolumns : ∀ j c, columns[j]? = some c → l.columns[first + j]? = some c)
    (hcodes : Compile.codes context (columns.map (·.base)) (.single l.internal) n = .ok (cs, m)) :
    cs.length = columns.length ∧
      (∀ (j : Nat) (c : RollupColumn), columns[j]? = some c →
        ∃ code, cs[j]? = some code ∧ c.BaseCode (first + j + 1) code) ∧
      n ≤ m ∧ (cs.filterMap Code.cell?).Nodup ∧
      ∀ cell ∈ cs.filterMap Code.cell?, n ≤ cell ∧ cell < m := by
  induction columns generalizing first n cs with
  | nil =>
      obtain ⟨rfl, rfl⟩ := pure_eq_ok.1 hcodes
      simp
  | cons c rest ih =>
      obtain ⟨code, cs, k, hcode, hrest, rfl⟩ := codes_cons.1 hcodes
      obtain ⟨hbase, hk, hcell⟩ := h.baseCode (hcolumns 0 c rfl) hcode
      have hshift : ∀ j c, rest[j]? = some c → l.columns[first + 1 + j]? = some c := by
        intro j c hc
        rw [Nat.add_assoc, Nat.add_comm 1 j]
        exact hcolumns (j + 1) c hc
      obtain ⟨hlength, hindexed, hm, hnodup, hbounds⟩ := ih (first + 1) hshift hrest
      refine ⟨by simp [hlength], fun j c' hc' => ?_, by omega, ?_, fun cell hmem => ?_⟩
      · cases j with
        | zero =>
            cases hc'
            exact ⟨code, rfl, hbase⟩
        | succ j =>
            obtain ⟨code', hcode', hbase'⟩ := hindexed j c' hc'
            exact ⟨code', hcode', by rwa [show first + (j + 1) + 1 = first + 1 + j + 1 by omega]⟩
      · -- The cells of the other columns have been allotted after that of this one.
        rw [List.filterMap_cons]
        split
        · exact hnodup
        · rename_i cell hsome
          refine List.nodup_cons.2 ⟨fun hmem => ?_, hnodup⟩
          have := hcell cell hsome
          have := hbounds cell hmem
          omega
      · rw [List.filterMap_cons] at hmem
        split at hmem
        · have := hbounds cell hmem
          omega
        · rename_i cell' hsome
          have := hcell cell' hsome
          rcases List.mem_cons.1 hmem with rfl | hmem
          · omega
          · have := hbounds cell hmem
            omega

/-- The codes that fold rows fit the columns of the layout. -/
theorem baseCodes (h : Regular d l) {fold : FoldCode}
    (hfold : (l.baseCodes context).finish = .ok fold) :
    BaseCodes l.columns fold.code fold.memory.cells.length := by
  obtain ⟨cs, count, hcodes, rfl⟩ := finish_eq_ok.1 hfold
  obtain ⟨hlength, hindexed, -, hnodup, hbounds⟩ :=
    h.codes_base 0 (fun j c hc => by rwa [Nat.zero_add]) (mapError_eq_ok.1 hcodes)
  refine ⟨hlength, fun j c hc => ?_, hnodup, fun cell hcell => ?_⟩
  · obtain ⟨code, hcode, hbase⟩ := hindexed j c hc
    exact ⟨code, hcode, by rwa [Nat.zero_add] at hbase⟩
  · simpa [Memory.fresh] using (hbounds cell hcell).2

/-- The codes for events contribute to every column. -/
theorem runAll_incoming (h : Regular d l) {cs : List Code}
    (hcodes : l.incomingCodes context n = .ok (cs, m)) (e : Event) :
    Code.runAll noRows cs (.single e) = pure (l.columns.map fun c => c.contribution l.input e) := by
  replace hcodes := mapError_eq_ok.1 hcodes
  have hform := fun c hc => h.column_form (c := c) hc
  generalize l.columns = columns at hcodes hform ⊢
  induction columns generalizing n cs with
  | nil =>
      obtain ⟨rfl, -⟩ := pure_eq_ok.1 hcodes
      rfl
  | cons c rest ih =>
      obtain ⟨code, cs, k, hcode, hrest, rfl⟩ := codes_cons.1 hcodes
      have hvalue : code.run noRows (.single e) = pure (c.contribution l.input e) := by
        have hnamed {name : String} (hin : c.incoming = .named name) :
            code.run noRows (.single e) = pure (c.contribution l.input e) := by
          replace hcode : Compile.code context c.incoming (.single l.input) n = .ok (code, k) :=
            hcode
          rw [hin] at hcode
          obtain ⟨position, type, hposition, -, rfl, -⟩ := code_named hcode
          simp [RollupColumn.contribution, hin, Expr.named, hposition, Code.run, Frame.single,
            Frame.slot]
        rcases hform c List.mem_cons_self with ⟨name, type, rfl⟩ | hneeded
        · exact hnamed rfl
        · cases hneeded with
          | count =>
              obtain ⟨rfl, -⟩ := pure_eq_ok.1 hcode
              rfl
          | sum => exact hnamed rfl
          | min => exact hnamed rfl
          | max => exact hnamed rfl
      rw [Code.runAll, hvalue, ih hrest fun c hc => hform c (List.mem_cons_of_mem _ hc)]
      rfl

end RollupLayout.Regular

end EventQuery
