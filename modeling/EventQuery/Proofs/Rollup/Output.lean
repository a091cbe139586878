import EventQuery.Proofs.Rollup.Compiled
import EventQuery.Proofs.Rollup.Range
import EventQuery.Proofs.Rollup.Represents

/-!
The rows that a lookup puts out. The timestamp, the group-by values and all aggregates but averages
are read from the columns of a row, and what a row represents tells the values of the aggregates.
-/

namespace EventQuery

namespace AggregateOutput

/-- The aggregates whose value does not depend on the order of the events. An average and a sum of
floating-point numbers are rounded at every step. -/
def IsExact (input : Definition) (a : AggregateOutput) : Prop :=
  match a.kind with
  | .count | .fold .min | .fold .max => True
  | .fold .sum => ∃ argument type, a.argument = some argument ∧ input.typeOf argument = some type ∧
      (type = .int ∨ type = .long)
  | .fold .avg => False

/-- The values that an aggregate is taken over. -/
def values (input : Definition) (a : AggregateOutput) (events : Multiset Event) : Multiset Value :=
  events.map fun e => e.get ((input.position (a.argument.getD "")).getD 0)

/-- A value is that of an aggregate over events: their number, the sum of their integers modulo
2^64, or a least or greatest of their values. Nulls count as events only. -/
def IsValue (input : Definition) (a : AggregateOutput) (events : Multiset Event) (v : Value) :
    Prop :=
  match a.kind with
  | .count => v = .long (.ofNat (Multiset.card events))
  | .fold .sum => v = .long (.ofInt ((a.values input events).map Value.longPart).sum)
  | .fold .avg => True
  | .fold .min => Extremum (fun v w => (v.order w).isLE = true) (a.values input events) v
  | .fold .max => Extremum (fun v w => (w.order v).isLE = true) (a.values input events) v

end AggregateOutput

/-- An output of an aggregation reads an aggregate from a column of the rows. -/
def RollupLayout.Delivers (d : RollupDefinition) (l : RollupLayout) (a : AggregateOutput)
    (position : Nat) : Prop :=
  ∃ c j, columnsFor d a = .ok ([c], .named c.name) ∧ l.columns[j]? = some c ∧ position = j + 1

namespace RollupLayout

open RollupColumn

variable {d : RollupDefinition} {l : RollupLayout} {a : AggregateOutput} {output : Expr}
  {needed : List RollupColumn}

/-- Only an average is made of several columns. -/
theorem columnsFor_of_isExact (hexact : a.IsExact d.input)
    (h : columnsFor d a = .ok (needed, output)) :
    ∃ c, needed = [c] ∧ output = .named c.name := by
  obtain ⟨name, kind, argument⟩ := a
  cases kind with
  | count =>
      cases h
      exact ⟨_, rfl, rfl⟩
  | fold kind =>
      cases kind with
      | sum =>
          obtain ⟨c, hc, h⟩ := Run.bind_eq_ok.1 h
          obtain ⟨_, _, -, -, rfl⟩ := sumColumn_eq_ok hc
          cases h
          exact ⟨_, rfl, rfl⟩
      | avg => exact hexact.elim
      | min =>
          obtain ⟨type, htype, h⟩ := Run.bind_eq_ok.1 h
          cases h
          exact ⟨_, rfl, rfl⟩
      | max =>
          obtain ⟨type, htype, h⟩ := Run.bind_eq_ok.1 h
          cases h
          exact ⟨_, rfl, rfl⟩

/-- Every output has its column. -/
theorem Regular.delivers (h : l.Regular d) (hexact : ∀ a ∈ d.aggregates, a.IsExact d.input) :
    ∃ positions, List.Forall₂ (l.Delivers d) d.aggregates positions ∧
      List.Forall₂ (fun output position => ∃ name, output.2 = .named name ∧
        l.internal.position name = some position) l.outputs positions := by
  have hparts := h.outputs
  generalize d.aggregates = as at hexact hparts
  generalize l.outputs = outputs at hparts
  induction hparts with
  | nil => exact ⟨[], .nil, .nil⟩
  | @cons a output as outputs head _ ih =>
      obtain ⟨-, needed, hneeded, hmem⟩ := head
      obtain ⟨hhead, htail⟩ := List.forall_mem_cons.1 hexact
      obtain ⟨c, rfl, houtput⟩ := columnsFor_of_isExact hhead hneeded
      obtain ⟨j, hj⟩ := List.getElem?_of_mem (hmem c List.mem_cons_self)
      obtain ⟨positions, hdelivers, hpositions⟩ := ih htail
      exact ⟨(j + 1) :: positions, .cons ⟨c, j, houtput ▸ hneeded, hj, rfl⟩ hdelivers,
        .cons ⟨c.name, houtput, h.position_column hj⟩ hpositions⟩

end RollupLayout

section Values

variable {d : RollupDefinition} {l : RollupLayout} {g : Granularity} {row : Event}
  {s : Multiset Placed} {j : Nat}

/-- A sum that a row has as an integer is the sum of what it stands for. -/
theorem FoldKind.StandsFor.eq_long {vs : Multiset Value} {v : Value}
    (h : FoldKind.sum.StandsFor .long vs v) (hlong : ∃ n, v = .long n) :
    v = .long (.ofInt (vs.map Value.longPart).sum) := by
  obtain ⟨n, rfl⟩ := hlong
  rw [← h rfl, Value.longPart, Value.asLong, Option.map_some, Option.getD_some, Int64.ofInt_toInt]

/-- The column of the sums of integers has the sum over all events. -/
theorem Summarizes.get_sum (h : Summarizes d l g row s) {argument : String}
    (hc : l.columns[j]? = some (.partialOf (RollupColumn.sumName argument) .long .sum argument)) :
    row.get (j + 1) = .long (.ofInt
      ((s.map fun x => x.2.get ((l.input.position argument).getD 0)).map Value.longPart).sum) :=
  (h.represents.columns j _ .sum hc rfl).eq_long (h.long j _ hc rfl rfl)

/-- The column of counts has the number of all events, whether or not they have values. -/
theorem Summarizes.get_count (h : Summarizes d l g row s) (hc : l.columns[j]? = some .count) :
    row.get (j + 1) = .long (.ofNat (Multiset.card s)) := by
  refine ((h.represents.columns j _ .sum hc rfl).eq_long (h.long j _ hc rfl rfl)).trans ?_
  simp [RollupColumn.contribution, RollupColumn.count, Value.longPart, Value.asLong,
    Int64.ofInt_eq_ofNat]

/-- The columns of a row hold the values of the aggregates over the events that it represents. -/
theorem Summarizes.isValue (h : Summarizes d l g row s) (hl : l.Regular d) {a : AggregateOutput}
    {position : Nat} (hexact : a.IsExact d.input) (hdelivers : l.Delivers d a position) :
    a.IsValue d.input (s.map (·.2)) (row.get position) := by
  obtain ⟨c, j, hneeded, hc, rfl⟩ := hdelivers
  have hcolumns := h.represents.columns j c
  have hvalues : a.values d.input (s.map (·.2)) =
      s.map fun x => x.2.get ((l.input.position (a.argument.getD "")).getD 0) := by
    rw [AggregateOutput.values, Multiset.map_map, hl.input]
    rfl
  unfold AggregateOutput.IsValue
  rw [hvalues]
  obtain ⟨name, kind, argument⟩ := a
  cases kind with
  | count =>
      cases hneeded
      exact (h.get_count hc).trans (by rw [Multiset.card_map])
  | fold kind =>
      cases kind with
      | sum =>
          -- The sum of integers is kept in a column of type long.
          obtain ⟨name', type, hargument, htype, hinteger⟩ := hexact
          obtain rfl : argument = some name' := hargument
          have hresult : FoldKind.sum.resultType type = .ok .long := by
            rcases hinteger with rfl | rfl <;> rfl
          obtain ⟨c', hsum, heq⟩ := Run.bind_eq_ok.1 hneeded
          obtain ⟨type', result, htype', hresult', rfl⟩ := RollupLayout.sumColumn_eq_ok hsum
          obtain rfl := Option.some.inj (htype.symm.trans htype')
          obtain rfl := Except.ok.inj (hresult.symm.trans hresult')
          cases heq
          exact h.get_sum hc
      | avg => trivial
      | min =>
          obtain ⟨type, -, heq⟩ := Run.bind_eq_ok.1 hneeded
          cases heq
          exact hcolumns .min hc rfl
      | max =>
          obtain ⟨type, -, heq⟩ := Run.bind_eq_ok.1 hneeded
          cases heq
          exact hcolumns .max hc rfl

end Values

/-! ### Output rows -/

/-- The row of the values at some positions of another. -/
def Event.project (positions : List Nat) (row : Event) : Event :=
  .current row.timestamp (positions.map row.get)

/-- Attributes compile to the places where they stand. -/
theorem Compile.codes_named {context : Context} {d : Definition} {es : List Expr}
    {positions : List Nat} {n m : Nat} {cs : List Code}
    (h : List.Forall₂ (fun e position => ∃ name, e = .named name ∧ d.position name = some position)
      es positions)
    (hcs : codes context es (.single d) n = .ok (cs, m)) :
    List.Forall₂ (fun c position => ∃ type, c = Code.read 0 position type) cs positions := by
  induction h generalizing n cs with
  | nil =>
      obtain ⟨rfl, -⟩ := Allot.pure_eq_ok.1 hcs
      exact .nil
  | cons head _ ih =>
      obtain ⟨name, rfl, hposition⟩ := head
      obtain ⟨c, cs', k, hc, hcs', rfl⟩ := codes_cons.1 hcs
      obtain ⟨b, hb, rfl, rfl⟩ := code_var.1 hc
      obtain ⟨hslot, hbound, -⟩ := Layout.resolve_single hb
      obtain rfl := Option.some.inj (hposition.symm.trans hbound)
      exact .cons ⟨b.type, by rw [hslot]⟩ (ih hcs')

theorem Code.runAll_reads {rows : SourceRows} {row : Event} {cs : List Code} {positions : List Nat}
    (h : List.Forall₂ (fun c position => ∃ type, c = Code.read 0 position type) cs positions) :
    runAll rows cs (.single row) = pure (positions.map row.get) := by
  induction h with
  | nil => rfl
  | cons head _ ih =>
      obtain ⟨type, rfl⟩ := head
      rw [runAll, ih]
      rfl

namespace RollupLayout

variable {d : RollupDefinition} {l : RollupLayout} {context : Context}

/-- The output row has the timestamp, the group-by values and the aggregates, in this order. -/
def outputPositions (groupCount : Nat) (positions : List Nat) : List Nat :=
  0 :: ((List.range groupCount).map (· + 1) ++ positions)

theorem Regular.reads (h : l.Regular d) {positions : List Nat}
    (hpositions : List.Forall₂ (fun output position => ∃ name, output.2 = .named name ∧
      l.internal.position name = some position) l.outputs positions)
    {codes : List Code} {definition : Definition}
    (hcodes : (l.outputCodes context).Gives (codes, definition)) :
    List.Forall₂ (fun c position => ∃ type, c = Code.read 0 position type) codes
      (outputPositions l.groupCount positions) := by
  obtain ⟨n, m, hcodes⟩ := hcodes
  obtain ⟨columns, _, hcolumns, hcodes⟩ := Allot.bind_eq_ok.1 hcodes
  obtain ⟨codes', _, hcodes', hcodes⟩ := Allot.bind_eq_ok.1 hcodes
  cases hcodes
  replace hcolumns := (Allot.lift_eq_ok.1 hcolumns).1
  unfold outputColumns at hcolumns
  split at hcolumns
  · cases hcolumns
  rename_i hlength
  obtain rfl := Except.ok.inj hcolumns
  have hgroups : List.Forall₂
      (fun e position => ∃ name, e = .named name ∧ l.internal.position name = some position)
      ((l.columns.take l.groupCount).map fun c => Expr.named c.name)
      ((List.range l.groupCount).map (· + 1)) := by
    refine List.forall₂_iff_get.2 ⟨by simp; omega, fun i hi hi' => ?_⟩
    rw [List.length_map, List.length_range] at hi'
    have hcolumn : i < l.columns.length := by omega
    exact ⟨l.columns[i].name, by simp,
      by simpa using h.position_column (List.getElem?_eq_getElem hcolumn)⟩
  have hvalues : List.Forall₂
      (fun e position => ∃ name, e = .named name ∧ l.internal.position name = some position)
      (l.outputs.map (·.2)) positions := List.forall₂_map_left_iff.2 hpositions
  refine Compile.codes_named ?_ (Allot.mapError_eq_ok.1 hcodes')
  rw [List.map_cons, List.map_append, List.map_map]
  exact .cons ⟨timestampColumn, rfl, h.position_timestamp⟩ (List.rel_append hgroups hvalues)

end RollupLayout

namespace Event

variable {groupCount : Nat} {positions : List Nat} {row : Event}

theorem get_project {i position : Nat} (h : positions[i]? = some position) :
    (row.project positions).get i = row.get position := by
  rw [get, project, current, List.getElem?_map, h]
  rfl

theorem get_group_project {i : Nat} (hi : i < groupCount) :
    (row.project (RollupLayout.outputPositions groupCount positions)).get (i + 1) =
      row.get (i + 1) := by
  refine get_project ?_
  rw [RollupLayout.outputPositions, List.getElem?_cons_succ,
    List.getElem?_append_left (by simpa using hi), List.getElem?_map, List.getElem?_range hi]
  rfl

theorem get_value_project {k position : Nat} (hk : positions[k]? = some position) :
    (row.project (RollupLayout.outputPositions groupCount positions)).get (1 + groupCount + k) =
      row.get position := by
  refine get_project ?_
  have hsucc : 1 + groupCount + k = groupCount + k + 1 := by omega
  rw [RollupLayout.outputPositions, hsucc, List.getElem?_cons_succ,
    List.getElem?_append_right (by simp)]
  simpa using hk

end Event

namespace Retrieval

variable {c : Retrieval} {positions : List Nat}

/-- All rows are put out, in their order. -/
theorem outputAll_eq
    (h : List.Forall₂ (fun code position => ∃ type, code = Code.read 0 position type)
      c.outputs positions) (rows : List Event) :
    c.outputAll rows = pure (rows.map (·.project positions)) := by
  induction rows with
  | nil => rfl
  | cons row rest ih =>
      rw [outputAll, ih, output, Code.runAll_reads h]
      rfl

/-- A condition that is always true keeps all rows. -/
theorem find_true {layout : RollupLayout} {context : Context} {tables : List (Granularity × Holder)}
    {within : Within} {per : Expr} {matching : Definition}
    (h : c.Compiled context layout tables (.const (.bool true)) within per matching)
    {rows : SourceRows} {frame : Frame} {events : List Event} {found : List StoredEvent}
    {m m' : Memory} (hfind : c.on.find rows frame (.ofEvents events) m = (.ok found, m')) :
    found.map (·.event) = events := by
  obtain ⟨n, k, hon⟩ := h.on
  obtain ⟨code, hcode, heq⟩ := Operator.compile_unindexed (Allot.mapError_eq_ok.1 hon) rfl nofun
  obtain ⟨rfl, -⟩ := Allot.pure_eq_ok.1 (Compile.condition_eq_ok.1 hcode).1
  rw [heq] at hfind
  rw [Operator.find_scanning (p := fun _ => true) (fun e _ => rfl) hfind, List.filter_true]

end Retrieval

end EventQuery
