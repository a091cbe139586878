import EventQuery.Proofs.Eval.Compile
import EventQuery.Rollup.Layout
import Mathlib.Data.List.Forall2
import Mathlib.Data.List.Nodup

/-!
The columns of an aggregation: the group-by attributes in their order, and after them the partial
aggregates that the outputs need, each once. As long as group-by attributes are distinct and keep
clear of the reserved names, a column is known by its name, and it stands one place after its index
behind the timestamp.
-/

namespace EventQuery

/-- The names that aggregations reserve for columns of their own. -/
def Reserved (name : String) : Prop := "AGG_".toList <+: name.toList

theorem reserved_timestampColumn : Reserved timestampColumn := by simp [Reserved, timestampColumn]

/-- The position of an attribute whose name is not repeated. -/
theorem Definition.position_of_nodup {d : Definition} (h : (d.attributes.map (·.name)).Nodup)
    {i : Nat} {a : Attribute} (ha : d.attributes[i]? = some a) : d.position a.name = some i := by
  obtain ⟨hi, rfl⟩ := List.getElem?_eq_some_iff.1 ha
  rw [position, List.findIdx?_eq_some_iff_getElem]
  refine ⟨hi, by simp, fun j hj => ?_⟩
  have hne := List.pairwise_iff_getElem.1 h j i (by simp; omega) (by simpa using hi) hj
  simpa using hne

namespace RollupColumn

/-- What an input event contributes to a column. -/
def contribution (input : Definition) (c : RollupColumn) (e : Event) : Value :=
  match c.incoming with
  | .const v => v
  | .var v => e.get ((input.position v.name).getD 0)
  | _ => .null

/-- The fold of a column; a group-by attribute is carried over instead. -/
def kind? (c : RollupColumn) : Option FoldKind :=
  match c.base with
  | .call none name _ =>
    match AggregateKind.ofName? name with
    | some (.fold kind) => some kind
    | _ => none
  | _ => none

@[simp] theorem kind?_partialOf (name : String) (type : AttributeType) (kind : FoldKind)
    (argument : String) :
    (partialOf name type kind argument).kind? = some kind := by cases kind <;> rfl

/-- The columns that the aggregates of a declaration may need. An average needs none of its own. -/
inductive Needed (d : RollupDefinition) : RollupColumn → Prop
  | count : Needed d .count
  | sum {argument : String} {type result : AttributeType}
      (defined : d.input.typeOf argument = some type)
      (summable : FoldKind.sum.resultType type = .ok result) :
      Needed d (partialOf (sumName argument) result .sum argument)
  | min {argument : String} {type : AttributeType} (defined : d.input.typeOf argument = some type) :
      Needed d (partialOf ("AGG_MIN_" ++ argument) type .min argument)
  | max {argument : String} {type : AttributeType} (defined : d.input.typeOf argument = some type) :
      Needed d (partialOf ("AGG_MAX_" ++ argument) type .max argument)

variable {d : RollupDefinition} {c c' : RollupColumn}

theorem Needed.reserved (h : Needed d c) : Reserved c.name := by
  cases h <;> simp [Reserved, RollupColumn.count, countName, partialOf, sumName]

theorem Needed.name_ne_timestamp (h : Needed d c) : c.name ≠ timestampColumn := by
  intro heq
  replace heq := congrArg String.toList heq
  cases h <;> simp [RollupColumn.count, countName, partialOf, sumName, timestampColumn] at heq

/-- The name of a needed column tells its content. -/
theorem Needed.eq_of_name (h : Needed d c) (h' : Needed d c') (heq : c.name = c'.name) :
    c = c' := by
  replace heq := congrArg String.toList heq
  cases h <;> cases h' <;>
    simp [RollupColumn.count, countName, partialOf, sumName] at heq ⊢
  all_goals
    obtain rfl := String.toList_inj.1 heq
    simp_all

/-! ### Adding columns -/

variable {columns : List RollupColumn}

theorem addTo_of_forall_ne (h : ∀ x ∈ columns, x.name ≠ c.name) :
    c.addTo columns = columns ++ [c] := by
  rw [addTo, if_neg (by simpa using h)]

theorem addTo_spec (c : RollupColumn) (columns : List RollupColumn) :
    c.addTo columns = columns ∧ (∃ x ∈ columns, x.name = c.name) ∨
      c.addTo columns = columns ++ [c] ∧ ∀ x ∈ columns, x.name ≠ c.name := by
  unfold addTo
  split
  · rename_i h
    exact .inl ⟨rfl, by simpa using h⟩
  · rename_i h
    exact .inr ⟨rfl, by simpa using h⟩

/-- Columns that have been added to others: the others stay in front, names stay distinct, and every
column that was to be added is there under its name. -/
structure Added (columns needed extended : List RollupColumn) : Prop where
  extends_by : ∃ extra, extended = columns ++ extra ∧ ∀ c ∈ extra, c ∈ needed
  nodup : (columns.map (·.name)).Nodup → (extended.map (·.name)).Nodup
  found : ∀ c ∈ needed, ∃ x ∈ extended, x.name = c.name

theorem added_foldl (needed columns : List RollupColumn) :
    Added columns needed (needed.foldl (fun columns c => c.addTo columns) columns) := by
  induction needed generalizing columns with
  | nil => exact ⟨⟨[], by simp⟩, id, by simp⟩
  | cons c rest ih =>
      obtain ⟨⟨extra, hextra, hmem⟩, hnodup, hfound⟩ := ih (c.addTo columns)
      rw [List.foldl_cons]
      have hkept : ∀ x ∈ c.addTo columns, x ∈ rest.foldl (fun columns c => c.addTo columns)
          (c.addTo columns) := by
        intro x hx
        rw [hextra]
        exact List.mem_append_left _ hx
      -- A column is added only if there is none of its name.
      rcases addTo_spec c columns with ⟨heq, x, hx, hname⟩ | ⟨heq, hne⟩
      · rw [heq] at hextra hnodup hfound hkept ⊢
        refine ⟨⟨extra, hextra, fun y hy => List.mem_cons_of_mem _ (hmem y hy)⟩, hnodup,
          fun y hy => ?_⟩
        rcases List.mem_cons.1 hy with rfl | hy
        · exact ⟨x, hkept x hx, hname⟩
        · exact hfound y hy
      · rw [heq] at hextra hnodup hfound hkept ⊢
        refine ⟨⟨c :: extra, by rw [hextra]; simp, fun y hy => ?_⟩, fun h => hnodup ?_,
          fun y hy => ?_⟩
        · exact (List.mem_cons.1 hy).elim (fun h => h ▸ List.mem_cons_self) fun h =>
            List.mem_cons_of_mem _ (hmem y h)
        · rw [List.map_append, List.nodup_append]
          refine ⟨h, by simp, fun name hname name' hname' => ?_⟩
          obtain ⟨x, hx, rfl⟩ := List.mem_map.1 hname
          rw [List.map_singleton, List.mem_singleton] at hname'
          exact hname' ▸ hne x hx
        · rcases List.mem_cons.1 hy with rfl | hy
          · exact ⟨y, hkept y (by simp), rfl⟩
          · exact hfound y hy

end RollupColumn

namespace RollupLayout

open RollupColumn

variable {d : RollupDefinition} {columns extended : List RollupColumn}

/-- Distinct group-by attributes have one column each, in their order. -/
theorem groupColumns_eq {names : List String} (hnodup : (columns.map (·.name) ++ names).Nodup)
    (h : groupColumns d columns names = .ok extended) :
    ∃ groups, extended = columns ++ groups ∧
      List.Forall₂ (fun name c => ∃ type, d.input.typeOf name = some type ∧ c = group name type)
        names groups := by
  induction names generalizing columns with
  | nil =>
      cases h
      exact ⟨[], by simp, .nil⟩
  | cons name rest ih =>
      simp only [groupColumns, inputType] at h
      cases htype : d.input.typeOf name with
      | none =>
          rw [htype] at h
          cases h
      | some type =>
          rw [htype] at h
          -- As the names are distinct, the column is new.
          have hnew : ∀ x ∈ columns, x.name ≠ (group name type).name := by
            intro x hx heq
            exact (List.nodup_append.1 hnodup).2.2 x.name (List.mem_map_of_mem hx) name
              (by simp) heq
          replace h : groupColumns d ((group name type).addTo columns) rest = .ok extended := h
          rw [addTo_of_forall_ne hnew] at h
          obtain ⟨groups, rfl, hgroups⟩ := ih (by simpa [group] using hnodup) h
          exact ⟨group name type :: groups, by simp, .cons ⟨type, htype, rfl⟩ hgroups⟩

theorem inputType_eq_ok {name : String} {type : AttributeType} (h : inputType d name = .ok type) :
    d.input.typeOf name = some type := by
  unfold inputType at h
  split at h
  · cases h
    assumption
  · cases h

theorem sumColumn_eq_ok {argument : String} {c : RollupColumn} (h : sumColumn d argument = .ok c) :
    ∃ type result, d.input.typeOf argument = some type ∧ FoldKind.sum.resultType type = .ok result ∧
      c = partialOf (sumName argument) result .sum argument := by
  obtain ⟨type, htype, h⟩ := Run.bind_eq_ok.1 h
  split at h
  · cases h
    exact ⟨type, _, inputType_eq_ok htype, ‹_›, rfl⟩
  · cases h

section Integers

variable {argument : String} {type : AttributeType} (htype : d.input.typeOf argument = some type)
  (hinteger : type = .int ∨ type = .long)

include htype hinteger

/-- The sums of integers are long integers. -/
theorem sumColumn_integer :
    sumColumn d argument = .ok (partialOf (sumName argument) .long .sum argument) := by
  have hresult : FoldKind.sum.resultType type = .ok .long := by
    rcases hinteger with rfl | rfl <;> rfl
  simp only [sumColumn, inputType, htype, Run.ok_bind, hresult]

/-- An average of integers needs their sums and a count. -/
theorem columnsFor_average {a : AggregateOutput} (hkind : a.kind = .fold .avg)
    (hargument : a.argument = some argument) :
    columnsFor d a =
      .ok ([partialOf (sumName argument) .long .sum argument, RollupColumn.count],
        .arith .divide (.arith .multiply (.named (sumName argument)) (.const (.double (.ofInt 1))))
          (.named countName)) := by
  simp only [columnsFor, hkind, hargument, Option.getD_some, sumColumn_integer htype hinteger]
  rfl

end Integers

/-- Aggregates need columns of the known forms alone. -/
theorem needed_of_columnsFor {a : AggregateOutput} {needed : List RollupColumn} {output : Expr}
    (h : columnsFor d a = .ok (needed, output)) : ∀ c ∈ needed, Needed d c := by
  have hsum {argument : String} {c : RollupColumn} (h : sumColumn d argument = .ok c) :
      Needed d c := by
    obtain ⟨type, result, htype, hresult, rfl⟩ := sumColumn_eq_ok h
    exact .sum htype hresult
  obtain ⟨name, kind, argument⟩ := a
  cases kind with
  | count =>
      cases h
      simpa using Needed.count
  | fold kind =>
      cases kind with
      | sum =>
          obtain ⟨c, hc, h⟩ := Run.bind_eq_ok.1 h
          cases h
          simpa using hsum hc
      | avg =>
          obtain ⟨c, hc, h⟩ := Run.bind_eq_ok.1 h
          cases h
          simpa using ⟨hsum hc, Needed.count⟩
      | min =>
          obtain ⟨type, htype, h⟩ := Run.bind_eq_ok.1 h
          cases h
          simpa using Needed.min (inputType_eq_ok htype)
      | max =>
          obtain ⟨type, htype, h⟩ := Run.bind_eq_ok.1 h
          cases h
          simpa using Needed.max (inputType_eq_ok htype)

theorem names_of_groups {names : List String} {groups : List RollupColumn}
    (h : List.Forall₂ (fun name c => ∃ type, d.input.typeOf name = some type ∧ c = group name type)
      names groups) :
    groups.map (·.name) = names := by
  induction h with
  | nil => rfl
  | cons head _ ih =>
      obtain ⟨type, -, rfl⟩ := head
      rw [List.map_cons, ih]
      rfl

/-- The outputs of aggregates, each with the columns that it needs among those of the layout. -/
def Serves (d : RollupDefinition) (columns : List RollupColumn) (a : AggregateOutput)
    (output : String × Expr) : Prop :=
  output.1 = a.name ∧ ∃ needed, columnsFor d a = .ok (needed, output.2) ∧
    ∀ c ∈ needed, ∃ x ∈ columns, x.name = c.name

theorem Serves.mono {a : AggregateOutput} {output : String × Expr} (h : Serves d columns a output)
    (hsub : ∀ c ∈ columns, c ∈ extended) : Serves d extended a output := by
  obtain ⟨hname, needed, hneeded, hfound⟩ := h
  refine ⟨hname, needed, hneeded, fun c hc => ?_⟩
  obtain ⟨x, hx, heq⟩ := hfound c hc
  exact ⟨x, hsub x hx, heq⟩

theorem aggregateColumns_spec {as : List AggregateOutput} {outputs : List (String × Expr)}
    (h : aggregateColumns d columns as = .ok (extended, outputs)) :
    (∃ extra, extended = columns ++ extra ∧ ∀ c ∈ extra, Needed d c) ∧
      ((columns.map (·.name)).Nodup → (extended.map (·.name)).Nodup) ∧
      List.Forall₂ (Serves d extended) as outputs := by
  induction as generalizing columns outputs with
  | nil =>
      cases h
      exact ⟨⟨[], by simp⟩, fun h => h, .nil⟩
  | cons a rest ih =>
      obtain ⟨⟨needed, output⟩, hneeded, h⟩ := Run.bind_eq_ok.1 h
      obtain ⟨⟨columns', outputs'⟩, hrest, h⟩ := Run.bind_eq_ok.1 h
      cases h
      have hadded := added_foldl needed columns
      obtain ⟨extra, hextra, hmem⟩ := hadded.extends_by
      obtain ⟨⟨extra', rfl, hmem'⟩, hnodup, hserves⟩ := ih hrest
      refine ⟨⟨extra ++ extra', by rw [hextra, List.append_assoc], fun c hc => ?_⟩,
        hnodup ∘ hadded.nodup,
        .cons (Serves.mono ⟨rfl, needed, hneeded, hadded.found⟩ fun c hc =>
          List.mem_append_left _ hc) hserves⟩
      rcases List.mem_append.1 hc with hc | hc
      · exact needed_of_columnsFor hneeded c (hmem c hc)
      · exact hmem' c hc

/-- What a layout of distinct and unreserved group-by attributes looks like. -/
structure Regular (d : RollupDefinition) (l : RollupLayout) : Prop where
  id : l.id = d.id
  input : l.input = d.input
  groupCount : l.groupCount = d.groupBy.length
  internal : l.internal =
    ⟨d.id, ⟨timestampColumn, .long⟩ :: l.columns.map fun c => ⟨c.name, c.type⟩⟩
  nodup : (l.internal.attributes.map (·.name)).Nodup
  columns : ∃ groups partials, l.columns = groups ++ partials ∧
    List.Forall₂ (fun name c => ∃ type, d.input.typeOf name = some type ∧ c = group name type)
      d.groupBy groups ∧
    ∀ c ∈ partials, Needed d c
  outputs : List.Forall₂ (fun a output => output.1 = a.name ∧
    ∃ needed, columnsFor d a = .ok (needed, output.2) ∧ ∀ c ∈ needed, c ∈ l.columns)
    d.aggregates l.outputs

/-- An aggregate needs a column for its output. -/
def NeededFor (d : RollupDefinition) (a : AggregateOutput) (c : RollupColumn) : Prop :=
  ∃ needed output, columnsFor d a = .ok (needed, output) ∧ c ∈ needed

theorem NeededFor.needed {a : AggregateOutput} {c : RollupColumn} (h : NeededFor d a c) :
    Needed d c := by
  obtain ⟨needed, output, hneeded, hc⟩ := h
  exact needed_of_columnsFor hneeded c hc

/-- The group-by attributes are distinct, and none has the name of a column that is kept besides
them. -/
structure Clear (d : RollupDefinition) : Prop where
  distinct : d.groupBy.Nodup
  timestamp : timestampColumn ∉ d.groupBy
  partials : ∀ a ∈ d.aggregates, ∀ c, NeededFor d a c → c.name ∉ d.groupBy

theorem clear_of_unreserved (hnodup : d.groupBy.Nodup)
    (hclear : ∀ name ∈ d.groupBy, ¬Reserved name) : Clear d where
  distinct := hnodup
  timestamp h := hclear _ h reserved_timestampColumn
  partials _ _ _ hc h := hclear _ h hc.needed.reserved

theorem Clear.regular {l : RollupLayout} (hclear : Clear d) (h : ofDefinition d = .ok l) :
    Regular d l := by
  obtain ⟨groups, hgroups, h⟩ := Run.bind_eq_ok.1 h
  obtain ⟨⟨columns, outputs⟩, haggregates, h⟩ := Run.bind_eq_ok.1 h
  cases h
  obtain ⟨groups', hgroups', hforms⟩ := groupColumns_eq (by simpa using hclear.distinct) hgroups
  rw [List.nil_append] at hgroups'
  subst hgroups'
  obtain ⟨⟨partials, rfl, hpartials⟩, hdistinct, hserves⟩ := aggregateColumns_spec haggregates
  have hnames := names_of_groups hforms
  have hgroup : ∀ c ∈ groups, c.name ∈ d.groupBy := fun c hc =>
    hnames ▸ List.mem_map_of_mem hc
  refine ⟨rfl, rfl, rfl, rfl, ?_, ⟨groups, partials, rfl, hforms, hpartials⟩, ?_⟩
  · simp only [List.map_cons, List.map_map, List.nodup_cons]
    refine ⟨fun htime => ?_, hdistinct (hnames ▸ hclear.distinct)⟩
    obtain ⟨c, hc, hname⟩ := List.mem_map.1 htime
    replace hname : c.name = timestampColumn := hname
    rcases List.mem_append.1 hc with hc | hc
    · exact hclear.timestamp (hname ▸ hgroup c hc)
    · exact (hpartials c hc).name_ne_timestamp hname
  · -- A column of the same name is the needed one, as group-by attributes have other names.
    refine List.forall₂_iff_get.2 ⟨hserves.length_eq, fun i hi hi' => ?_⟩
    obtain ⟨hname, needed, hneeded, hfound⟩ := (List.forall₂_iff_get.1 hserves).2 i hi hi'
    refine ⟨hname, needed, hneeded, fun c hc => ?_⟩
    have hform := needed_of_columnsFor hneeded c hc
    obtain ⟨x, hx, heq⟩ := hfound c hc
    rcases List.mem_append.1 hx with hxg | hxp
    · exact absurd (heq ▸ hgroup x hxg)
        (hclear.partials _ (List.get_mem _ _) c ⟨needed, _, hneeded, hc⟩)
    · exact (hpartials x hxp).eq_of_name hform heq ▸ hx

namespace Regular

variable {l : RollupLayout} {c : RollupColumn} {j : Nat}

theorem attribute_zero (h : Regular d l) :
    l.internal.attributes[0]? = some ⟨timestampColumn, .long⟩ := by
  rw [h.internal]
  rfl

theorem attribute_succ (h : Regular d l) (hc : l.columns[j]? = some c) :
    l.internal.attributes[j + 1]? = some ⟨c.name, c.type⟩ := by
  rw [h.internal]
  simp [hc]

theorem position_timestamp (h : Regular d l) : l.internal.position timestampColumn = some 0 :=
  Definition.position_of_nodup h.nodup h.attribute_zero

/-- A column stands behind the timestamp. -/
theorem position_column (h : Regular d l) (hc : l.columns[j]? = some c) :
    l.internal.position c.name = some (j + 1) :=
  Definition.position_of_nodup h.nodup (h.attribute_succ hc)

/-- The first columns are those of the group-by attributes. -/
theorem column_group (h : Regular d l) {name : String} (hname : d.groupBy[j]? = some name) :
    ∃ type, d.input.typeOf name = some type ∧ l.columns[j]? = some (group name type) := by
  obtain ⟨groups, partials, hcolumns, hgroups, -⟩ := h.columns
  obtain ⟨hj, hget⟩ := List.getElem?_eq_some_iff.1 hname
  have hj' : j < groups.length := hgroups.length_eq ▸ hj
  obtain ⟨type, htype, hc⟩ := (List.forall₂_iff_get.1 hgroups).2 j hj hj'
  refine ⟨type, by simpa [hget] using htype, ?_⟩
  rw [hcolumns, List.getElem?_append_left hj', List.getElem?_eq_getElem hj']
  simpa [hget] using hc

/-- A column of a group-by attribute carries it over, and every other column is one that aggregates
need. -/
theorem column_form (h : Regular d l) (hc : c ∈ l.columns) :
    (∃ name type, c = group name type) ∨ Needed d c := by
  obtain ⟨groups, partials, hcolumns, hgroups, hpartials⟩ := h.columns
  rw [hcolumns, List.mem_append] at hc
  rcases hc with hc | hc
  · obtain ⟨i, hi, rfl⟩ := List.getElem_of_mem hc
    obtain ⟨type, -, heq⟩ := (List.forall₂_iff_get.1 hgroups).2 i (hgroups.length_eq ▸ hi) hi
    exact .inl ⟨_, type, heq⟩
  · exact .inr (hpartials c hc)

/-- The columns that an aggregate needs are there. -/
theorem mem_columns (h : Regular d l) {a : AggregateOutput} (ha : a ∈ d.aggregates)
    {needed : List RollupColumn} {output : Expr} (hneeded : columnsFor d a = .ok (needed, output)) :
    ∀ c ∈ needed, c ∈ l.columns := by
  obtain ⟨i, hi, rfl⟩ := List.getElem_of_mem ha
  obtain ⟨-, needed', hneeded', hmem⟩ :=
    (List.forall₂_iff_get.1 h.outputs).2 i hi (h.outputs.length_eq ▸ hi)
  obtain ⟨rfl, -⟩ := Prod.mk.inj (Except.ok.inj (hneeded.symm.trans hneeded'))
  exact hmem

theorem mem_count (h : Regular d l) {a : AggregateOutput} (ha : a ∈ d.aggregates)
    (hkind : a.kind = .count) :
    RollupColumn.count ∈ l.columns := by
  have hneeded : columnsFor d a = .ok ([RollupColumn.count], .named countName) := by
    rw [columnsFor, hkind]
  exact h.mem_columns ha hneeded _ List.mem_cons_self

/-- The sums of integers have type long, whether they are kept for a sum or for an average. -/
theorem mem_sum (h : Regular d l) {a : AggregateOutput} (ha : a ∈ d.aggregates)
    (hkind : a.kind = .fold .sum ∨ a.kind = .fold .avg) {argument : String}
    (hargument : a.argument = some argument) {type : AttributeType}
    (htype : d.input.typeOf argument = some type) (hinteger : type = .int ∨ type = .long) :
    partialOf (sumName argument) .long .sum argument ∈ l.columns := by
  rcases hkind with hkind | hkind
  · have hneeded : columnsFor d a =
        .ok ([partialOf (sumName argument) .long .sum argument], .named (sumName argument)) := by
      simp only [columnsFor, hkind, hargument, Option.getD_some, sumColumn_integer htype hinteger]
      rfl
    exact h.mem_columns ha hneeded _ List.mem_cons_self
  · exact h.mem_columns ha (columnsFor_average htype hinteger hkind hargument) _ List.mem_cons_self

end Regular

end RollupLayout

end EventQuery
