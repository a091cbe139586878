import EventQuery.Proofs.Eval.Acceptance
import EventQuery.Proofs.Rollup.Conservation

/-!
Well-formed layouts. A declaration that has passed its checks has a layout, and where no two of its
columns share a name, the layout is as it should be: columns are known by their names, the group-by
attributes come first, and all columns compile. The checks let columns share names, as they compare
the names of outputs only, and then the group-by positions run into the partial aggregates.
-/

namespace EventQuery

open Allot

namespace Compile

variable {context : Context} {d : Definition} {name : String} {i : Nat} {a : Attribute}

theorem code_attribute (hposition : d.position name = some i) (ha : d.attributes[i]? = some a)
    (n : Nat) : code context (.named name) (.single d) n = .ok (.read 0 i a.type, n) := by
  refine code_var.2 ⟨⟨0, i, a.type⟩, ?_, rfl, rfl⟩
  have hbind : (Layout.single d).bindIn name 0 = some ⟨0, i, a.type⟩ := by
    simp [Layout.bindIn, Layout.single, hposition, ha]
  simp [Layout.resolve, Layout.single] at hbind ⊢
  simp [hbind]

theorem code_fold_attribute {kind : FoldKind} {result : AttributeType}
    (hposition : d.position name = some i) (ha : d.attributes[i]? = some a)
    (htype : kind.resultType a.type = .ok result) (n : Nat) :
    code context (.call none kind.name [.named name]) (.single d) n =
      .ok (.fold kind (.read 0 i a.type) result n, n + 1) := by
  have hkind : aggregateOf none kind.name = some (.fold kind) := by cases kind <;> rfl
  have hargs : codes context [.named name] (.single d) n = .ok ([.read 0 i a.type], n) :=
    codes_cons.2 ⟨_, [], n, code_attribute hposition ha n, rfl, rfl⟩
  simp only [code, hkind]
  refine bind_eq_ok.2 ⟨_, n, hargs, ?_⟩
  simp only [aggregate]
  exact bind_eq_ok.2 ⟨result, n, lift_eq_ok.2 ⟨htype, rfl⟩, rfl⟩

theorem succeeds_codes {es : List Expr} {layout : Layout}
    (h : ∀ e ∈ es, Succeeds (code context e layout)) : Succeeds (codes context es layout) := by
  induction es with
  | nil => exact succeeds_pure []
  | cons e es ih =>
      have hrest := ih fun e he => h e (List.mem_cons_of_mem _ he)
      exact (h e List.mem_cons_self).bind fun c => hrest.bind fun cs => succeeds_pure (c :: cs)

/-- Every expression of a list has its code among the codes. -/
theorem exists_code_of_codes {es : List Expr} {layout : Layout} {cs : List Code} {n m : Nat}
    (h : codes context es layout n = .ok (cs, m)) {e : Expr} (he : es[i]? = some e) :
    ∃ c k k', cs[i]? = some c ∧ code context e layout k = .ok (c, k') := by
  induction es generalizing i n cs with
  | nil => simp at he
  | cons first rest ih =>
      obtain ⟨c, cs', k, hc, hcs', rfl⟩ := codes_cons.1 h
      cases i with
      | zero =>
          obtain rfl : first = e := by simpa using he
          exact ⟨c, n, k, rfl, hc⟩
      | succ i => exact ih (i := i) hcs' he

end Compile

/-- The value of every code has its place in the row. -/
theorem Code.exists_run_of_runAll {rows : SourceRows} {cs : List Code} {f : Frame} {m m' : Memory}
    {vs : List Value} (h : runAll rows cs f m = (.ok vs, m')) {i : Nat} {c : Code}
    (hc : cs[i]? = some c) : ∃ v k k', vs[i]? = some v ∧ c.run rows f k = (.ok v, k') := by
  induction cs generalizing m vs i with
  | nil => simp at hc
  | cons first rest ih =>
      obtain ⟨v, k, hfirst, h⟩ := Run.of_run_bind h
      obtain ⟨others, _, hothers, h⟩ := Run.of_run_bind h
      cases h
      cases i with
      | zero =>
          obtain rfl : first = c := by simpa using hc
          exact ⟨v, m, k, rfl, hfirst⟩
      | succ i => exact ih (i := i) hothers hc

namespace RollupDefinition

/-! ### Declarations that have passed their checks -/

variable {input : Definition} {d : RollupDefinition}

theorem typeOf_of_position {name : String} (h : (input.position name).isSome = true) :
    ∃ type, input.typeOf name = some type := by
  have hfound : (input.attributes.find? (·.name = name)).isSome = true := by
    rw [Definition.position, List.findIdx?_isSome] at h
    rwa [List.find?_isSome, ← List.any_eq_true]
  obtain ⟨a, ha⟩ := Option.isSome_iff_exists.1 hfound
  exact ⟨a.type, by rw [Definition.typeOf, ha]; rfl⟩

theorem typeOf_of_checkGroups {names : List String} (h : checkGroups input names = .ok ()) :
    ∀ name ∈ names, ∃ type, input.typeOf name = some type := by
  induction names with
  | nil => simp
  | cons name rest ih =>
      rw [checkGroups] at h
      split at h
      · cases h
      · rename_i hposition
        exact List.forall_mem_cons.2
          ⟨typeOf_of_position (Option.isSome_iff_ne_none.2 (by simpa using hposition)), ih h⟩

theorem checkArgument_of_checkAggregates {taken : List String} {as : List AggregateOutput}
    (h : checkAggregates input taken as = .ok ()) : ∀ a ∈ as, checkArgument input a = .ok () := by
  induction as generalizing taken with
  | nil => simp
  | cons a rest ih =>
      rw [checkAggregates] at h
      split at h
      · cases h
      · obtain ⟨_, ha, hrest⟩ := Run.bind_eq_ok.1 h
        exact List.forall_mem_cons.2 ⟨ha, ih hrest⟩

/-- The group-by attributes are there, and every aggregate has an argument that suits it. -/
theorem Accepted.checked (h : d.Accepted) :
    (∀ name ∈ d.groupBy, ∃ type, d.input.typeOf name = some type) ∧
      ∀ a ∈ d.aggregates, checkArgument d.input a = .ok () := by
  obtain ⟨granularities, hbuild⟩ := h
  unfold build at hbuild
  split at hbuild
  · cases hbuild
  · rename_i hcheck
    unfold check at hcheck
    split at hcheck
    · cases hcheck
    split at hcheck
    · cases hcheck
    obtain ⟨_, hgroups, haggregates⟩ := Run.bind_eq_ok.1 hcheck
    exact ⟨typeOf_of_checkGroups hgroups, checkArgument_of_checkAggregates haggregates⟩

/-- The argument of a fold is an input attribute that can be folded. -/
theorem fold_of_checkArgument {a : AggregateOutput} {kind : FoldKind} (hkind : a.kind = .fold kind)
    (h : checkArgument input a = .ok ()) :
    ∃ argument type result, a.argument = some argument ∧ input.typeOf argument = some type ∧
      kind.resultType type = .ok result := by
  obtain ⟨name, _, argument⟩ := a
  cases hkind
  cases argument with
  | none => cases h
  | some argument =>
      simp only [checkArgument] at h
      split at h
      · cases h
      · rename_i type htype
        split at h
        · rename_i result hresult
          exact ⟨argument, type, result, rfl, htype, hresult⟩
        · cases h

end RollupDefinition

namespace RollupLayout

open RollupColumn RollupDefinition

variable {d : RollupDefinition} {l : RollupLayout} {c : RollupColumn} {a : AggregateOutput}

/-! ### Declarations that have a layout -/

theorem inputType_of_typeOf {name : String} {type : AttributeType}
    (h : d.input.typeOf name = some type) : inputType d name = .ok type := by
  rw [inputType, h]

/-- What suits an average can be summed, as whatever can be folded. -/
theorem exists_resultType {kind : FoldKind} {type result : AttributeType}
    (h : kind.resultType type = .ok result) (kind' : FoldKind) :
    ∃ result', kind'.resultType type = .ok result' := by
  unfold FoldKind.resultType at h ⊢
  split at h
  · exact ⟨_, if_pos ‹_›⟩
  · cases h

theorem exists_sumColumn {argument : String} {kind : FoldKind} {type result : AttributeType}
    (htype : d.input.typeOf argument = some type) (hresult : kind.resultType type = .ok result) :
    ∃ c, sumColumn d argument = .ok c := by
  obtain ⟨sum, hsum⟩ := exists_resultType hresult .sum
  exact ⟨_, by rw [sumColumn, inputType_of_typeOf htype, Run.ok_bind, hsum]⟩

theorem exists_columnsFor (h : checkArgument d.input a = .ok ()) :
    ∃ needed output, columnsFor d a = .ok (needed, output) := by
  unfold columnsFor
  dsimp only
  cases hkind : a.kind with
  | count => exact ⟨_, _, rfl⟩
  | fold kind =>
      obtain ⟨argument, type, result, hargument, htype, hresult⟩ := fold_of_checkArgument hkind h
      rw [hargument, Option.getD_some]
      cases kind with
      | sum | avg =>
          obtain ⟨c, hc⟩ := exists_sumColumn htype hresult
          exact ⟨_, _, by rw [hc]; rfl⟩
      | min | max => exact ⟨_, _, by rw [inputType_of_typeOf htype]; rfl⟩

theorem exists_groupColumns {names : List String} (columns : List RollupColumn)
    (h : ∀ name ∈ names, ∃ type, d.input.typeOf name = some type) :
    ∃ extended, groupColumns d columns names = .ok extended := by
  induction names generalizing columns with
  | nil => exact ⟨columns, rfl⟩
  | cons name rest ih =>
      obtain ⟨⟨type, htype⟩, hrest⟩ := List.forall_mem_cons.1 h
      rw [groupColumns, inputType_of_typeOf htype]
      exact ih _ hrest

theorem exists_aggregateColumns {as : List AggregateOutput} (columns : List RollupColumn)
    (h : ∀ a ∈ as, checkArgument d.input a = .ok ()) :
    ∃ extended outputs, aggregateColumns d columns as = .ok (extended, outputs) := by
  induction as generalizing columns with
  | nil => exact ⟨columns, [], rfl⟩
  | cons a rest ih =>
      obtain ⟨ha, hrest⟩ := List.forall_mem_cons.1 h
      obtain ⟨needed, output, hneeded⟩ := exists_columnsFor ha
      obtain ⟨extended, outputs, hextended⟩ :=
        ih (needed.foldl (fun columns c => c.addTo columns) columns) hrest
      rw [aggregateColumns, hneeded, Run.ok_bind]
      exact ⟨extended, (a.name, output) :: outputs, by dsimp only; rw [hextended]; rfl⟩

/-- A declaration that has passed its checks has a layout. -/
theorem exists_ofDefinition (h : d.Accepted) : ∃ l, ofDefinition d = .ok l := by
  obtain ⟨hgroups, haggregates⟩ := h.checked
  obtain ⟨groups, hgroups⟩ := exists_groupColumns [] hgroups
  obtain ⟨columns, outputs, hcolumns⟩ := exists_aggregateColumns groups haggregates
  rw [ofDefinition, hgroups, Run.ok_bind, hcolumns]
  exact ⟨_, rfl⟩

/-! ### The columns of a layout -/

theorem mem_addTo {columns : List RollupColumn} {x : RollupColumn} (h : x ∈ c.addTo columns) :
    x ∈ columns ∨ x = c := by
  rcases addTo_spec c columns with ⟨heq, -⟩ | ⟨heq, -⟩
  · exact .inl (heq ▸ h)
  · simpa [heq] using h

/-- A column carries a group-by attribute over, or an aggregate needs it. -/
def Originates (d : RollupDefinition) (c : RollupColumn) : Prop :=
  (∃ name type, d.input.typeOf name = some type ∧ c = group name type) ∨
    ∃ a ∈ d.aggregates, NeededFor d a c

theorem originates_of_groupColumns {names : List String} {columns extended : List RollupColumn}
    (h : groupColumns d columns names = .ok extended) (hcolumns : ∀ c ∈ columns, Originates d c) :
    ∀ c ∈ extended, Originates d c := by
  induction names generalizing columns with
  | nil =>
      cases h
      exact hcolumns
  | cons name rest ih =>
      obtain ⟨type, htype, h⟩ := Run.bind_eq_ok.1 h
      refine ih h fun c hc => ?_
      rcases mem_addTo hc with hc | rfl
      · exact hcolumns c hc
      · exact .inl ⟨name, type, inputType_eq_ok htype, rfl⟩

theorem originates_of_aggregateColumns {as : List AggregateOutput}
    {columns extended : List RollupColumn} {outputs : List (String × Expr)}
    (h : aggregateColumns d columns as = .ok (extended, outputs)) (has : ∀ a ∈ as, a ∈ d.aggregates)
    (hcolumns : ∀ c ∈ columns, Originates d c) : ∀ c ∈ extended, Originates d c := by
  induction as generalizing columns outputs with
  | nil =>
      cases h
      exact hcolumns
  | cons a rest ih =>
      obtain ⟨⟨needed, output⟩, hneeded, h⟩ := Run.bind_eq_ok.1 h
      obtain ⟨⟨columns', outputs'⟩, hrest, h⟩ := Run.bind_eq_ok.1 h
      cases h
      obtain ⟨ha, has⟩ := List.forall_mem_cons.1 has
      obtain ⟨extra, hextra, hmem⟩ := (added_foldl needed columns).extends_by
      refine ih hrest has fun c hc => ?_
      rw [hextra] at hc
      rcases List.mem_append.1 hc with hc | hc
      · exact hcolumns c hc
      · exact .inr ⟨a, ha, needed, output, hneeded, hmem c hc⟩

theorem originates_of_ofDefinition (h : ofDefinition d = .ok l) :
    ∀ c ∈ l.columns, Originates d c := by
  obtain ⟨groups, hgroups, h⟩ := Run.bind_eq_ok.1 h
  obtain ⟨⟨columns, outputs⟩, haggregates, h⟩ := Run.bind_eq_ok.1 h
  cases h
  exact originates_of_aggregateColumns haggregates (fun _ ha => ha)
    (originates_of_groupColumns hgroups (by simp))

/-- Sums can be summed. -/
theorem folds_sumColumn {argument : String} (h : sumColumn d argument = .ok c) :
    c.base = .call none FoldKind.sum.name [.named c.name] ∧
      ∃ result, FoldKind.sum.resultType c.type = .ok result := by
  obtain ⟨type, result, -, hresult, rfl⟩ := sumColumn_eq_ok h
  refine ⟨rfl, ?_⟩
  cases type <;> cases hresult <;> exact ⟨_, rfl⟩

/-- What an aggregate needs can be folded. -/
theorem NeededFor.folds (h : NeededFor d a c) (ha : checkArgument d.input a = .ok ()) :
    ∃ kind, c.base = .call none (FoldKind.name kind) [.named c.name] ∧
      ∃ result, kind.resultType c.type = .ok result := by
  obtain ⟨needed, output, hneeded, hc⟩ := h
  have hcount : ∃ kind, RollupColumn.count.base =
      .call none (FoldKind.name kind) [.named RollupColumn.count.name] ∧
        ∃ result, kind.resultType RollupColumn.count.type = .ok result := ⟨.sum, rfl, .long, rfl⟩
  unfold columnsFor at hneeded
  dsimp only at hneeded
  cases hkind : a.kind with
  | count =>
      rw [hkind] at hneeded
      cases hneeded
      rwa [List.mem_singleton.1 hc]
  | fold kind =>
      obtain ⟨argument, type, result, hargument, htype, hresult⟩ := fold_of_checkArgument hkind ha
      rw [hkind, hargument, Option.getD_some] at hneeded
      cases kind with
      | sum =>
          obtain ⟨sum, hsum, hneeded⟩ := Run.bind_eq_ok.1 hneeded
          cases hneeded
          rw [List.mem_singleton.1 hc]
          exact ⟨.sum, folds_sumColumn hsum⟩
      | avg =>
          obtain ⟨sum, hsum, hneeded⟩ := Run.bind_eq_ok.1 hneeded
          cases hneeded
          rcases List.mem_pair.1 hc with rfl | rfl
          · exact ⟨.sum, folds_sumColumn hsum⟩
          · exact hcount
      | min =>
          rw [inputType_of_typeOf htype] at hneeded
          cases hneeded
          rw [List.mem_singleton.1 hc]
          exact ⟨.min, rfl, result, hresult⟩
      | max =>
          rw [inputType_of_typeOf htype] at hneeded
          cases hneeded
          rw [List.mem_singleton.1 hc]
          exact ⟨.max, rfl, result, hresult⟩

/-! ### Compiled columns -/

variable {context : Context} {j : Nat}

theorem exists_position {input : Definition} {name : String} {type : AttributeType}
    (h : input.typeOf name = some type) :
    ∃ i a, input.position name = some i ∧ input.attributes[i]? = some a ∧ a.type = type := by
  rw [Definition.typeOf, Option.map_eq_some_iff] at h
  obtain ⟨a, hfound, htype⟩ := h
  obtain ⟨hname, i, hlength, rfl, hbefore⟩ := List.find?_eq_some_iff_getElem.1 hfound
  refine ⟨i, _, List.findIdx?_eq_some_iff_getElem.2 ⟨hlength, hname, fun j hj => ?_⟩,
    List.getElem?_eq_getElem hlength, htype⟩
  simpa using hbefore j hj

/-- Every column compiles for the events of the input. -/
theorem succeeds_incoming (h : Originates d c) :
    Succeeds (Compile.code context c.incoming (.single d.input)) := by
  have hnamed {name : String} {type : AttributeType} (htype : d.input.typeOf name = some type) :
      Succeeds (Compile.code context (.named name) (.single d.input)) := by
    obtain ⟨i, a, hposition, hattribute, -⟩ := exists_position htype
    exact fun n => ⟨_, n, Compile.code_attribute hposition hattribute n⟩
  rcases h with ⟨name, type, htype, rfl⟩ | ⟨a, -, hc⟩
  · exact hnamed htype
  · cases hc.needed with
    | count => exact succeeds_pure _
    | sum htype _ => exact hnamed htype
    | min htype => exact hnamed htype
    | max htype => exact hnamed htype

/-- Every column can be folded. -/
theorem Regular.succeeds_base (h : Regular d l) (hchecked : d.Accepted) (hc : c ∈ l.columns)
    (horigin : Originates d c) :
    Succeeds (Compile.code context c.base (.single l.internal)) := by
  obtain ⟨j, hj⟩ := List.getElem?_of_mem hc
  have hposition := h.position_column hj
  have hattribute := h.attribute_succ hj
  rcases horigin with ⟨name, type, -, rfl⟩ | ⟨a, ha, hneeded⟩
  · exact fun n => ⟨_, n, Compile.code_attribute hposition hattribute n⟩
  · obtain ⟨kind, hbase, result, hresult⟩ := hneeded.folds (hchecked.checked.2 a ha)
    rw [hbase]
    exact fun n => ⟨_, n + 1, Compile.code_fold_attribute hposition hattribute hresult n⟩

theorem Regular.code_column (h : Regular d l) (hc : l.columns[j]? = some c) (n : Nat) :
    Compile.code context (.named c.name) (.single l.internal) n =
      .ok (.read 0 (j + 1) c.type, n) :=
  Compile.code_attribute (h.position_column hc) (h.attribute_succ hc) n

/-- The code of an average over a column of sums and a column of counts. -/
def averageCode (sum count : Nat) (type : AttributeType) : Code :=
  .arith .divide
    (.arith .multiply (.read 0 (sum + 1) type) (.const (.double (.ofInt 1))) .double)
    (.read 0 (count + 1) .long) .double

theorem Regular.code_average (h : Regular d l) {sum : RollupColumn} {i : Nat}
    (hsum : l.columns[i]? = some sum) (htype : sum.type = .long ∨ sum.type = .double)
    (hcount : l.columns[j]? = some .count) (n : Nat) :
    Compile.code context (.arith .divide
        (.arith .multiply (.named sum.name) (.const (.double (.ofInt 1)))) (.named countName))
      (.single l.internal) n = .ok (averageCode i j sum.type, n) := by
  have hproduct : Compile.arithType .multiply sum.type .double = .ok .double := by
    rcases htype with htype | htype <;> rw [htype] <;> rfl
  exact Compile.code_arith.2 ⟨_, _, n, .double,
    Compile.code_arith.2 ⟨_, _, n, .double, h.code_column hsum n, rfl, hproduct, rfl⟩,
    h.code_column hcount n, rfl, rfl⟩

/-- Every output compiles for the rows that are kept. -/
theorem Regular.succeeds_output (h : Regular d l) {needed : List RollupColumn} {output : Expr}
    (hneeded : columnsFor d a = .ok (needed, output)) (hmem : ∀ c ∈ needed, c ∈ l.columns) :
    Succeeds (Compile.code context output (.single l.internal)) := by
  have hnamed {c : RollupColumn} {name : String} (hc : c ∈ l.columns) (hname : c.name = name) :
      Succeeds (Compile.code context (.named name) (.single l.internal)) := by
    obtain ⟨j, hj⟩ := List.getElem?_of_mem hc
    exact fun n => ⟨_, n, hname ▸ h.code_column hj n⟩
  unfold columnsFor at hneeded
  dsimp only at hneeded
  cases hkind : a.kind with
  | count =>
      rw [hkind] at hneeded
      cases hneeded
      exact hnamed (hmem _ List.mem_cons_self) rfl
  | fold kind =>
      rw [hkind] at hneeded
      cases kind with
      | sum =>
          obtain ⟨sum, hsum, hneeded⟩ := Run.bind_eq_ok.1 hneeded
          cases hneeded
          obtain ⟨type, result, -, -, rfl⟩ := sumColumn_eq_ok hsum
          exact hnamed (hmem _ List.mem_cons_self) rfl
      | avg =>
          obtain ⟨sum, hsum, hneeded⟩ := Run.bind_eq_ok.1 hneeded
          cases hneeded
          obtain ⟨type, result, -, hresult, rfl⟩ := sumColumn_eq_ok hsum
          have htype : result = .long ∨ result = .double := by
            cases type <;> cases hresult <;> simp
          obtain ⟨i, hi⟩ := List.getElem?_of_mem (hmem _ List.mem_cons_self)
          obtain ⟨j, hj⟩ :=
            List.getElem?_of_mem (hmem RollupColumn.count (by simp))
          exact fun n => ⟨_, n, h.code_average hi htype hj n⟩
      | min =>
          obtain ⟨type, htype, hneeded⟩ := Run.bind_eq_ok.1 hneeded
          cases hneeded
          exact hnamed (hmem _ List.mem_cons_self) rfl
      | max =>
          obtain ⟨type, htype, hneeded⟩ := Run.bind_eq_ok.1 hneeded
          cases hneeded
          exact hnamed (hmem _ List.mem_cons_self) rfl

/-! ### Well-formed layouts -/

/-- The codes give rows of a width. -/
def Fits (cs : List Code) (width : Nat) : Prop :=
  cs.length = width ∧
    ∀ rows f m row m', Code.runAll rows cs f m = (.ok row, m') → row.length = width

theorem fits_length (cs : List Code) : Fits cs cs.length :=
  ⟨rfl, fun _ _ _ _ _ hrun => Code.length_runAll hrun⟩

/-- Columns are known by their names. The group-by attributes stand behind the timestamp in their
order, and no partial aggregate among them. What events contribute, how rows are folded and what is
put out compiles, to as many values as there are columns. -/
structure WellFormed (context : Context) (d : RollupDefinition) (l : RollupLayout) : Prop where
  names : l.internal.names.Nodup
  width : l.internal.attributes.length = l.columns.length + 1
  positions : d.groupBy.map l.internal.position =
    (List.range l.groupCount).map fun i => some (i + 1)
  partials : ∀ a ∈ d.aggregates, ∀ c, NeededFor d a c →
    ∃ j, l.groupCount ≤ j ∧ l.columns[j]? = some c
  incoming : ∃ cs, (l.incomingCodes context).finish = .ok cs ∧ Fits cs.code l.columns.length
  base : ∃ cs, (l.baseCodes context).finish = .ok cs ∧ Fits cs.code l.columns.length
  output : ∃ cs, (l.outputCodes context).finish = .ok cs ∧
    cs.code.2.names = timestampColumn :: (d.groupBy ++ d.aggregates.map (·.name)) ∧
    Fits cs.code.1 cs.code.2.attributes.length

/-- A list of expressions that compile gives as many values. -/
theorem fits_compileAll {input : Definition} {es : List Expr}
    (h : ∀ e ∈ es, Succeeds (Compile.code context e (.single input))) :
    ∃ cs, (compileAll context input es).finish = .ok cs ∧ Fits cs.code es.length := by
  obtain ⟨codes, m, hcodes⟩ := Compile.succeeds_codes h 0
  refine ⟨⟨codes, .fresh m⟩, finish_eq_ok.2 ⟨codes, m, mapError_eq_ok.2 hcodes, rfl⟩, ?_⟩
  rw [← Compile.codes_length hcodes]
  exact fits_length codes

theorem Regular.groupCount_le (h : Regular d l) : l.groupCount ≤ l.columns.length := by
  obtain ⟨groups, partials, hcolumns, hgroups, -⟩ := h.columns
  rw [h.groupCount, hcolumns, List.length_append, hgroups.length_eq]
  exact Nat.le_add_right _ _

theorem Regular.names_take (h : Regular d l) :
    (l.columns.take l.groupCount).map (·.name) = d.groupBy := by
  obtain ⟨groups, partials, hcolumns, hgroups, -⟩ := h.columns
  rw [hcolumns, h.groupCount, hgroups.length_eq, List.take_left, names_of_groups hgroups]

theorem Regular.names_outputs (h : Regular d l) :
    l.outputs.map (·.1) = d.aggregates.map (·.name) := by
  have houtputs := h.outputs
  generalize d.aggregates = as at houtputs ⊢
  generalize l.outputs = outputs at houtputs ⊢
  induction houtputs with
  | nil => rfl
  | cons head _ ih => rw [List.map_cons, List.map_cons, ih, head.1]

theorem Regular.position_group (h : Regular d l) {i : Nat} {name : String}
    (hname : d.groupBy[i]? = some name) : l.internal.position name = some (i + 1) := by
  obtain ⟨type, -, hc⟩ := h.column_group hname
  exact h.position_column hc

/-- The expressions of the output row. -/
theorem Regular.outputColumns_eq (h : Regular d l) :
    l.outputColumns = .ok ((timestampColumn, .named timestampColumn) ::
      (((l.columns.take l.groupCount).map fun c => (c.name, Expr.named c.name)) ++ l.outputs)) :=
  if_neg (Nat.not_lt.2 h.groupCount_le)

theorem Regular.succeeds_outputColumns (h : Regular d l) {columns : List (String × Expr)}
    (hcolumns : l.outputColumns = .ok columns) :
    ∀ e ∈ columns.map (·.2), Succeeds (Compile.code context e (.single l.internal)) := by
  rw [h.outputColumns_eq] at hcolumns
  obtain rfl := Except.ok.inj hcolumns
  rw [List.map_cons, List.map_append, List.forall_mem_cons, List.forall_mem_append, List.map_map]
  refine ⟨fun n => ⟨_, n, Compile.code_attribute h.position_timestamp h.attribute_zero n⟩,
    fun e he => ?_, fun e he => ?_⟩
  · obtain ⟨c, hc, rfl⟩ := List.mem_map.1 he
    obtain ⟨j, hj⟩ := List.getElem?_of_mem (List.mem_of_mem_take hc)
    exact fun n => ⟨_, n, h.code_column hj n⟩
  · obtain ⟨output, houtput, rfl⟩ := List.mem_map.1 he
    obtain ⟨k, hk, rfl⟩ := List.getElem_of_mem houtput
    obtain ⟨-, needed, hneeded, hmem⟩ :=
      (List.forall₂_iff_get.1 h.outputs).2 k (h.outputs.length_eq ▸ hk) hk
    exact h.succeeds_output hneeded hmem

theorem Regular.output_compiles (h : Regular d l) :
    ∃ cs, (l.outputCodes context).finish = .ok cs ∧
      cs.code.2.names = timestampColumn :: (d.groupBy ++ d.aggregates.map (·.name)) ∧
      Fits cs.code.1 cs.code.2.attributes.length := by
  obtain ⟨columns, hcolumns⟩ : ∃ columns, l.outputColumns = .ok columns := ⟨_, h.outputColumns_eq⟩
  have hsucceeds : Succeeds (compileAll context l.internal (columns.map (·.2))) :=
    (Compile.succeeds_codes (h.succeeds_outputColumns hcolumns)).mapError _
  obtain ⟨codes, m, hcodes⟩ := hsucceeds 0
  have hlength : codes.length = columns.length := by
    simpa using Compile.codes_length (mapError_eq_ok.1 hcodes)
  refine ⟨⟨(codes, _), .fresh m⟩, finish_eq_ok.2 ⟨_, m, bind_eq_ok.2 ⟨columns, 0,
    lift_eq_ok.2 ⟨hcolumns, rfl⟩, bind_eq_ok.2 ⟨codes, m, hcodes, rfl⟩⟩, rfl⟩, ?_, ?_⟩
  · have hnames : (columns.map (·.1)) =
        timestampColumn :: (d.groupBy ++ d.aggregates.map (·.name)) := by
      obtain rfl := Except.ok.inj (h.outputColumns_eq.symm.trans hcolumns)
      rw [List.map_cons, List.map_append, List.map_map, ← h.names_take, ← h.names_outputs]
      rfl
    rw [← hnames]
    have hzip : (columns.zip codes).map Prod.fst = columns := List.map_fst_zip hlength.ge
    conv_rhs => rw [← hzip, List.map_map]
    rw [Definition.names, List.map_map]
    rfl
  · have hattributes : (columns.zip codes).length = codes.length := by
      rw [List.length_zip, hlength, min_self]
    rw [List.length_map, hattributes]
    exact fits_length codes

theorem Clear.wellFormed (hclear : Clear d) (haccepted : d.Accepted) (h : ofDefinition d = .ok l)
    (context : Context) : WellFormed context d l := by
  have hregular := hclear.regular h
  have horigin := originates_of_ofDefinition h
  refine ⟨hregular.nodup, by rw [hregular.internal]; simp, ?_, fun a ha c hc => ?_, ?_, ?_,
    hregular.output_compiles⟩
  · refine List.ext_getElem (by simp [hregular.groupCount]) fun i hi hi' => ?_
    rw [List.length_map] at hi
    simpa using hregular.position_group (List.getElem?_eq_getElem hi)
  · obtain ⟨needed, output, hneeded, hmem⟩ := hc
    obtain ⟨j, hj⟩ := List.getElem?_of_mem (hregular.mem_columns ha hneeded c hmem)
    refine ⟨j, Nat.le_of_not_lt fun hlt => ?_, hj⟩
    -- The first columns have the names of group-by attributes.
    refine hclear.partials a ha c ⟨needed, output, hneeded, hmem⟩ ?_
    rw [← hregular.names_take]
    exact List.mem_map_of_mem (List.mem_of_getElem? (by rwa [List.getElem?_take_of_lt hlt]))
  · have hcodes : ∀ e ∈ l.columns.map (·.incoming),
        Succeeds (Compile.code context e (.single l.input)) := by
      rw [hregular.input, List.forall_mem_map]
      exact fun c hc => succeeds_incoming (horigin c hc)
    obtain ⟨cs, hcs, hfits⟩ := fits_compileAll hcodes
    exact ⟨cs, hcs, by rwa [List.length_map] at hfits⟩
  · have hcodes : ∀ e ∈ l.columns.map (·.base),
        Succeeds (Compile.code context e (.single l.internal)) := by
      rw [List.forall_mem_map]
      exact fun c hc => hregular.succeeds_base haccepted hc (horigin c hc)
    obtain ⟨cs, hcs, hfits⟩ := fits_compileAll hcodes
    exact ⟨cs, hcs, by rwa [List.length_map] at hfits⟩

theorem WellFormed.position_group (hl : WellFormed context d l) {i : Nat} {name : String}
    (hname : d.groupBy[i]? = some name) : l.internal.position name = some (i + 1) := by
  have hpositions := congrArg (·[i]?) hl.positions
  simp only [List.getElem?_map, hname, Option.map_some] at hpositions
  cases hrange : (List.range l.groupCount)[i]? with
  | none => simp [hrange] at hpositions
  | some k =>
      obtain rfl : k = i := by simpa using (List.getElem?_eq_some_iff.1 hrange).2.symm
      simpa [hrange] using hpositions

/-- Where the layout is well-formed, no columns share a name. -/
theorem WellFormed.clear (hl : WellFormed context d l) (h : ofDefinition d = .ok l) : Clear d := by
  obtain ⟨groups, hgroups, h⟩ := Run.bind_eq_ok.1 h
  obtain ⟨⟨columns, outputs⟩, haggregates, h⟩ := Run.bind_eq_ok.1 h
  cases h
  refine ⟨?_, fun htime => ?_, fun a ha c hc hname => ?_⟩
  · refine List.nodup_iff_getElem?_ne_getElem?.2 fun i j hij hj heq => ?_
    obtain ⟨name, hname⟩ : ∃ name, d.groupBy[j]? = some name := ⟨_, List.getElem?_eq_getElem hj⟩
    have hi := hl.position_group (heq.trans hname)
    rw [hl.position_group hname] at hi
    simp at hi
    omega
  · obtain ⟨i, hi⟩ := List.getElem?_of_mem htime
    have hposition := hl.position_group hi
    rw [Definition.position_of_nodup hl.names (i := 0) rfl] at hposition
    simp at hposition
  · obtain ⟨i, hi⟩ := List.getElem?_of_mem hname
    obtain ⟨j, hj, hcolumn⟩ := hl.partials a ha c hc
    replace hj : d.groupBy.length ≤ j := hj
    have hposition := hl.position_group hi
    have hplace := Definition.position_of_nodup hl.names (i := j + 1) (a := ⟨c.name, c.type⟩)
      (by simpa using ⟨c, hcolumn, rfl, rfl⟩)
    have hlength : i < d.groupBy.length := (List.getElem?_eq_some_iff.1 hi).1
    rw [hplace] at hposition
    simp at hposition
    omega

/-- A declaration that has passed its checks has a layout, and the layout is well-formed just where
no columns share a name. -/
theorem wellFormed_iff_clear (haccepted : d.Accepted) :
    ∃ l, ofDefinition d = .ok l ∧ ∀ context, WellFormed context d l ↔ Clear d := by
  obtain ⟨l, hl⟩ := exists_ofDefinition haccepted
  exact ⟨l, hl, fun context =>
    ⟨fun hwell => hwell.clear hl, fun hclear => hclear.wellFormed haccepted hl context⟩⟩

theorem wellFormed_iff_clear_trades :
    ∃ l, ofDefinition Rollup.Trades.definition = .ok l ∧
      WellFormed .standard Rollup.Trades.definition l := by
  obtain ⟨l, hl, hiff⟩ := wellFormed_iff_clear Rollup.Trades.accepted
  exact ⟨l, hl, (hiff .standard).2 (clear_of_unreserved (by decide) Rollup.Trades.clear)⟩

/-- Trades that are grouped by their symbol twice. -/
def repeated : RollupDefinition :=
  { Rollup.Trades.definition with
    groupBy := ["symbol", "symbol"]
    aggregates := [⟨"total", .fold .sum, some "price"⟩] }

/-- The column of a repeated attribute is kept once, so the second group-by position is that of the
sums. -/
theorem not_wellFormed_repeated :
    repeated.Accepted ∧ ∃ l, ofDefinition repeated = .ok l ∧ l.groupCount = 2 ∧
      l.internal.names = [timestampColumn, "symbol", "AGG_SUM_price"] ∧
      ∀ context, ¬WellFormed context repeated l :=
  ⟨⟨[.seconds, .minutes], rfl⟩, _, rfl, rfl, by decide,
    fun _ hl => absurd (hl.clear rfl).distinct (by decide)⟩

end RollupLayout

end EventQuery
