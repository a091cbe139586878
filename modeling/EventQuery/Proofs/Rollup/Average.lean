import EventQuery.Proofs.Eval.Average
import EventQuery.Proofs.Rollup.Sources

/-!
Averages of integers over time. An average is kept as a sum and as a count, and a lookup divides the
one by the other. As the count is that of all events, a lookup shows the average of the events of a
bucket where none of them lacks a value, and divides by too many where some do.
-/

namespace EventQuery

open Number

namespace Code

variable {rows : SourceRows} {source : Event} {i j : Nat} {type : AttributeType} {m : Memory}

theorem run_read_single (position : Nat) :
    (Code.read 0 position type).run rows (.single source) m = (.ok (source.get position), m) := rfl

/-- The sum times one is the sum, and it is divided by the count. -/
theorem run_averageCode {sum : Int} {count : Nat} (hsum : source.get (i + 1) = .long (.ofInt sum))
    (hcount : source.get (j + 1) = .long (.ofNat count)) (hsmall : sum.natAbs < 2 ^ 53)
    (hlt : count < 2 ^ 63) (hpos : 0 < count) :
    (RollupLayout.averageCode i j .long).run rows (.single source) m =
      (.ok (average sum count), m) := by
  have hsumInt : (Int64.ofInt sum).toInt = sum := Int64.toInt_ofInt_of_le (by omega) (by omega)
  have hcountInt : (Int64.ofNat count).toInt = count := by
    rw [← Int64.ofInt_eq_ofNat, Int64.toInt_ofInt_of_le (by omega) (by omega)]
  have hproduct : Arithmetic.multiply.apply (.long (.ofInt sum)) (.double (.ofInt 1)) .double =
      .ok (.double (.ofInt sum)) := by
    rw [← Double.ofInt_mul_one hsmall]
    simp [Arithmetic.apply, Arithmetic.applyIn, Arithmetic.onDoubles, Value.isNull, Value.asDouble,
      hsumInt]
  have hquotient : Arithmetic.divide.apply (.double (.ofInt sum)) (.long (.ofNat count)) .double =
      .ok (average sum count) := by
    simp [Arithmetic.apply, Arithmetic.applyIn, Arithmetic.onDoubles, Value.isNull, Value.asDouble,
      hcountInt, average, hpos.ne']
  have hinner : (Code.arith .multiply (.read 0 (i + 1) .long) (.const (.double (.ofInt 1)))
      .double).run rows (.single source) m = (.ok (.double (.ofInt sum)), m) := by
    rw [Code.run, Run.bind_of_ok (run_read_single _), hsum]
    simp [Code.run, hproduct, Run.run_ofExcept]
  rw [RollupLayout.averageCode, Code.run, Run.bind_of_ok hinner,
    Run.bind_of_ok (run_read_single _), hcount, hquotient, Run.run_ofExcept]

end Code

variable {d : RollupDefinition} {argument : String}

/-- The row that is put out for the row of a bucket has the sum of the integers of all events of the
bucket, divided by the number of these events. -/
theorem RollupLayout.Regular.getElem?_average {l : RollupLayout} {g : Granularity} {source : Event}
    {s : Multiset Placed} {context : Context} {codes : List Code} {definition : Definition}
    {m m' : Memory} {data : List Value} (h : l.Regular d)
    (hcodes : (l.outputCodes context).Gives (codes, definition))
    (hrun : Code.runAll noRows codes (.single source) m = (.ok data, m'))
    (hs : Summarizes d l g source s) {k : Nat} {a : AggregateOutput}
    (ha : d.aggregates[k]? = some a) (hkind : a.kind = .fold .avg)
    (hargument : a.argument = some argument) {type : AttributeType}
    (htype : d.input.typeOf argument = some type) (hinteger : type = .int ∨ type = .long)
    {values : List Value}
    (hvalues : (s.map fun x => x.2.get ((l.input.position argument).getD 0)) =
      (values : Multiset Value))
    (hexact : AddsExactly values) :
    values ≠ [] ∧ data[1 + l.groupCount + k]? =
      some (average (values.map Value.longPart).sum values.length) := by
  obtain ⟨hk, rfl⟩ := List.getElem?_eq_some_iff.1 ha
  have hk' : k < l.outputs.length := h.outputs.length_eq ▸ hk
  obtain ⟨-, needed, hneeded, hmem⟩ := (List.forall₂_iff_get.1 h.outputs).2 k hk hk'
  have hcolumns := columnsFor_average htype hinteger hkind hargument
  obtain ⟨rfl, houtput⟩ := Prod.mk.inj (Except.ok.inj (hneeded.symm.trans hcolumns))
  obtain ⟨i, hi⟩ := List.getElem?_of_mem (hmem _ List.mem_cons_self)
  obtain ⟨j, hj⟩ := List.getElem?_of_mem (hmem .count (by simp))
  have hsum := hs.get_sum hi
  have hcount := hs.get_count hj
  have hcard : Multiset.card s = values.length := by simpa using congrArg Multiset.card hvalues
  rw [hvalues, Multiset.map_coe, Multiset.sum_coe] at hsum
  rw [hcard] at hcount
  have hpos : 0 < values.length := hcard ▸ Multiset.card_pos.2 hs.represents.nonempty
  refine ⟨List.ne_nil_of_length_pos hpos, ?_⟩
  obtain ⟨c, v, n, n', m₁, m₂, hcode, hv, hdata⟩ :=
    h.exists_run_of_output hcodes hrun (List.getElem?_eq_getElem hk')
  -- The expression of the average compiles to the quotient of the two columns.
  rw [List.get_eq_getElem] at houtput
  rw [houtput] at hcode
  obtain ⟨rfl, -⟩ :=
    Prod.mk.inj (Except.ok.inj (hcode.symm.trans (h.code_average hi (.inl rfl) hj n)))
  obtain ⟨hvalue, -⟩ := Prod.mk.inj
    (hv.symm.trans (Code.run_averageCode hsum hcount hexact.sum_lt hexact.length hpos))
  rw [hdata, Except.ok.inj hvalue]

/-- An average of integers compiles to a fold of the attribute. -/
theorem Evaluator.ofExpr_average {context : Context} {input : Definition} {type : AttributeType}
    (htype : input.typeOf argument = some type) (hinteger : type = .int ∨ type = .long) :
    Evaluator.ofExpr context (.call none "avg" [.named argument]) (.single input) =
      .ok ⟨.averageOf ((input.position argument).getD 0) type, .fresh 1⟩ := by
  obtain ⟨i, a, hposition, ha, rfl⟩ := RollupLayout.exists_position htype
  have hresult : FoldKind.avg.resultType a.type = .ok .double := by
    rcases hinteger with hinteger | hinteger <;> rw [hinteger] <;> rfl
  rw [hposition]
  exact Allot.finish_eq_ok.2
    ⟨_, 1, Compile.code_fold_attribute hposition ha hresult 0, rfl⟩

namespace Rollup

variable {r r₀ r₁ : Rollup} {context : Context} {events earlier : List Event}

theorem After.forall_current {admits : Rollup → Event → Prop} (h : After admits r₀ events r) :
    ∀ e ∈ events, e.kind = .current := by
  induction h with
  | start => simp
  | process earlier current _ _ ih => exact List.forall_mem_append.2 ⟨ih, by simpa using current⟩

/-- Of events in the order of time, every row that a lookup finds shows the sum of the integers of
the events of its bucket, divided by the number of these events. A fresh average over the same
events divides by the number of those that have a value, so the two agree where all have one. -/
theorem After.find_average (haccepted : d.Accepted) (hclear : RollupLayout.Clear d)
    (hstart : Rollup.start d context = .ok r₀)
    (hcompiled : After (fun _ _ => True) r₀ earlier r₁) {sources rows : SourceRows} {on per : Expr}
    {within : Within} {matching : Definition} {compiled : Stateful Retrieval}
    (hcompile : r₁.compile sources on within per matching = .ok compiled)
    (hafter : After (fun _ _ => True) r₀ events r)
    (hascending : events.Pairwise (·.timestamp ≤ ·.timestamp))
    (hconforms : ∀ e ∈ events, e.Conforms d.input) {k : Nat} {a : AggregateOutput}
    (ha : d.aggregates[k]? = some a) (hkind : a.kind = .fold .avg)
    (hargument : a.argument = some argument) {type : AttributeType}
    (htype : d.input.typeOf argument = some type) (hinteger : type = .int ∨ type = .long)
    {frame : Frame} {m m' : Memory} {found : List Event} {trace : RetrievalTrace}
    (hfind : r.find rows frame compiled.code m = (.ok (found, trace), m')) :
    ∃ g ∈ d.granularities, (∃ m₁, compiled.code.perFor rows frame m = (.ok g, m₁)) ∧
      ∃ fresh, Evaluator.ofExpr context (.call none "avg" [.named argument]) (.single d.input) =
          .ok fresh ∧
        ∀ row ∈ found,
          let group := events.filter fun e =>
            d.bucketOf g e = some (rowLabel d.groupBy.length row)
          let values := group.map fun e => e.get ((d.input.position argument).getD 0)
          let shown := row.get (1 + d.groupBy.length + k)
          let total := (values.map Value.longPart).sum
          AddsExactly values → group ≠ [] ∧ shown = average total values.length ∧
            ∃ returned, fresh.outcomes noRows group = .ok returned ∧
              returned.getLast? = some (average total (values.countP fun v => !v.isNull)) ∧
              ((∀ v ∈ values, v.isNull = false) → returned.getLast? = some shown) := by
  obtain ⟨hl, hcodes, g, hg, hper, hsources⟩ :=
    After.exists_source haccepted hclear hstart hcompiled hcompile hafter hascending hfind
  refine ⟨g, hg, hper, _, Evaluator.ofExpr_average htype hinteger, fun row hrow => ?_⟩
  intro group values shown total hexact
  obtain ⟨source, s, m₁, m₂, hdata, hs, hgroup⟩ := hsources row hrow
  have hvalues : (s.map fun x => x.2.get ((r.layout.input.position argument).getD 0)) =
      (values : Multiset Value) := by
    rw [hl.input, ← Multiset.map_coe, ← hgroup, Multiset.map_map]
    rfl
  obtain ⟨hne, hshown⟩ :=
    hl.getElem?_average hcodes hdata hs ha hkind hargument htype hinteger hvalues hexact
  rw [hl.groupCount] at hshown
  replace hshown : shown = average total values.length := by
    show (row.data[1 + d.groupBy.length + k]?).getD .null = _
    rw [hshown, Option.getD_some]
  -- A fresh average starts with no values and takes in those of the group.
  have hmem : ∀ e ∈ group, e ∈ events := fun e he => (List.mem_filter.1 he).1
  obtain ⟨i, declared, hposition, hdeclared, rfl⟩ := RollupLayout.exists_position htype
  have hintegers : ∀ e ∈ group, (e.get ((d.input.position argument).getD 0)).IsInteger := by
    intro e he
    rw [hposition]
    exact (hconforms e (hmem e he) i declared hdeclared).isInteger hinteger
  have hgroupNe : group ≠ [] := fun hnil => hne (by simp [values, hnil])
  obtain ⟨returned, hreturned, hlast⟩ := Evaluator.outcomes_fresh noRows declared.type
    (fun e he => hafter.forall_current e (hmem e he)) hintegers hexact hgroupNe
  refine ⟨hgroupNe, hshown, returned, hreturned, hlast, fun hall => ?_⟩
  rw [hlast, hshown]
  have hcount : values.countP (fun v => !v.isNull) = values.length :=
    List.countP_eq_length.2 fun v hv => by simp [hall v hv]
  exact congrArg (fun n => some (average total n)) hcount

/-! ### Prices, averaged by the second -/

namespace Prices

def definition : RollupDefinition :=
  ⟨"Stats", ⟨"Trade", [⟨"price", .int⟩]⟩, [], [⟨"mean", .fold .avg, some "price"⟩], [.seconds], 0⟩

def price (timestamp : Int64) (value : Value) : Event := .current timestamp [value]

theorem conforms_price {timestamp : Int64} {value : Value} (h : value.HasType .int) :
    (price timestamp value).Conforms definition.input := by
  intro i a ha
  cases i with
  | zero =>
      cases ha
      exact h
  | succ i => cases ha

theorem accepted : definition.Accepted := ⟨[.seconds], rfl⟩

theorem clear : RollupLayout.Clear definition :=
  RollupLayout.clear_of_unreserved List.nodup_nil (by simp [definition])

theorem isSome_start :
    (Rollup.start definition .standard).toOption.isSome = true := by decide +kernel

def started : Rollup := (Rollup.start definition .standard).toOption.get isSome_start

theorem start_eq : Rollup.start definition .standard = .ok started :=
  Trades.eq_ok_of_isSome isSome_start

def tenSeconds : Within := .range (.const (.long 0)) (.const (.long 10000))

def perSecond : Except RollupError (Stateful Retrieval) :=
  started.compile noRows (.const (.bool true)) tenSeconds (.const (.string "seconds")) ⟨"Q", []⟩

theorem isSome_perSecond : perSecond.toOption.isSome = true := by decide +kernel

def lookup : Stateful Retrieval := perSecond.toOption.get isSome_perSecond

theorem perSecond_eq : perSecond = .ok lookup := Trades.eq_ok_of_isSome isSome_perSecond

/-- The average price of a second. -/
def mean (second : Int64) (value : Int) : Event :=
  .current second [.long second, .double (.ofInt value)]

/-- The aggregation after some events. -/
def after (events : List Event) : Rollup := events.foldl (fun r e => (r.process e).2) started

theorem after_snoc {events : List Event} {e : Event}
    (h : After (fun _ _ => True) started events (after events)) (hcurrent : e.kind = .current)
    (hok : ((after events).process e).1.isOk = true) :
    After (fun _ _ => True) started (events ++ [e]) (after (events ++ [e])) := by
  rw [show after (events ++ [e]) = ((after events).process e).2 by simp [after]]
  exact h.process hcurrent trivial (Trades.process_eq hok)

end Prices

/-- Two of three prices are of one second. -/
theorem After.find_average_prices :
    ∃ trace fresh returned,
      (Prices.after [Prices.price 1000 (.int 2), Prices.price 1500 (.int 4),
          Prices.price 2000 (.int 7)]).find noRows (.single (.current 0 [])) Prices.lookup.code
        Prices.lookup.memory =
          (.ok ([Prices.mean 1000 3, Prices.mean 2000 7], trace), Prices.lookup.memory) ∧
      Evaluator.ofExpr .standard (.call none "avg" [.named "price"])
        (.single Prices.definition.input) = .ok fresh ∧
      fresh.outcomes noRows [Prices.price 1000 (.int 2), Prices.price 1500 (.int 4)] =
        .ok returned ∧
      returned.getLast? = some (.double (.ofInt 3)) := by
  have hstart : After (fun _ _ => True) Prices.started [] (Prices.after []) := .start
  have hfirst := Prices.after_snoc (e := Prices.price 1000 (.int 2)) hstart rfl (by decide +kernel)
  have hsecond := Prices.after_snoc (e := Prices.price 1500 (.int 4)) hfirst rfl
    (by decide +kernel)
  have hthird := Prices.after_snoc (e := Prices.price 2000 (.int 7)) hsecond rfl
    (by decide +kernel)
  have hfind : (Prices.after [Prices.price 1000 (.int 2), Prices.price 1500 (.int 4),
      Prices.price 2000 (.int 7)]).find noRows (.single (.current 0 [])) Prices.lookup.code
        Prices.lookup.memory =
          (.ok ([Prices.mean 1000 3, Prices.mean 2000 7], ⟨1, true, 1, 1⟩),
            Prices.lookup.memory) := by
    decide +kernel
  have hconforms : ∀ e ∈ [Prices.price 1000 (.int 2), Prices.price 1500 (.int 4),
      Prices.price 2000 (.int 7)], e.Conforms Prices.definition.input :=
    List.forall_mem_cons.2 ⟨Prices.conforms_price (.inr rfl),
      List.forall_mem_cons.2 ⟨Prices.conforms_price (.inr rfl),
        List.forall_mem_singleton.2 (Prices.conforms_price (.inr rfl))⟩⟩
  obtain ⟨g, hg, -, fresh, hfresh, hrows⟩ := After.find_average Prices.accepted Prices.clear
    Prices.start_eq .start Prices.perSecond_eq hthird (by decide) hconforms (k := 0) rfl rfl rfl rfl
    (.inl rfl) hfind
  obtain rfl : g = .seconds := by simpa [Prices.definition] using hg
  obtain ⟨-, -, returned, hreturned, -, hlast⟩ := hrows (Prices.mean 1000 3) (by simp)
    (by decide +kernel)
  exact ⟨_, fresh, returned, hfind, hfresh, hreturned, hlast (by decide +kernel)⟩

/-- Of three events of one second, one has no price. The lookup divides the sum of the prices by
three, and a fresh average over the events by two. -/
theorem After.find_average_counts_nulls :
    let events := [Prices.price 1000 (.int 2), Prices.price 1000 .null, Prices.price 1000 (.int 4)]
    After (fun _ _ => True) Prices.started events (Prices.after events) ∧
      events.Pairwise (·.timestamp ≤ ·.timestamp) ∧
      (∀ e ∈ events, e.Conforms Prices.definition.input) ∧
      AddsExactly (events.map fun e => e.get 0) ∧
      (∀ e ∈ events, Prices.definition.bucketOf .seconds e =
        some (rowLabel 0 (Prices.mean 1000 2))) ∧
      (∃ trace, (Prices.after events).find noRows (.single (.current 0 [])) Prices.lookup.code
        Prices.lookup.memory = (.ok ([Prices.mean 1000 2], trace), Prices.lookup.memory)) ∧
      ∃ fresh returned, Evaluator.ofExpr .standard (.call none "avg" [.named "price"])
          (.single Prices.definition.input) = .ok fresh ∧
        fresh.outcomes noRows events = .ok returned ∧
        returned.getLast? = some (.double (.ofInt 3)) ∧
        returned.getLast? ≠ some ((Prices.mean 1000 2).get 1) := by
  have hstart : After (fun _ _ => True) Prices.started [] (Prices.after []) := .start
  have hfirst := Prices.after_snoc (e := Prices.price 1000 (.int 2)) hstart rfl (by decide +kernel)
  have hsecond := Prices.after_snoc (e := Prices.price 1000 .null) hfirst rfl (by decide +kernel)
  have hthird := Prices.after_snoc (e := Prices.price 1000 (.int 4)) hsecond rfl
    (by decide +kernel)
  refine ⟨hthird, by decide, ?_, by decide +kernel, by decide +kernel, ⟨⟨0, true, 1, 1⟩, ?_⟩, _,
    [.double (.ofInt 2), .double (.ofInt 2), .double (.ofInt 3)],
    Evaluator.ofExpr_average rfl (.inl rfl), ?_, rfl, by decide +kernel⟩
  · exact List.forall_mem_cons.2 ⟨Prices.conforms_price (.inr rfl),
      List.forall_mem_cons.2 ⟨Prices.conforms_price (.inl rfl),
        List.forall_mem_singleton.2 (Prices.conforms_price (.inr rfl))⟩⟩
  · decide +kernel
  · decide +kernel

end Rollup

end EventQuery
