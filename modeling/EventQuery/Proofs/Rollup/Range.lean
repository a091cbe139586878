import EventQuery.Proofs.Lookup.Soundness
import EventQuery.Rollup.Retrieval

/-!
Time ranges with constant bounds. Their conditions test nothing but the timestamp of a row, so the
timestamps alone tell which rows a scan and a lookup find.
-/

namespace EventQuery

open Allot Compile

/-- Code that tests the timestamp of a row in the second slot. -/
structure Code.Times (c : Code) (test : Int64 → Bool) : Prop where
  stateless : c.isStateless = true
  decision : ∀ (rows : SourceRows) (f : Frame) (row : Event), row.get 0 = .long row.timestamp →
    c.decision rows (f.setSlot 1 (some row)) = .ok (test row.timestamp)

theorem Code.times_compare {op : Comparison} {type : AttributeType} {v : Value}
    {test : Int64 → Bool} (h : ∀ t, op.holds (.long t) v = test t) :
    (Code.compare op (.read 1 0 type) (.const v)).Times test where
  stateless := rfl
  decision rows f row hrow := by
    have hread : (((f.setSlot 1 (some row)).slot 1).map (·.get 0)).getD .null =
        .long row.timestamp := by
      rw [Frame.slot_setSlot, if_pos rfl]
      exact hrow
    simp only [Code.decision, Code.value, hread, Run.ok_bind, h]
    cases test row.timestamp <;> rfl

theorem Code.Times.and {l r : Code} {test test' : Int64 → Bool} (hl : l.Times test)
    (hr : r.Times test') :
    (Code.and l r).Times fun t => test t && test' t where
  stateless := by rw [Code.isStateless, hl.stateless, hr.stateless, Bool.and_true]
  decision rows f row hrow := by
    have hleft := hl.decision rows f row hrow
    have hright := hr.decision rows f row hrow
    simp only [Code.decision, Code.value] at hleft hright ⊢
    obtain ⟨v, hv, hleft⟩ := Run.bind_eq_ok.1 hleft
    obtain ⟨w, hw, hright⟩ := Run.bind_eq_ok.1 hright
    rw [hv, hw, ← Except.ok.inj hleft, ← Except.ok.inj hright]
    simp only [Run.ok_bind]
    cases v.isTrue <;> cases w.isTrue <;> rfl

/-- A condition of a lookup in an aggregation that tests the timestamps of rows. -/
structure Expr.Times (e : Expr) (aggregation : String) (test : Int64 → Bool) : Prop where
  free : e.isAggregateFree = true
  code : ∀ {context : Context} {matching d : Definition} {n m : Nat} {c : Code},
    matching.id ≠ aggregation →
    d.attributes[0]? = some ⟨timestampColumn, .long⟩ →
    Compile.code context e (MatchLayout.join matching d (some aggregation)).layout n = .ok (c, m) →
      c.Times test

section Conditions

variable {context : Context} {matching d : Definition} {aggregation : String} {e : Expr}
  {test : Int64 → Bool}

/-- The timestamp of the aggregation is bound to the row, unless the matching stream has the same
id. -/
theorem Layout.resolve_timestamp (hid : matching.id ≠ aggregation)
    (hd : d.attributes[0]? = some ⟨timestampColumn, .long⟩) :
    (MatchLayout.join matching d (some aggregation)).layout.resolve
      ⟨timestampColumn, some aggregation⟩ = .ok ⟨1, 0, .long⟩ := by
  obtain ⟨id, attributes⟩ := d
  cases attributes with
  | nil => cases hd
  | cons a rest =>
      obtain rfl := Option.some.inj hd
      have hslot : (MatchLayout.join matching ⟨id, ⟨timestampColumn, .long⟩ :: rest⟩
          (some aggregation)).layout.slotOf aggregation = some 1 := by
        simp [Layout.slotOf, MatchLayout.join, Slot.answersTo, List.findIdx?_cons, hid]
      simp only [Layout.resolve, hslot]
      simp [Layout.bindIn, MatchLayout.join, Definition.position, List.findIdx?_cons]

theorem Expr.times_compare {op : Comparison} {v : Value} (h : ∀ t, op.holds (.long t) v = test t) :
    (Expr.compare op (.var ⟨timestampColumn, some aggregation⟩) (.const v)).Times
      aggregation test where
  free := rfl
  code hid hd hcode := by
    obtain ⟨l, r, k, hl, hr, -, rfl⟩ := code_compare.1 hcode
    obtain ⟨b, hb, rfl, rfl⟩ := code_var.1 hl
    obtain rfl := Except.ok.inj (hb.symm.trans (Layout.resolve_timestamp hid hd))
    obtain ⟨rfl, -⟩ := pure_eq_ok.1 hr
    exact Code.times_compare h

theorem Expr.Times.and {l r : Expr} {test' : Int64 → Bool} (hl : l.Times aggregation test)
    (hr : r.Times aggregation test') :
    (Expr.and l r).Times aggregation fun t => test t && test' t where
  free := by rw [Expr.isAggregateFree, hl.free, hr.free, Bool.and_true]
  code hid hd hcode := by
    obtain ⟨l', r', k, hl', hr', -, -, rfl⟩ := code_and.1 hcode
    exact (hl.code hid hd hl').and (hr.code hid hd hr')

/-- A time range with constant bounds. -/
def Within.Spans (w : Within) (start stop : Int64) : Prop :=
  ∃ a b, w.bounds = .ok (.const a, .const b) ∧ a.asLong = some start ∧ b.asLong = some stop

theorem Within.Spans.conditions {w : Within} {start stop : Int64} (h : w.Spans start stop)
    (aggregation : String) :
    ∃ since before, w.conditions aggregation = .ok (since, before) ∧
      since.Times aggregation (fun t => decide (start ≤ t)) ∧
      before.Times aggregation fun t => decide (t < stop) := by
  obtain ⟨a, b, hbounds, ha, hb⟩ := h
  refine ⟨_, _, by rw [Within.conditions, hbounds]; rfl, ?_, ?_⟩
  · exact Expr.times_compare fun t => Comparison.greaterEqual_integers rfl ha
  · exact Expr.times_compare fun t => Comparison.less_integers rfl hb

end Conditions

theorem Container.events_ofEvents (events : List Event) :
    (Container.ofEvents events).events.map (·.event) = events := by
  rw [Container.ofEvents, Container.events]
  exact List.ext_getElem (by simp) fun i _ _ => by simp

namespace Operator

variable {c : Code} {test : Int64 → Bool} {rows : SourceRows} {frame : Frame} {events : List Event}
  {m m' : Memory}

/-- The operator of a scan, whose rows stand in the second slot. -/
def scanning (c : Code) : Operator := ⟨.scan .chunk c, 1⟩

theorem accepts_scanning (hc : c.isStateless = true) (e : StoredEvent) :
    (scanning c).accepts rows frame c e =
      Run.ofExcept ((c.decision rows (frame.setSlot 1 (some e.event))).mapError .eval) := by
  rw [accepts, Code.test_eq_decision hc, Run.mapError_ofExcept]
  rfl

theorem accepts_times (hc : c.Times test) (o : Operator) (ho : o.storeSlot = 1) {e : StoredEvent}
    (he : e.event.get 0 = .long e.event.timestamp) :
    o.accepts rows frame c e = pure (test e.event.timestamp) := by
  rw [accepts, ho, Code.test_eq_decision hc.stateless, hc.decision rows frame e.event he]
  rfl

/-- A scan keeps the rows of the range, in their order. -/
theorem find_scanning {p : Event → Bool} {found : List StoredEvent}
    (h : ∀ e : StoredEvent, e.event ∈ events →
      (scanning c).accepts rows frame c e = pure (p e.event))
    (hfind : (scanning c).find rows frame (.ofEvents events) m = (.ok found, m')) :
    found.map (·.event) = events.filter p := by
  have hscan : Run.filterM ((scanning c).accepts rows frame c) (Container.ofEvents events).events =
      pure ((Container.ofEvents events).events.filter fun e => p e.event) := by
    refine Run.filterM_pure fun e he => h e ?_
    rw [← Container.events_ofEvents events]
    exact List.mem_map_of_mem he
  replace hfind :
      Run.filterM ((scanning c).accepts rows frame c) (Container.ofEvents events).events m =
        (.ok found, m') := hfind
  rw [hscan] at hfind
  obtain rfl := Except.ok.inj (Prod.mk.inj hfind).1
  conv_rhs => rw [← Container.events_ofEvents events, List.filter_map]
  rfl

/-- Whether a scan of one row finds it. -/
theorem contains_row (hc : c.isStateless = true) (row : Event) :
    (scanning c).contains rows frame (.ofEvents [row]) =
      Run.ofExcept ((c.decision rows (frame.setSlot 1 (some row))).mapError .eval) := by
  change Run.anyM ((scanning c).accepts rows frame c) [⟨0, row⟩] = _
  rw [Run.anyM_ofExcept fun e _ => accepts_scanning hc e, Run.anyPasses]
  cases c.decision rows (frame.setSlot 1 (some row)) with
  | error x => rfl
  | ok passes => cases passes <;> rfl

/-- A lookup in a table of the aggregation finds the rows of the range, each once. -/
theorem find_table {e : Expr} {aggregation : String} (he : e.Times aggregation test)
    {context : Context} {matching d : Definition} (hid : matching.id ≠ aggregation)
    (hd : d.attributes[0]? = some ⟨timestampColumn, .long⟩) {table₀ table : Holder} {o : Operator}
    {n k : Nat} (htable₀ : table₀.definition = d)
    (hcompile : Operator.compile context (.join matching d (some aggregation)) e
      (.indexed table₀ table₀.capability) n = .ok (o, k))
    (htable : table.Keyless d) (hrows : ∀ row ∈ table.rows, row.get 0 = .long row.timestamp)
    {seen : Capability} {found : List StoredEvent}
    (hfind : o.find rows frame (.indexed table seen) m = (.ok found, m')) :
    (found.map (·.event)).Perm (table.rows.filter fun row => test row.timestamp) := by
  obtain ⟨c, cl, p, _, hc, hcl, hp, rfl⟩ := compile_indexed hcompile
  replace hc := (condition_eq_ok.1 hc).1
  have htimes := he.code hid hd hc
  have hdescribes :
      Describes context table₀.capability (.join matching d (some aggregation)) cl c :=
    describes_of_classify (htable₀ ▸ rfl) e he.free hc hcl
  have hanswered := Plan.answered_of_build (s := ⟨rows, table, 1, frame⟩) htable.consistent rfl
    (htable₀.trans htable.definition.symm) hdescribes hp
  replace hfind : p.find ⟨rows, table, 1, frame⟩ m = (.ok found, m') := hfind
  rcases Plan.find_of_answered hanswered with ⟨events, hevents, hdrawn, hsettles⟩ | ⟨x, -, hfails⟩
  · rw [hevents] at hfind
    obtain rfl := Except.ok.inj (Prod.mk.inj hfind).1
    have hperm : events.Perm (table.events.filter fun e => test e.event.timestamp) := by
      refine (List.perm_ext_iff_of_nodup hdrawn.nodup (htable.consistent.nodup.filter _)).2
        fun x => ?_
      rw [List.mem_filter]
      constructor
      · intro hx
        have hstored := hdrawn.subset x hx
        have hdecided := htimes.decision rows frame x.event (hrows _ (List.mem_map_of_mem hstored))
        exact ⟨hstored, (hsettles.decided x hstored _ hdecided).1 hx⟩
      · rintro ⟨hstored, htrue⟩
        have hdecided := htimes.decision rows frame x.event (hrows _ (List.mem_map_of_mem hstored))
        exact (hsettles.decided x hstored _ hdecided).2 htrue
    have hmap := hperm.map (·.event)
    have hrange := List.filter_map (f := StoredEvent.event) (p := fun row => test row.timestamp)
      (l := table.events)
    exact hrange ▸ hmap
  · rw [hfails] at hfind
    cases (Prod.mk.inj hfind).1

end Operator

end EventQuery
