import EventQuery.Proofs.Lookup.Shortcuts
import EventQuery.Proofs.Rollup.Exact
import EventQuery.Proofs.Rollup.WellFormed

/-!
The rows behind the rows that a lookup finds, whatever its condition, its time range and its
granularity are. Each has been put out for a row of the table, or for one that has been folded from
the memory, and such a row stands for all events of its bucket. Events in the order of time are
never late, so these are the events that belong into the bucket.
-/

namespace EventQuery

/-- What an operator finds is among the candidates. -/
theorem Operator.mem_of_find {o : Operator} {rows : SourceRows} {frame : Frame} {c : Container}
    {m m' : Memory} {found : List StoredEvent}
    (hc : ∀ h seen, c = .indexed h seen → h.Consistent)
    (h : o.find rows frame c m = (.ok found, m')) : ∀ e ∈ found, e ∈ c.events := by
  obtain ⟨strategy, storeSlot⟩ := o
  cases strategy with
  | plan p =>
      cases c with
      | indexed holder seen => exact (Plan.drawn_of_find (hc _ _ rfl) h).subset
      | _ => cases h
  | scan kind condition =>
      simp only [Operator.find] at h
      split at h
      · exact fun e he => (Run.sublist_filterM h).subset he
      · cases h

namespace Retrieval

variable {c : Retrieval} {g : Granularity} {table : Holder} {stores : List BucketStore}
  {rows : SourceRows} {frame : Frame} {m m' : Memory} {found : List Event} {trace : RetrievalTrace}

/-- The rows that a lookup draws from: those of the table, and those folded from the memory. -/
def Draws (c : Retrieval) (g : Granularity) (table : Holder) (stores : List BucketStore)
    (source : Event) : Prop :=
  source ∈ table.rows ∨
    ∃ folded, c.folded g stores = .ok folded ∧ source ∈ folded.buckets.map (·.toEvent)

theorem exists_source_of_outputAll {sources outputs : List Event}
    (h : c.outputAll sources m = (.ok outputs, m')) :
    ∀ row ∈ outputs, ∃ source ∈ sources, ∃ k k', c.output source k = (.ok row, k') := by
  induction sources generalizing outputs m with
  | nil =>
      cases h
      simp
  | cons source rest ih =>
      obtain ⟨first, k, hfirst, h⟩ := Run.of_run_bind h
      obtain ⟨others, _, hothers, h⟩ := Run.of_run_bind h
      cases h
      refine List.forall_mem_cons.2 ⟨⟨source, List.mem_cons_self, m, k, hfirst⟩, fun row hrow => ?_⟩
      obtain ⟨source', hsource', hrun⟩ := ih hothers row hrow
      exact ⟨source', List.mem_cons_of_mem _ hsource', hrun⟩

/-- Operators on rows in memory find some of them. -/
theorem mem_of_find_ofEvents {o : Operator} {events : List Event} {matched : List StoredEvent}
    (h : o.find rows frame (.ofEvents events) m = (.ok matched, m')) :
    ∀ row ∈ matched.map (·.event), row ∈ events := by
  have hmem := Operator.mem_of_find (fun _ _ heq => by cases heq) h
  rw [List.forall_mem_map]
  intro e he
  rw [← Container.events_ofEvents events]
  exact List.mem_map_of_mem (hmem e he)

/-- Every row that is found has been put out for a row that the lookup draws from. -/
theorem exists_source_of_find (htable : table.Consistent)
    (h : c.find rows frame g table stores m = (.ok (found, trace), m')) :
    ∀ row ∈ found, ∃ source k k', c.output source k = (.ok row, k') ∧
      c.Draws g table stores source := by
  obtain ⟨operator, _, hoperator, h⟩ := Run.of_run_bind h
  obtain ⟨persisted, _, hpersisted, h⟩ := Run.of_run_bind h
  have hstored := Operator.mem_of_find (fun _ _ heq => by cases heq; exact htable)
    (Run.of_run_mapError hpersisted)
  obtain ⟨merges, _, hmerges, h⟩ := Run.of_run_bind h
  -- What is selected from the table and from the memory is what the lookup draws from.
  obtain ⟨selected, hselected, h⟩ : ∃ selected,
      (∀ source ∈ selected, c.Draws g table stores source) ∧
      ∃ outputs matched k₁ k₂ k₃, c.outputAll selected k₁ = (.ok outputs, k₂) ∧
        c.on.find rows frame (.ofEvents outputs) k₃ = (.ok matched, m') ∧
        found = matched.map (·.event) := by
    have htableRows : ∀ source ∈ persisted.map (·.event), c.Draws g table stores source :=
      List.forall_mem_map.2 fun e he => .inl (List.mem_map_of_mem (hstored e he))
    cases merges with
    | true =>
        obtain ⟨folded, _, hfolded, h⟩ := Run.of_run_bind h
        obtain ⟨live, _, hlive, h⟩ := Run.of_run_bind h
        refine ⟨_, List.forall_mem_append.2 ⟨htableRows, fun source hsource => .inr ⟨folded, ?_⟩⟩,
          outputs_of_run h⟩
        exact ⟨(Run.of_run_ofExcept hfolded).1,
          mem_of_find_ofEvents (Run.of_run_mapError hlive) source hsource⟩
    | false =>
        exact ⟨_, List.forall_mem_append.2 ⟨htableRows, by simp⟩, outputs_of_run h⟩
  obtain ⟨outputs, matched, _, _, _, houtputs, hmatched, rfl⟩ := h
  intro row hrow
  obtain ⟨source, hsource, k, k', hrun⟩ :=
    exists_source_of_outputAll houtputs row (mem_of_find_ofEvents hmatched row hrow)
  exact ⟨source, k, k', hrun, hselected source hsource⟩

end Retrieval

variable {d : RollupDefinition} {l : RollupLayout} {g : Granularity} {source row : Event}
  {s : Multiset Placed}

/-- A row that a lookup draws from stands for all events of its bucket. -/
theorem Reading.summarizes_source {table : Holder} {entries : List (Option String × Bucket)}
    {stored kept : Multiset Placed} (h : Reading d l g table entries stored kept)
    (hl : l.Regular d) {code : FoldCode}
    (hcodes : BaseCodes l.columns code.code code.memory.cells.length)
    (hsource : source ∈ table.rows ∨ ∃ folded, Retrieval.foldInto code g entries [] = .ok folded ∧
      source ∈ folded.buckets.map (·.toEvent)) :
    Summarizes d l g source ((stored + kept).filter fun x =>
      d.bucketAt g x.1 x.2 = some (rowLabel l.groupCount source)) := by
  rw [Multiset.filter_add]
  rcases hsource with hrow | ⟨folded, hfold, hrow⟩
  · have hnone : kept.filter (fun x =>
        d.bucketAt g x.1 x.2 = some (rowLabel l.groupCount source)) = 0 := by
      refine Multiset.filter_eq_nil.2 fun x hx hlabel => ?_
      -- The table ends before the buckets in memory.
      obtain ⟨e, he, t, -, ⟨f, hrank, hentry⟩, hxt⟩ := h.memory.exists_part hx
      have hstart := (Granularity.startTime_startTime hrank (hentry.placed x hxt)).2
        (RollupDefinition.bucketAt_eq_some.1 hlabel).1
      exact Int64.lt_irrefl (h.below e he _ hstart source hrow)
    rw [hnone, add_zero]
    exact h.rows.part_eq_filter (fun _ _ hrow _ hx => hrow.bucketAt hx) h.nodup hrow
  · obtain ⟨hgathers, hbelow⟩ := h.folded hfold
    have hparts := Parts.map Bucket.toEvent (hgathers.summarizes hl hcodes)
    have hnodup : ((folded.buckets.map (·.toEvent)).map (rowLabel l.groupCount)).Nodup := by
      rw [List.map_map]
      exact hgathers.nodup_labels hl hcodes
    have hnone : stored.filter (fun x =>
        d.bucketAt g x.1 x.2 = some (rowLabel l.groupCount source)) = 0 := by
      refine Multiset.filter_eq_nil.2 fun x hx hlabel => ?_
      obtain ⟨row, hstored, t, -, hsummarizes, hxt⟩ := h.rows.exists_part hx
      have heq := Option.some.inj ((hsummarizes.bucketAt hxt).symm.trans hlabel)
      have hlt := hbelow row hstored source.timestamp (hgathers.timestamp_of_row hrow)
      exact Int64.ne_of_lt hlt (Prod.mk.inj heq).1
    rw [hnone, zero_add]
    exact hparts.part_eq_filter (fun _ _ hrow _ hx => hrow.bucketAt hx) hnodup hrow

/-! ### Rows that are put out -/

namespace RollupLayout

variable {context : Context} {codes : List Code} {definition : Definition} {m m' : Memory}
  {data : List Value}

/-- The row that is put out has the value of every expression in its place. -/
theorem exists_run_of_outputs (hcodes : (l.outputCodes context).Gives (codes, definition))
    (hrun : Code.runAll noRows codes (.single source) m = (.ok data, m'))
    {columns : List (String × Expr)} (hcolumns : l.outputColumns = .ok columns) {i : Nat}
    {column : String × Expr} (hi : columns[i]? = some column) :
    ∃ c v n n' k k', Compile.code context column.2 (.single l.internal) n = .ok (c, n') ∧
      c.run noRows (.single source) k = (.ok v, k') ∧ data[i]? = some v := by
  obtain ⟨n, n', hcodes⟩ := hcodes
  obtain ⟨columns', _, hcolumns', hcodes⟩ := Allot.bind_eq_ok.1 hcodes
  obtain ⟨codes', _, hcodes', hcodes⟩ := Allot.bind_eq_ok.1 hcodes
  cases hcodes
  obtain rfl := Except.ok.inj (hcolumns.symm.trans (Allot.lift_eq_ok.1 hcolumns').1)
  obtain ⟨c, k, k', hc, hcode⟩ := Compile.exists_code_of_codes (i := i) (e := column.2)
    (Allot.mapError_eq_ok.1 hcodes') (by rw [List.getElem?_map, hi]; rfl)
  obtain ⟨v, n₁, n₂, hv, hrun⟩ := Code.exists_run_of_runAll hrun hc
  exact ⟨c, v, k, k', n₁, n₂, hcode, hrun, hv⟩

namespace Regular

variable (h : l.Regular d) (hcodes : (l.outputCodes context).Gives (codes, definition))
  (hrun : Code.runAll noRows codes (.single source) m = (.ok data, m'))

include h hcodes hrun

/-- The group-by values are put out behind the timestamp. -/
theorem getElem?_group {i : Nat} (hi : i < l.groupCount) :
    data[i + 1]? = some (source.get (i + 1)) := by
  have hlength := Nat.lt_of_lt_of_le hi h.groupCount_le
  have hc : l.columns[i]? = some l.columns[i] := List.getElem?_eq_getElem hlength
  have hgroup : (((l.columns.take l.groupCount).map fun c => (c.name, Expr.named c.name)) ++
      l.outputs)[i]? = some (l.columns[i].name, .named l.columns[i].name) := by
    rw [List.getElem?_append_left (by simp; omega), List.getElem?_map, List.getElem?_take_of_lt hi,
      hc]
    rfl
  obtain ⟨c, v, n, n', k, k', hcode, hv, hdata⟩ :=
    exists_run_of_outputs hcodes hrun h.outputColumns_eq (List.getElem?_cons_succ.trans hgroup)
  rw [h.code_column hc] at hcode
  cases hcode
  cases hv
  exact hdata

/-- The outputs are put out behind the group-by values. -/
theorem exists_run_of_output {i : Nat} {output : String × Expr} (hi : l.outputs[i]? = some output) :
    ∃ c v n n' k k', Compile.code context output.2 (.single l.internal) n = .ok (c, n') ∧
      c.run noRows (.single source) k = (.ok v, k') ∧ data[1 + l.groupCount + i]? = some v := by
  refine exists_run_of_outputs hcodes hrun h.outputColumns_eq ?_
  have htake : ((l.columns.take l.groupCount).map fun c => (c.name, Expr.named c.name)).length =
      l.groupCount := by
    rw [List.length_map, List.length_take, Nat.min_eq_left h.groupCount_le]
  rw [show 1 + l.groupCount + i = l.groupCount + i + 1 by omega, List.getElem?_cons_succ,
    List.getElem?_append_right (by omega), htake, Nat.add_sub_cancel_left, hi]

/-- A row that is put out has the label of the row that it is put out for. -/
theorem rowLabel_eq {row : Event} (hrow : row.data = data)
    (htime : row.timestamp = source.timestamp) :
    rowLabel l.groupCount row = rowLabel l.groupCount source := by
  have hkey : groupKey l.groupCount row = groupKey l.groupCount source :=
    groupKey_congr fun i hi => by
      rw [Event.get, hrow, h.getElem?_group hcodes hrun hi, Option.getD_some]
  rw [rowLabel, rowLabel, hkey, htime]

end Regular

end RollupLayout

theorem Retrieval.output_eq_ok {c : Retrieval} {m m' : Memory}
    (h : c.output source m = (.ok row, m')) :
    Code.runAll noRows c.outputs (.single source) m = (.ok row.data, m') ∧
      row.timestamp = source.timestamp := by
  obtain ⟨data, k, hdata, h⟩ := Run.of_run_bind h
  cases h
  exact ⟨Run.of_run_mapError hdata, rfl⟩

namespace Rollup

variable {r r' r₀ r₁ : Rollup} {e : Event} {events earlier : List Event}
  {admits : Rollup → Event → Prop}

/-! ### Events in the order of time -/

/-- No bucket of the finest granularity has been opened behind all of some events. -/
def OpenedBy (r : Rollup) (events : List Event) : Prop :=
  ∀ finest ∈ r.levels.head?, ∀ o, finest.openStart = some o → ∃ e ∈ events, o ≤ e.timestamp

/-- An event that comes behind the others is not late. -/
theorem OpenedBy.not_isLate (hopened : r.OpenedBy events) (h : r.Accounts d s)
    (hlast : ∀ x ∈ events, x.timestamp ≤ e.timestamp) : ¬r.IsLate e := by
  rintro ⟨finest, hfinest, start, hstart, hlate⟩
  obtain ⟨v, hkeeps⟩ := h.chained.keeps_of_mem (i := 0) (by rwa [← List.head?_eq_getElem?])
  refine hkeeps.not_isLate hstart (fun o ho => ?_) hlate
  obtain ⟨x, hx, hle⟩ := hopened finest hfinest o ho
  exact Int64.le_trans hle (hlast x hx)

theorem OpenedBy.process (hopened : r.OpenedBy events) (h : r.Accounts d s)
    (hcurrent : e.kind = .current) (hlate : ¬r.IsLate e) (hprocess : r.process e = (.ok (), r')) :
    r'.OpenedBy (events ++ [e]) := by
  obtain ⟨row, levels', hrow, hcascade, rfl⟩ := process_eq_ok hcurrent hprocess
  rw [h.contribution_eq, Except.ok.injEq] at hrow
  intro finest hfinest o ho
  cases hlevels : r.levels with
  | nil =>
      rw [hlevels] at hcascade
      cases hcascade
      cases hfinest
  | cons lv rest =>
      rw [hlevels] at hcascade
      obtain ⟨flushed, lv', rest', hingest, rfl, -⟩ := cascade_cons hcascade
      obtain ⟨first, lv₁, others, hfirst, hothers, rfl⟩ := Level.ingestAll_cons hingest
      cases hothers
      cases hfinest
      obtain ⟨v, hkeeps⟩ := h.chained.keeps_of_mem (i := 0) (by rw [hlevels]; rfl)
      obtain ⟨start, target, hstart, hwhere, -, hopen, -⟩ := hkeeps.ingest h.regular hfirst
      rw [← hrow] at hstart
      -- The bucket that the event has opened is its own.
      rcases hopen with heq | heq
      · obtain ⟨x, hx, hle⟩ := hopened lv (by rw [hlevels]; rfl) o (heq ▸ ho)
        exact ⟨x, List.mem_append_left _ hx, hle⟩
      · obtain rfl : target = start := hwhere.resolve_right fun hislate =>
          hlate ⟨lv, by rw [hlevels]; rfl, start, hstart, hislate⟩
        rw [heq, Option.some.injEq] at ho
        exact ⟨e, by simp, ho ▸ Granularity.startTime_le hstart⟩

/-- Events in the order of time are not late. -/
theorem After.not_late (h : After admits r₀ events r) (h₀ : r₀.Accounts d 0)
    (hfresh : ∀ lv ∈ r₀.levels, lv.openStart = none)
    (hascending : events.Pairwise (·.timestamp ≤ ·.timestamp)) :
    After (fun r e => ¬r.IsLate e) r₀ events r ∧ r.OpenedBy events := by
  induction h with
  | start =>
      refine ⟨.start, fun finest hfinest o ho => ?_⟩
      rw [hfresh finest (List.mem_of_mem_head? hfinest)] at ho
      cases ho
  | @process events e r r' earlier current admitted processed ih =>
      obtain ⟨hbefore, -, hlast⟩ := List.pairwise_append.1 hascending
      obtain ⟨hafter, hopened⟩ := ih hbefore
      obtain ⟨s, -, haccounts, -⟩ := earlier.accounts h₀
      have hlate := hopened.not_isLate haccounts fun x hx => hlast x hx e (by simp)
      exact ⟨hafter.process current hlate processed,
        hopened.process haccounts current hlate processed⟩

/-- Events that are not late are in their own buckets at every granularity. -/
theorem After.bucketAt_eq (h : After (fun r e => ¬r.IsLate e) r₀ events r) (h₀ : r₀.Accounts d 0)
    (hsorted : d.granularities.Pairwise (·.rank < ·.rank))
    (hlevels : r₀.levels.map (·.granularity) = d.granularities) :
    ∃ s, s.map (·.2) = (events : Multiset Event) ∧ r.Accounts d s ∧ r.layout = r₀.layout ∧
      r.levels.map (·.granularity) = d.granularities ∧
      ∀ g ∈ d.granularities, ∀ x ∈ s, d.bucketAt g x.1 x.2 = d.bucketOf g x.2 := by
  obtain ⟨s, hevents, haccounts, hr, hkept, hplaces⟩ := h.accounts h₀
  refine ⟨s, hevents, haccounts, by rw [hr], hkept.trans hlevels, fun g hg x hx => ?_⟩
  rw [hlevels] at hplaces
  cases hgranularities : d.granularities with
  | nil =>
      rw [hgranularities] at hg
      cases hg
  | cons f rest =>
      have hrank : f.rank ≤ g.rank := by
        rw [hgranularities] at hsorted hg
        rcases List.mem_cons.1 hg with rfl | hg
        · exact Nat.le_refl _
        · exact Nat.le_of_lt ((List.pairwise_cons.1 hsorted).1 g hg)
      have hfinest : f ∈ d.granularities.head? := by
        rw [hgranularities]
        rfl
      exact bucketAt_eq_bucketOf hrank (hplaces (fun _ _ h => h) f hfinest x hx)

/-! ### The rows behind what is found -/

variable {c : Retrieval} {rows : SourceRows} {frame : Frame} {found : List Event}
  {trace : RetrievalTrace} {m m' : Memory}

/-- Every row that a lookup finds has been put out for a row that stands for all events of its
bucket of the granularity. -/
theorem Accounts.exists_source (h : r.Accounts d s)
    (hsorted : d.granularities.Pairwise (·.rank < ·.rank))
    (hlevels : r.levels.map (·.granularity) = d.granularities) {context : Context}
    (hfold : (r.layout.baseCodes context).finish = .ok c.fold)
    (hfind : r.find rows frame c m = (.ok (found, trace), m')) :
    ∃ g ∈ d.granularities, (∃ k, c.perFor rows frame m = (.ok g, k)) ∧
      ∀ row ∈ found, ∃ source k k', c.output source k = (.ok row, k') ∧
        Summarizes d r.layout g source (s.filter fun x =>
          d.bucketAt g x.1 x.2 = some (rowLabel r.layout.groupCount source)) := by
  obtain ⟨g, lv, k, hg, hlevel, hfind⟩ := exists_level_of_find hfind
  have hmem : g ∈ d.granularities := by
    rw [← hlevels, ← show lv.granularity = g by simpa using List.find?_some hlevel]
    exact List.mem_map_of_mem (List.mem_of_find?_eq_some hlevel)
  obtain ⟨i, hi⟩ := List.getElem?_of_mem hmem
  obtain ⟨lv', stored, kept, -, -, hlevel', rfl, hstores, hreading⟩ := h.reading hsorted hlevels hi
  obtain rfl := Option.some.inj (hlevel.symm.trans hlevel')
  refine ⟨g, hmem, ⟨k, hg⟩, fun row hrow => ?_⟩
  obtain ⟨source, k, k', hrun, hdraws⟩ :=
    Retrieval.exists_source_of_find hreading.keyless.consistent hfind row hrow
  rw [hstores, Retrieval.Draws, Retrieval.folded, List.flatMap_map] at hdraws
  exact ⟨source, k, k', hrun,
    hreading.summarizes_source h.regular (h.regular.baseCodes hfold) hdraws⟩

/-- Of events in the order of time, every row that a lookup finds has been put out for a row that
stands for the events of its bucket. -/
theorem After.exists_source {context : Context} (haccepted : d.Accepted)
    (hclear : RollupLayout.Clear d) (hstart : Rollup.start d context = .ok r₀)
    (hcompiled : After (fun _ _ => True) r₀ earlier r₁) {sources : SourceRows} {on per : Expr}
    {within : Within} {matching : Definition} {compiled : Stateful Retrieval}
    (hcompile : r₁.compile sources on within per matching = .ok compiled)
    (hafter : After (fun _ _ => True) r₀ events r)
    (hascending : events.Pairwise (·.timestamp ≤ ·.timestamp))
    (hfind : r.find rows frame compiled.code m = (.ok (found, trace), m')) :
    r.layout.Regular d ∧
      (r.layout.outputCodes r₁.context).Gives
        (compiled.code.outputs, compiled.code.outputDefinition) ∧
      ∃ g ∈ d.granularities, (∃ k, compiled.code.perFor rows frame m = (.ok g, k)) ∧
        ∀ row ∈ found, ∃ source s k k',
          Code.runAll noRows compiled.code.outputs (.single source) k = (.ok row.data, k') ∧
          Summarizes d r.layout g source s ∧
          s.map (·.2) = (events.filter fun e =>
            d.bucketOf g e = some (rowLabel d.groupBy.length row) : List Event) := by
  have hsorted := haccepted.sorted
  obtain ⟨h₀, -, -, -, hlevels₀, hfresh⟩ :=
    accounts_start_of_clear hclear (hsorted.imp Nat.le_of_lt) hstart
  obtain ⟨hontime, -⟩ := hafter.not_late h₀ hfresh hascending
  obtain ⟨s, hevents, haccounts, hlayout, hlevels, hbucket⟩ :=
    hontime.bucketAt_eq h₀ hsorted hlevels₀
  obtain ⟨_, -, -, hr₁, -⟩ := hcompiled.accounts h₀
  have hl := haccounts.regular
  have hlookup := compiled_of_compile hcompile
  rw [show r₁.layout = r.layout by rw [hr₁, hlayout]] at hlookup
  obtain ⟨g, hg, hper, hsources⟩ := haccounts.exists_source hsorted hlevels hlookup.fold hfind
  refine ⟨hl, hlookup.outputs, g, hg, hper, fun row hrow => ?_⟩
  obtain ⟨source, k, k', hrun, hs⟩ := hsources row hrow
  obtain ⟨hdata, htime⟩ := Retrieval.output_eq_ok hrun
  refine ⟨source, _, k, k', hdata, hs, ?_⟩
  have hlabel : rowLabel d.groupBy.length row = rowLabel r.layout.groupCount source := by
    rw [← hl.groupCount]
    exact hl.rowLabel_eq hlookup.outputs hdata rfl htime
  rw [Multiset.filter_congr fun x hx => by rw [hbucket g hg x hx], ← hlabel]
  exact map_filter_placed hevents fun e => d.bucketOf g e = some (rowLabel d.groupBy.length row)

end Rollup

end EventQuery
