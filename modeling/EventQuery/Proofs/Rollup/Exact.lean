import EventQuery.Proofs.Rollup.Conservation
import EventQuery.Proofs.Rollup.Output
import EventQuery.Proofs.Rollup.Selection

/-!
Exact lookups. As long as no event is late, a lookup gives one row for each bucket of the time range
that an event belongs into, with the exact aggregates of its events, however these are spread over
the table and the memory.
-/

namespace EventQuery

/-- The bucket of a granularity that an event of a time belongs into: its start and the key of its
group. -/
def RollupDefinition.bucketAt (d : RollupDefinition) (g : Granularity) (time : Int64) (e : Event) :
    Option (Int64 × String) :=
  (g.startTime time).toOption.map fun start => (start, d.keyOf e)

/-- The bucket of a granularity that an event belongs into. -/
def RollupDefinition.bucketOf (d : RollupDefinition) (g : Granularity) (e : Event) :
    Option (Int64 × String) :=
  d.bucketAt g e.timestamp e

variable {d : RollupDefinition} {l : RollupLayout} {g : Granularity} {rows selected : List Event}
  {stored other s : Multiset Placed} {start stop : Int64}

theorem RollupDefinition.bucketAt_eq_some {time : Int64} {e : Event} {label : Int64 × String} :
    d.bucketAt g time e = some label ↔ g.startTime time = .ok label.1 ∧ d.keyOf e = label.2 := by
  unfold bucketAt
  cases g.startTime time with
  | error cause => simp [Except.toOption]
  | ok o => simp [Except.toOption, Prod.ext_iff]

theorem Summarizes.bucketAt {row : Event} (h : Summarizes d l g row s) {x : Placed} (hx : x ∈ s) :
    d.bucketAt g x.1 x.2 = some (rowLabel l.groupCount row) :=
  RollupDefinition.bucketAt_eq_some.2 ⟨h.placed x hx, h.represents.key x hx⟩

/-- Rows of a time range: one for each bucket of the range that has events, and it stands for all of
them. -/
structure Answers (d : RollupDefinition) (l : RollupLayout) (g : Granularity) (start stop : Int64)
    (s : Multiset Placed) (rows : List Event) : Prop where
  nodup : (rows.map (rowLabel l.groupCount)).Nodup
  inRange : ∀ row ∈ rows, start ≤ row.timestamp ∧ row.timestamp < stop
  summarizes : ∀ row ∈ rows,
    Summarizes d l g row (s.filter fun x => d.bucketAt g x.1 x.2 = some (rowLabel l.groupCount row))
  complete : ∀ x ∈ s, ∀ label, d.bucketAt g x.1 x.2 = some label →
    start ≤ label.1 → label.1 < stop → label ∈ rows.map (rowLabel l.groupCount)

/-- A selection from rows that stand for all events of the range. -/
theorem answers_of_parts (h : Parts (Summarizes d l g) rows stored)
    (hnodup : (rows.map (rowLabel l.groupCount)).Nodup)
    (hother : ∀ x ∈ other, ∀ label, d.bucketAt g x.1 x.2 = some label →
      ¬(start ≤ label.1 ∧ label.1 < stop))
    (hselected :
      selected.Perm (rows.filter fun row => Retrieval.inRange start stop row.timestamp)) :
    Answers d l g start stop (stored + other) selected := by
  have hmem (row : Event) :
      row ∈ selected ↔ row ∈ rows ∧ start ≤ row.timestamp ∧ row.timestamp < stop := by
    rw [hselected.mem_iff, List.mem_filter, Retrieval.inRange, Bool.and_eq_true, decide_eq_true_iff,
      decide_eq_true_iff]
  refine ⟨?_, fun row hrow => ((hmem row).1 hrow).2, fun row hrow => ?_,
    fun x hx label hlabel hlow hhigh => ?_⟩
  · exact ((hselected.map _).nodup_iff).2 (hnodup.sublist (List.filter_sublist.map _))
  · -- The row has all events of its bucket, as the others lie outside of the range.
    obtain ⟨hstored, hrange⟩ := (hmem row).1 hrow
    have hnone :
        other.filter (fun x => d.bucketAt g x.1 x.2 = some (rowLabel l.groupCount row)) = 0 :=
      Multiset.filter_eq_nil.2 fun x hx hlabel => hother x hx _ hlabel hrange
    rw [Multiset.filter_add, hnone, add_zero]
    exact h.part_eq_filter (fun _ _ hrow _ hx => hrow.bucketAt hx) hnodup hstored
  · rcases Multiset.mem_add.1 hx with hx | hx
    · obtain ⟨row, hrow, t, -, hsummarizes, hxt⟩ := h.exists_part hx
      obtain rfl := Option.some.inj ((hsummarizes.bucketAt hxt).symm.trans hlabel)
      exact List.mem_map_of_mem ((hmem row).2 ⟨hrow, hlow, hhigh⟩)
    · exact absurd ⟨hlow, hhigh⟩ (hother x hx label hlabel)

/-- What a lookup selects answers for all events that have been taken in. -/
theorem Reading.answers {table : Holder} {entries : List (Option String × Bucket)}
    {kept : Multiset Placed} {code : FoldCode} {persisted live : List Event}
    (h : Reading d l g table entries stored kept) (hl : l.Regular d)
    (hcodes : BaseCodes l.columns code.code code.memory.cells.length)
    (hpersisted :
      persisted.Perm (table.rows.filter fun row => Retrieval.inRange start stop row.timestamp))
    (hlive : (∃ folded, Retrieval.foldInto code g entries [] = .ok folded ∧
        live = (folded.buckets.map (·.toEvent)).filter fun row =>
          Retrieval.inRange start stop row.timestamp) ∨
      live = [] ∧ ∀ e ∈ entries, ∀ o, g.startTime e.2.timestamp = .ok o → ¬(start ≤ o ∧ o < stop)) :
    Answers d l g start stop (stored + kept) (persisted ++ live) := by
  rcases hlive with ⟨folded, hfold, rfl⟩ | ⟨rfl, hout⟩
  · obtain ⟨hgathers, hbelow⟩ := h.folded hfold
    have hrows := h.rows.append (Parts.map Bucket.toEvent (hgathers.summarizes hl hcodes))
    rw [← add_zero (stored + kept)]
    refine answers_of_parts hrows ?_ (fun x hx => absurd hx (Multiset.notMem_zero x)) ?_
    · rw [List.map_append, List.map_map]
      refine List.nodup_append.2 ⟨h.nodup, hgathers.nodup_labels hl hcodes,
        fun label hlabel label' hlabel' heq => ?_⟩
      -- The table ends before the folded buckets start.
      obtain ⟨row, hrow, rfl⟩ := List.mem_map.1 hlabel
      obtain ⟨b, hb, rfl⟩ := List.mem_map.1 hlabel'
      have hlt := hbelow row hrow b.timestamp (hgathers.processed hb).2
      exact Int64.ne_of_lt hlt (Prod.mk.inj heq).1
    · rw [List.filter_append]
      exact hpersisted.append_right _
  · -- The memory has been passed over, so none of its events belongs into the range.
    rw [List.append_nil]
    refine answers_of_parts h.rows h.nodup (fun x hx label hlabel => ?_) hpersisted
    obtain ⟨e, he, t, -, ⟨f, hrank, hsummarizes⟩, hxt⟩ := h.memory.exists_part hx
    have hstart := (RollupDefinition.bucketAt_eq_some.1 hlabel).1
    exact hout e he label.1
      ((Granularity.startTime_startTime hrank (hsummarizes.placed x hxt)).2 hstart)

/-- An event that has been folded into its own bucket is in its own bucket of every coarser
granularity. -/
theorem bucketAt_eq_bucketOf {f : Granularity} {x : Placed} (hrank : f.rank ≤ g.rank)
    (hplace : f.startTime x.2.timestamp = .ok x.1) : d.bucketAt g x.1 x.2 = d.bucketOf g x.2 := by
  refine Option.ext fun label => ?_
  rw [RollupDefinition.bucketOf, RollupDefinition.bucketAt_eq_some,
    RollupDefinition.bucketAt_eq_some, Granularity.startTime_startTime hrank hplace]

/-- Rows that tell the buckets of a time range: one for each bucket that an event belongs into, and
no other, with its start and the values of the aggregates over all events of the bucket. -/
structure RollupDefinition.Tells (d : RollupDefinition) (g : Granularity) (start stop : Int64)
    (events rows : List Event) : Prop where
  nodup : (rows.map (rowLabel d.groupBy.length)).Nodup
  labels : ∀ label, label ∈ rows.map (rowLabel d.groupBy.length) ↔
    start ≤ label.1 ∧ label.1 < stop ∧ ∃ e ∈ events, d.bucketOf g e = some label
  timestamp : ∀ row ∈ rows, row.get 0 = .long row.timestamp
  values : ∀ row ∈ rows, ∀ (k : Nat) (a : AggregateOutput), d.aggregates[k]? = some a →
    a.IsValue d.input (events.filter fun e => d.bucketOf g e = some (rowLabel d.groupBy.length row))
      (row.get (1 + d.groupBy.length + k))

theorem rowLabel_project (groupCount : Nat) (positions : List Nat) (row : Event) :
    rowLabel groupCount (row.project (RollupLayout.outputPositions groupCount positions)) =
      rowLabel groupCount row := by
  rw [rowLabel, groupKey_congr fun i hi => Event.get_group_project hi]
  rfl

theorem Answers.tells (h : Answers d l g start stop s selected) (hl : l.Regular d)
    (hexact : ∀ a ∈ d.aggregates, a.IsExact d.input) {positions : List Nat}
    (hdelivers : List.Forall₂ (l.Delivers d) d.aggregates positions) {events : List Event}
    (hevents : s.map (·.2) = (events : Multiset Event))
    (hbucket : ∀ x ∈ s, d.bucketAt g x.1 x.2 = d.bucketOf g x.2) :
    d.Tells g start stop events
      (selected.map (·.project (RollupLayout.outputPositions l.groupCount positions))) := by
  have hlabels :
      (selected.map (·.project (RollupLayout.outputPositions l.groupCount positions))).map
        (rowLabel d.groupBy.length) = selected.map (rowLabel l.groupCount) := by
    rw [List.map_map, ← hl.groupCount]
    exact List.map_congr_left fun row _ => rowLabel_project l.groupCount positions row
  have hfilter (label : Int64 × String) :
      (s.filter fun x => d.bucketAt g x.1 x.2 = some label).map (·.2) =
        (events.filter fun e => d.bucketOf g e = some label : List Event) := by
    rw [Multiset.filter_congr fun x hx => by rw [hbucket x hx]]
    exact map_filter_placed hevents fun e => d.bucketOf g e = some label
  refine ⟨hlabels ▸ h.nodup, fun label => ?_, fun row hrow => ?_, fun row hrow k a ha => ?_⟩
  · rw [hlabels]
    constructor
    · intro hlabel
      obtain ⟨row, hrow, rfl⟩ := List.mem_map.1 hlabel
      obtain ⟨hlow, hhigh⟩ := h.inRange row hrow
      obtain ⟨x, hx⟩ := Multiset.exists_mem_of_ne_zero (h.summarizes row hrow).represents.nonempty
      obtain ⟨hx, hat⟩ := Multiset.mem_filter.1 hx
      refine ⟨hlow, hhigh, x.2, ?_, hbucket x hx ▸ hat⟩
      rw [← Multiset.mem_coe, ← hevents]
      exact Multiset.mem_map_of_mem _ hx
    · rintro ⟨hlow, hhigh, e, he, hlabel⟩
      rw [← Multiset.mem_coe, ← hevents] at he
      obtain ⟨x, hx, rfl⟩ := Multiset.mem_map.1 he
      exact h.complete x hx label ((hbucket x hx).trans hlabel) hlow hhigh
  · obtain ⟨source, hsource, rfl⟩ := List.mem_map.1 hrow
    exact (h.summarizes source hsource).represents.start
  · obtain ⟨source, hsource, rfl⟩ := List.mem_map.1 hrow
    obtain ⟨hk, rfl⟩ := List.getElem?_eq_some_iff.1 ha
    have hk' : k < positions.length := hdelivers.length_eq ▸ hk
    have hvalue := (h.summarizes source hsource).isValue hl (hexact _ (List.getElem_mem hk))
      ((List.forall₂_iff_get.1 hdelivers).2 k hk hk')
    rw [hfilter] at hvalue
    rw [← hl.groupCount, rowLabel_project, Event.get_value_project (List.getElem?_eq_getElem hk')]
    exact hvalue

namespace Rollup

variable {r r₀ r₁ : Rollup} {context : Context} {events earlier : List Event} {within : Within}
  {name : String} {matching : Definition}

/-- A lookup reads the table of the granularity that the matching frame asks for, and the memory up
to it. -/
theorem exists_level_of_find {c : Retrieval} {rows : SourceRows} {frame : Frame}
    {found : List Event} {trace : RetrievalTrace} {m m' : Memory}
    (h : r.find rows frame c m = (.ok (found, trace), m')) :
    ∃ g lv k, c.perFor rows frame m = (.ok g, k) ∧ r.level? g = some lv ∧
      c.find rows frame g lv.table (r.storesUpTo g) k = (.ok (found, trace), m') := by
  obtain ⟨g, k, hg, h⟩ := Run.of_run_bind h
  cases hlevel : r.level? g with
  | none =>
      rw [hlevel] at h
      cases h
  | some lv =>
      rw [hlevel] at h
      exact ⟨g, lv, k, hg, hlevel, h⟩

/-- A lookup for a constant granularity reads its table and the memory up to it. -/
theorem find_of_compiled {tables : List (Granularity × Holder)} {on : Expr} {c : Retrieval}
    (h : c.Compiled context l tables on within (.const (.string name)) matching)
    (hname : Granularity.ofName name = .ok g) {rows : SourceRows} {frame : Frame}
    {found : List Event} {trace : RetrievalTrace} {m m' : Memory}
    (hfind : r.find rows frame c m = (.ok (found, trace), m')) :
    ∃ lv m₁, r.level? g = some lv ∧
      c.find rows frame g lv.table (r.storesUpTo g) m₁ = (.ok (found, trace), m') := by
  obtain ⟨n, k, hper⟩ := h.per
  obtain ⟨hcode, -⟩ := Allot.pure_eq_ok.1 hper
  obtain ⟨g', lv, m₁, hg', hlevel, hfind⟩ := exists_level_of_find hfind
  have hgranularity : g' = g := by
    obtain ⟨v, m₂, hv, hg'⟩ := Run.of_run_bind hg'
    rw [hcode] at hv
    obtain ⟨hv, -⟩ := Prod.mk.inj (Run.of_run_mapError hv)
    obtain rfl := Except.ok.inj hv
    obtain ⟨g'', m₃, hofName, hg'⟩ := Run.of_run_bind hg'
    rw [hname] at hofName
    obtain rfl := Except.ok.inj (Run.of_run_ofExcept hofName).1
    obtain ⟨_, _, -, hg'⟩ := Run.of_run_bind hg'
    exact (Except.ok.inj (Prod.mk.inj hg').1).symm
  subst hgranularity
  exact ⟨lv, m₁, hlevel, hfind⟩

/-- Every table is one of its granularity. -/
theorem Accounts.definition_table (h : r.Accounts d s) :
    ∀ p ∈ r.tables, p.2.definition = r.layout.tableDefinition p.1 := by
  intro p hp
  obtain ⟨lv, hlv, rfl⟩ := List.mem_map.1 hp
  obtain ⟨i, hi⟩ := List.getElem?_of_mem hlv
  obtain ⟨v, hkeeps⟩ := h.chained.keeps_of_mem hi
  exact hkeeps.keyless.definition

/-- What a lookup puts out answers for all events that have been taken in. -/
theorem Accounts.answers (h : r.Accounts d s) (hexact : ∀ a ∈ d.aggregates, a.IsExact d.input)
    (hsorted : d.granularities.Pairwise (·.rank < ·.rank))
    (hlevels : r.levels.map (·.granularity) = d.granularities) (hg : g ∈ d.granularities)
    (hname : Granularity.ofName name = .ok g) {tables : List (Granularity × Holder)}
    {c : Retrieval} (hselects : c.Selects r.layout start stop)
    (hlookup : c.Compiled context r.layout tables (.const (.bool true)) within
      (.const (.string name)) matching)
    {rows : SourceRows} {frame : Frame} {found : List Event} {trace : RetrievalTrace}
    {m m' : Memory}
    (hfind : r.find rows frame c m = (.ok (found, trace), m')) :
    ∃ selected positions, Answers d r.layout g start stop s selected ∧
      List.Forall₂ (r.layout.Delivers d) d.aggregates positions ∧
      found = selected.map
        (·.project (RollupLayout.outputPositions r.layout.groupCount positions)) := by
  have hl := h.regular
  obtain ⟨i, hi⟩ := List.getElem?_of_mem hg
  obtain ⟨lv, stored, kept, -, -, hlevel, rfl, hstores, hreading⟩ := h.reading hsorted hlevels hi
  obtain ⟨lv', m₁, hlevel', hfind⟩ := find_of_compiled hlookup hname hfind
  obtain rfl := Option.some.inj (hlevel.symm.trans hlevel')
  have hrows : ∀ row ∈ lv.table.rows, row.get 0 = .long row.timestamp := by
    intro row hrow
    obtain ⟨t, -, ht⟩ := hreading.rows.exists_of_mem hrow
    exact ht.represents.start
  obtain ⟨persisted, live, hpersisted, hlive, outputs, matched, _, _, _, houtputs, hmatched, rfl⟩ :=
    hselects.find hreading.keyless hrows hfind
  have hentries : (r.storesUpTo g).flatMap BucketStore.entries =
      (r.levels.take (i + 1)).flatMap (·.store.entries) := by
    rw [hstores, List.flatMap_map]
  unfold Retrieval.folded at hlive
  rw [hentries] at hlive
  obtain ⟨positions, hdelivers, hpositions⟩ := hl.delivers hexact
  rw [Retrieval.outputAll_eq (hl.reads hpositions hlookup.outputs)] at houtputs
  obtain rfl := Except.ok.inj (Prod.mk.inj houtputs).1
  exact ⟨persisted ++ live, positions, hreading.answers hl (hl.baseCodes hlookup.fold) hpersisted
    hlive, hdelivers, Retrieval.find_true hlookup hmatched⟩

/-! ### Trades, looked up by the minute -/

namespace Trades

/-- The aggregation after a trade whose bucket of a second is the closed one that is still in
memory. -/
def fourth : Rollup := (third.process (trade 2200 "A" 2)).2

def twoMinutes : Within := .range (.const (.long 0)) (.const (.int 120000))

/-- A lookup that is compiled before the first trade. -/
def perMinute : Except RollupError (Stateful Retrieval) :=
  started.compile noRows (.const (.bool true)) twoMinutes (.const (.string "minutes")) ⟨"Order", []⟩

theorem isSome_perMinute : perMinute.toOption.isSome = true := by decide +kernel

def lookup : Stateful Retrieval := perMinute.toOption.get isSome_perMinute

theorem perMinute_eq : perMinute = .ok lookup := eq_ok_of_isSome isSome_perMinute

/-- Symbol, number and total of the trades of a minute. -/
def summary (minute : Int64) (symbol : String) (number total : Int64) : Event :=
  .current minute [.long minute, .string symbol, .long number, .long total]

end Trades

/-- Of a run without late events a lookup gives one row for each bucket of the time range that an
event belongs into, and no other, and its aggregates are those of all events of the bucket. The
lookup may have been compiled at any time. -/
theorem After.find_exact (haccepted : d.Accepted) (hnodup : d.groupBy.Nodup)
    (hclear : ∀ name ∈ d.groupBy, ¬Reserved name) (hexact : ∀ a ∈ d.aggregates, a.IsExact d.input)
    (hstart : Rollup.start d context = .ok r₀) (hcompiled : After (fun _ _ => True) r₀ earlier r₁)
    (hafter : After (fun r e => ¬r.IsLate e) r₀ events r) (hg : g ∈ d.granularities)
    (hname : Granularity.ofName name = .ok g) (hspans : within.Spans start stop)
    (hid : matching.id ≠ d.id) {sources rows : SourceRows} {compiled : Stateful Retrieval}
    (hcompile : r₁.compile sources (.const (.bool true)) within (.const (.string name)) matching =
      .ok compiled)
    {frame : Frame} {m m' : Memory} {found : List Event} {trace : RetrievalTrace}
    (hfind : r.find rows frame compiled.code m = (.ok (found, trace), m')) :
    d.Tells g start stop events found := by
  have hsorted := haccepted.sorted
  obtain ⟨h₀, -, -, -, hlevels₀⟩ := accounts_start hnodup hclear (hsorted.imp Nat.le_of_lt) hstart
  obtain ⟨s, hevents, haccounts, hr, hlevels, hplaces⟩ := hafter.accounts h₀
  obtain ⟨s₁, -, haccounts₁, hr₁, -⟩ := hcompiled.accounts h₀
  have hl := haccounts.regular
  have hlayout : r₁.layout = r.layout := by rw [hr, hr₁]
  have hlookup := compiled_of_compile hcompile
  rw [hlayout] at hlookup
  have hselects := hlookup.selects hspans (hl.id ▸ hid) hl.attribute_zero
    (hlayout ▸ haccounts₁.definition_table)
  obtain ⟨selected, positions, hanswers, hdelivers, rfl⟩ :=
    haccounts.answers hexact hsorted (hlevels.trans hlevels₀) hg hname hselects hlookup hfind
  refine hanswers.tells hl hexact hdelivers hevents fun x hx => ?_
  -- Every event has been folded into its own bucket of the finest granularity.
  rw [hlevels₀] at hplaces
  cases hgranularities : d.granularities with
  | nil =>
      rw [hgranularities] at hg
      cases hg
  | cons f rest =>
      have hrank : f.rank ≤ g.rank := by
        rw [hgranularities] at hsorted hg
        rcases List.mem_cons.1 hg with rfl | hg
        · exact Nat.le_refl _
        · exact Nat.le_of_lt ((List.pairwise_cons.1 hsorted).1 g hg)
      have hfinest : f ∈ d.granularities.head? := by
        rw [hgranularities]
        rfl
      exact bucketAt_eq_bucketOf hrank (hplaces (fun _ _ h => h) f hfinest x hx)

/-- Two of the trades of the first minute have the same symbol but belong into different seconds. -/
theorem After.find_exact_trades :
    ∃ trace, Trades.fourth.find noRows (.single (.current 0 [])) Trades.lookup.code
        Trades.lookup.memory = (.ok ([Trades.summary 0 "B" 1 3, Trades.summary 0 "A" 2 7,
          Trades.summary 60000 "A" 1 7], trace), Trades.lookup.memory) ∧
      Trades.definition.Tells .minutes 0 120000
        [Trades.trade 1000 "A" 5, Trades.trade 2500 "B" 3, Trades.trade 61000 "A" 7,
          Trades.trade 2200 "A" 2]
        [Trades.summary 0 "B" 1 3, Trades.summary 0 "A" 2 7, Trades.summary 60000 "A" 1 7] := by
  have hfirst := Trades.process_eq (r := Trades.started) (e := Trades.trade 1000 "A" 5)
    (by decide +kernel)
  have hsecond := Trades.process_eq (r := Trades.first) (e := Trades.trade 2500 "B" 3)
    (by decide +kernel)
  have hthird := Trades.process_eq (r := Trades.second) (e := Trades.trade 61000 "A" 7)
    (by decide +kernel)
  have hfourth := Trades.process_eq (r := Trades.third) (e := Trades.trade 2200 "A" 2)
    (by decide +kernel)
  have hstart : After (fun r e => ¬r.IsLate e) Trades.started [] Trades.started := .start
  have hafter := (((hstart.process rfl (by decide +kernel) hfirst).process rfl
    (by decide +kernel) hsecond).process rfl (by decide +kernel) hthird).process rfl
    (by decide +kernel) hfourth
  have hfind : Trades.fourth.find noRows (.single (.current 0 [])) Trades.lookup.code
      Trades.lookup.memory = (.ok ([Trades.summary 0 "B" 1 3, Trades.summary 0 "A" 2 7,
        Trades.summary 60000 "A" 1 7], ⟨0, true, 3, 3⟩), Trades.lookup.memory) := by
    decide +kernel
  have hexact : ∀ a ∈ Trades.definition.aggregates, a.IsExact Trades.definition.input := by
    intro a ha
    obtain rfl | rfl : a = ⟨"n", .count, none⟩ ∨ a = ⟨"total", .fold .sum, some "price"⟩ := by
      simpa [Trades.definition] using ha
    · trivial
    · exact ⟨"price", .int, rfl, rfl, .inl rfl⟩
  exact ⟨_, hfind, After.find_exact Trades.accepted (by decide) Trades.clear hexact Trades.start_eq
    .start hafter (by decide) rfl ⟨.long 0, .int 120000, rfl, rfl, rfl⟩ (by decide)
    Trades.perMinute_eq hfind⟩

end Rollup

end EventQuery
