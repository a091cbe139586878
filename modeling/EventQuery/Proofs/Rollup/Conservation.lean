import EventQuery.Proofs.Rollup.Reading

/-!
No event is lost or counted twice at any granularity, in whatever order events arrive. At every
granularity the table and the memory of the levels up to it add up to the events that have been
processed, and rows of the table, of the memory and of what a lookup folds from the memory never
share a bucket.
-/

namespace EventQuery

/-- A declaration that has passed its checks. -/
def RollupDefinition.Accepted (d : RollupDefinition) : Prop :=
  ∃ granularities, build d.id d.input d.groupBy d.aggregates granularities d.bufferSize = .ok d

/-- The granularities of a declaration are in ascending order. -/
theorem RollupDefinition.Accepted.sorted {d : RollupDefinition} (h : d.Accepted) :
    d.granularities.Pairwise (·.rank < ·.rank) := by
  obtain ⟨granularities, hbuild⟩ := h
  unfold build at hbuild
  split at hbuild
  · cases hbuild
  · rw [← Except.ok.inj hbuild]
    have hall : Granularity.all.Pairwise (·.rank < ·.rank) := by decide
    exact hall.filter _

variable {d : RollupDefinition} {l : RollupLayout} {rows : List Event} {s : Multiset Placed}
  {c : RollupColumn} {j : Nat}

/-- Sums of integers add up modulo 2^64. -/
theorem sum_of_parts (h : Parts (Represents d l) rows s) (hc : l.columns[j]? = some c)
    (hkind : c.kind? = some .sum) (htype : c.type = .long) :
    Int64.ofInt (rows.map fun row => (row.get (j + 1)).longPart).sum =
      Int64.ofInt (s.map fun x => (c.contribution l.input x.2).longPart).sum := by
  have hvalues : Parts (fun v t => FoldKind.sum.StandsFor .long t v)
      (rows.map fun row => row.get (j + 1)) (s.map fun x => c.contribution l.input x.2) := by
    refine Parts.map (fun row : Event => row.get (j + 1))
      ((h.map_parts fun x => c.contribution l.input x.2).imp ?_)
    rintro row - _ ⟨t, hrow, rfl⟩
    exact htype ▸ hrow.columns j c .sum hc hkind
  -- The sum of the sums stands for all values.
  have hsum := FoldKind.StandsFor.of_parts (v :=
    .long (.ofInt (rows.map fun row => (row.get (j + 1)).longPart).sum))
    hvalues fun _ => by
      rw [Value.longPart, Value.asLong, Option.map_some, Option.getD_some, Int64.ofInt_toInt,
        Multiset.map_coe, Multiset.sum_coe, List.map_map]
      rfl
  have htotal := hsum rfl
  rw [Multiset.map_map, Value.longPart, Value.asLong, Option.map_some, Option.getD_some,
    Int64.ofInt_toInt] at htotal
  exact htotal

/-- Counts add up, as long as there are fewer events than a count can hold. -/
theorem count_of_parts (h : Parts (Represents d l) rows s) (hc : l.columns[j]? = some .count)
    (hsmall : Multiset.card s < 2 ^ 63) :
    (rows.map fun row => (row.get (j + 1)).longPart).sum = Multiset.card s := by
  have hcount : ∀ row t, Represents d l row t ∧ t ≤ s →
      (row.get (j + 1)).longPart = (t.map fun _ => (1 : Int)).sum := by
    rintro row t ⟨hrow, hle⟩
    have hcard := Multiset.card_le_card hle
    have hstands := hrow.columns j .count .sum hc rfl rfl
    have hones : ((t.map fun x => RollupColumn.count.contribution l.input x.2).map
        Value.longPart).sum = Multiset.card t := by
      rw [Multiset.map_map]
      simp [RollupColumn.contribution, RollupColumn.count, Value.longPart, Value.asLong,
        Function.comp_def]
    rw [hones] at hstands
    rw [← Value.toInt_ofInt_longPart, hstands, Int64.toInt_ofInt_of_le]
    · simp
    · omega
    · omega
  rw [h.bounded.sum_eq hcount]
  simp

namespace Rollup

variable {r r₀ : Rollup} {i : Nat} {g : Granularity}

/-- The rows of a group in the table of a level and in the memory up to that level. -/
def groupRows (r : Rollup) (i : Nat) (key : String) : List Event :=
  (((r.levels[i]?.map (·.table.rows)).getD []).filter (groupKey r.layout.groupCount · = key)) ++
    (((r.levels.take (i + 1)).flatMap (·.store.entries)).filter (·.1.getD "" = key)).map
      (·.2.toEvent)

/-- The sum of the integers that rows have in a column. -/
def total (r : Rollup) (column : String) (rows : List Event) : Int :=
  (rows.map fun row => (row.get ((r.layout.internal.position column).getD 0)).longPart).sum

theorem total_eq (h : r.layout.Regular d) (hc : r.layout.columns[j]? = some c) (rows : List Event) :
    r.total c.name rows = (rows.map fun row => (row.get (j + 1)).longPart).sum := by
  rw [total, h.position_column hc, Option.getD_some]

/-- Levels in ascending order up to one of them are those that come no later. -/
theorem filter_rank_eq_take {levels : List Level} {lv : Level}
    (hsorted : levels.Pairwise (·.granularity.rank < ·.granularity.rank))
    (hi : levels[i]? = some lv) :
    (levels.filter fun other => other.granularity.rank ≤ lv.granularity.rank) =
      levels.take (i + 1) := by
  induction levels generalizing i with
  | nil => cases hi
  | cons first rest ih =>
      obtain ⟨hfirst, hrest⟩ := List.pairwise_cons.1 hsorted
      cases i with
      | zero =>
          cases hi
          have hlater :
              rest.filter (fun other => other.granularity.rank ≤ lv.granularity.rank) = [] := by
            refine List.filter_eq_nil_iff.2 fun other hother => ?_
            have hlt := hfirst other hother
            rw [decide_eq_true_eq]
            omega
          rw [List.filter_cons_of_pos (by simp), hlater]
          rfl
      | succ i =>
          have hlt := hfirst lv (List.mem_of_getElem? hi)
          rw [List.filter_cons_of_pos (by rw [decide_eq_true_eq]; omega), ih hrest hi]
          rfl

/-- The level of a granularity, and what a lookup at this granularity reads. -/
theorem Accounts.reading (h : r.Accounts d s) (hsorted : d.granularities.Pairwise (·.rank < ·.rank))
    (hlevels : r.levels.map (·.granularity) = d.granularities) (hg : d.granularities[i]? = some g) :
    ∃ lv stored kept, r.levels[i]? = some lv ∧ lv.granularity = g ∧ r.level? g = some lv ∧
      stored + kept = s ∧
      r.storesUpTo g = (r.levels.take (i + 1)).map (·.store) ∧
      Reading d r.layout g lv.table ((r.levels.take (i + 1)).flatMap (·.store.entries))
        stored kept := by
  have hascending : r.levels.Pairwise (·.granularity.rank < ·.granularity.rank) := by
    rw [← hlevels, List.pairwise_map] at hsorted
    exact hsorted
  rw [← hlevels, List.getElem?_map] at hg
  obtain ⟨lv, hi, rfl⟩ : ∃ lv, r.levels[i]? = some lv ∧ lv.granularity = g := by simpa using hg
  obtain ⟨stored, kept, hsum, hreading⟩ := h.chained.reading h.regular hi
  refine ⟨lv, stored, kept, hi, rfl, ?_, hsum, ?_, hreading⟩
  · obtain ⟨hlength, hget⟩ := List.getElem?_eq_some_iff.1 hi
    refine List.find?_eq_some_iff_getElem.2 ⟨by simp, i, hlength, hget, fun k hk => ?_⟩
    have hlt := List.pairwise_iff_getElem.1 hascending k i (by omega) hlength hk
    have hne : r.levels[k].granularity ≠ lv.granularity := by
      intro heq
      rw [heq, hget] at hlt
      omega
    simpa using hne
  · rw [storesUpTo, filter_rank_eq_take hascending hi]

/-- The rows of a group represent the events of the group. -/
theorem Accounts.groupRows (h : r.Accounts d s)
    (hsorted : d.granularities.Pairwise (·.rank < ·.rank))
    (hlevels : r.levels.map (·.granularity) = d.granularities) (hg : d.granularities[i]? = some g)
    (key : String) :
    Parts (Represents d r.layout) (r.groupRows i key) (s.filter fun x => d.keyOf x.2 = key) := by
  obtain ⟨lv, stored, kept, hi, -, -, rfl, -, hreading⟩ := h.reading hsorted hlevels hg
  have hgroup := hreading.group key
  rw [Rollup.groupRows, hi]
  exact hgroup

/-! ### Trades, counted and summed by symbol -/

namespace Trades

/-- The closed bucket before the open one stays in memory. -/
def definition : RollupDefinition :=
  ⟨"Stats", ⟨"Trade", [⟨"symbol", .string⟩, ⟨"price", .int⟩]⟩, ["symbol"],
    [⟨"n", .count, none⟩, ⟨"total", .fold .sum, some "price"⟩], [.seconds, .minutes], 1⟩

def trade (timestamp : Int64) (symbol : String) (price : Int32) : Event :=
  .current timestamp [.string symbol, .int price]

theorem accepted : definition.Accepted := ⟨[.seconds, .minutes], rfl⟩

theorem clear : ∀ name ∈ definition.groupBy, ¬Reserved name := by simp [definition, Reserved]

theorem isSome_start :
    (Rollup.start definition .standard).toOption.isSome = true := by decide +kernel

def started : Rollup := (Rollup.start definition .standard).toOption.get isSome_start

theorem eq_ok_of_isSome {α : Type} {x : Except RollupError α} (h : x.toOption.isSome = true) :
    x = .ok (x.toOption.get h) := by
  cases x with
  | error e => cases h
  | ok a => rfl

theorem start_eq : Rollup.start definition .standard = .ok started := eq_ok_of_isSome isSome_start

/-- The aggregation after a trade, which has to be processed without failure. -/
theorem process_eq {r : Rollup} {e : Event} (h : (r.process e).1.isOk = true) :
    r.process e = (.ok (), (r.process e).2) := by
  rcases hprocess : r.process e with ⟨e | _, r'⟩
  · rw [hprocess] at h
    cases h
  · rfl

def first : Rollup := (started.process (trade 1000 "A" 5)).2

def second : Rollup := (first.process (trade 2500 "B" 3)).2

def third : Rollup := (second.process (trade 61000 "A" 7)).2

end Trades

/-- At every granularity and for every group, the rows of the table and of the memory up to the
level add up to the processed events of the group: counts exactly and modulo 2^64, sums of integers
modulo 2^64. No row of the table shares its bucket with another, or with what a lookup folds from
the memory. -/
theorem After.conserves {context : Context} {events : List Event} (haccepted : d.Accepted)
    (hnodup : d.groupBy.Nodup) (hclear : ∀ name ∈ d.groupBy, ¬Reserved name)
    (hcount : ∃ a ∈ d.aggregates, a.kind = .count) (hstart : Rollup.start d context = .ok r₀)
    (hafter : After (fun _ _ => True) r₀ events r) (hg : d.granularities[i]? = some g) :
    ∃ lv, r.levels[i]? = some lv ∧ lv.granularity = g ∧
      (∀ key, let group := events.filter (d.keyOf · = key)
        Int64.ofInt (r.total "AGG_COUNT" (r.groupRows i key)) = Int64.ofNat group.length ∧
        (events.length < 2 ^ 63 → r.total "AGG_COUNT" (r.groupRows i key) = group.length) ∧
        ∀ a ∈ d.aggregates, a.kind = .fold .sum ∨ a.kind = .fold .avg →
          ∀ argument type, a.argument = some argument →
            d.input.typeOf argument = some type → type = .int ∨ type = .long →
            Int64.ofInt (r.total ("AGG_SUM_" ++ argument) (r.groupRows i key)) =
              Int64.ofInt
                (group.map fun e => (e.get ((d.input.position argument).getD 0)).longPart).sum) ∧
      (lv.table.rows.map (rowLabel r.layout.groupCount)).Nodup ∧
      ∀ (lookup : Retrieval) (folded : FoldedBuckets),
        lookup.folded g (r.storesUpTo g) = .ok folded →
        ∀ row ∈ lv.table.rows, ∀ p ∈ folded, ∀ q ∈ p.2,
          rowLabel r.layout.groupCount row ≠ (p.1, q.1) := by
  have hsorted := haccepted.sorted
  obtain ⟨h₀, -, -, -, hlevels₀⟩ := accounts_start hnodup hclear (hsorted.imp Nat.le_of_lt) hstart
  obtain ⟨s, hevents, haccounts, -, hlevels, -⟩ := hafter.accounts h₀
  obtain ⟨lv, stored, kept, hi, hgranularity, -, -, hstores, hreading⟩ :=
    haccounts.reading hsorted (hlevels.trans hlevels₀) hg
  have hregular := haccounts.regular
  refine ⟨lv, hi, hgranularity, fun key => ?_, hreading.nodup, ?_⟩
  · intro group
    have hgroup := haccounts.groupRows hsorted (hlevels.trans hlevels₀) hg key
    have hmap : (s.filter fun x => d.keyOf x.2 = key).map (·.2) = (group : Multiset Event) :=
      map_filter_placed hevents fun e => d.keyOf e = key
    have hcard : Multiset.card (s.filter fun x => d.keyOf x.2 = key) = group.length := by
      rw [← Multiset.coe_card, ← hmap, Multiset.card_map]
    have htotal {c : RollupColumn} {j : Nat} (hc : r.layout.columns[j]? = some c) :=
      total_eq hregular hc (r.groupRows i key)
    obtain ⟨a, ha, hkind⟩ := hcount
    obtain ⟨j, hj⟩ := List.getElem?_of_mem (hregular.mem_count ha hkind)
    refine ⟨?_, fun hsmall => ?_, ?_⟩
    · rw [show "AGG_COUNT" = RollupColumn.count.name from rfl, htotal hj,
        sum_of_parts hgroup hj rfl rfl, ← hcard]
      simp [RollupColumn.contribution, RollupColumn.count, Value.longPart, Value.asLong,
        Int64.ofInt_eq_ofNat]
    · have hle : group.length ≤ events.length := List.length_filter_le _ _
      rw [show "AGG_COUNT" = RollupColumn.count.name from rfl, htotal hj,
        count_of_parts hgroup hj (by omega), hcard]
    · intro a ha hkind argument type hargument htype hinteger
      obtain ⟨j, hj⟩ := List.getElem?_of_mem (hregular.mem_sum ha hkind hargument htype hinteger)
      have hname : "AGG_SUM_" ++ argument =
          (RollupColumn.partialOf (RollupColumn.sumName argument) .long .sum argument).name := rfl
      rw [hname, htotal hj, sum_of_parts hgroup hj (by simp) rfl, ← Multiset.sum_coe,
        ← Multiset.map_coe, ← hmap, Multiset.map_map, ← hregular.input]
      rfl
  · intro lookup folded hfolded row hrow p hp q hq heq
    rw [hstores] at hfolded
    have hfold : Retrieval.foldInto lookup.fold g
        ((r.levels.take (i + 1)).flatMap (·.store.entries)) [] = .ok folded := by
      rw [← hfolded, Retrieval.folded, List.flatMap_map]
    -- The table ends before the buckets that are folded from the memory.
    have hlt := (hreading.folded hfold).2 row hrow p.1 (List.mem_map_of_mem hp)
    exact Int64.ne_of_lt hlt (Prod.mk.inj heq).1

/-- The last of four trades comes after its bucket has been flushed. -/
theorem After.conserves_trades :
    ∃ r lv, After (fun _ _ => True) Trades.started
        [Trades.trade 1000 "A" 5, Trades.trade 2500 "B" 3, Trades.trade 61000 "A" 7,
          Trades.trade 1000 "A" 2] r ∧
      r.levels[1]? = some lv ∧ lv.granularity = .minutes ∧
        r.total "AGG_COUNT" (r.groupRows 1 "A") = 3 ∧
      Int64.ofInt (r.total "AGG_SUM_price" (r.groupRows 1 "A")) = 14 ∧
      (lv.table.rows.map (rowLabel r.layout.groupCount)).Nodup := by
  have hfirst := Trades.process_eq (r := Trades.started) (e := Trades.trade 1000 "A" 5)
    (by decide +kernel)
  have hsecond := Trades.process_eq (r := Trades.first) (e := Trades.trade 2500 "B" 3)
    (by decide +kernel)
  have hthird := Trades.process_eq (r := Trades.second) (e := Trades.trade 61000 "A" 7)
    (by decide +kernel)
  have hfourth := Trades.process_eq (r := Trades.third) (e := Trades.trade 1000 "A" 2)
    (by decide +kernel)
  have hstart : After (fun _ _ => True) Trades.started [] Trades.started := .start
  have hafter := (((hstart.process rfl trivial hfirst).process rfl trivial hsecond).process rfl
    trivial hthird).process rfl trivial hfourth
  obtain ⟨lv, hlv, hgranularity, hgroups, hnodup, -⟩ :=
    After.conserves Trades.accepted (by decide) Trades.clear
    ⟨⟨"n", .count, none⟩, by decide, rfl⟩ Trades.start_eq hafter (i := 1) (g := .minutes) rfl
  obtain ⟨-, hcount, hsums⟩ := hgroups "A"
  refine ⟨_, lv, hafter, hlv, hgranularity, ?_, ?_, hnodup⟩
  · refine (hcount (by decide)).trans ?_
    decide +kernel
  · refine (hsums ⟨"total", .fold .sum, some "price"⟩ (by decide) (.inl rfl) "price" .int
      rfl rfl (.inl rfl)).trans ?_
    decide +kernel

end Rollup

end EventQuery
