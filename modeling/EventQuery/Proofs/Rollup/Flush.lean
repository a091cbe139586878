import EventQuery.Proofs.Rollup.Filing
import EventQuery.Proofs.Rollup.WellFormed

/-!
The order in which a level flushes. Every row that is taken in is folded into one entry, in its own
bucket or, if it comes late, in the open one. The buckets in memory start one after the other, and
what has been flushed is in the order of time and starts before all of them, so a bucket that has
been flushed is not opened again, and a level that is fed with the rows never meets a late one.
-/

namespace EventQuery

variable {isGrouped : Bool} {n : Nat} {fold : FoldCode} {row : Event} {target : Int64}

namespace BucketStore

/-- The time buckets in memory, the oldest first. A memory without buffer has none before the first
row. -/
def slots : BucketStore → List Groups
  | .single b => if b.processed then [[("", b)]] else []
  | .groups g => if g.isEmpty then [] else [g]
  | .buffered bs => bs.map fun b => [("", b)]
  | .bufferedGroups gs => gs

/-- The starts of the time buckets in memory. -/
def starts (s : BucketStore) : List Int64 := s.slots.filterMap Groups.start

variable {m : FoldedBuckets}

variable (fold) in
theorem slots_ofSlots (h : Fits isGrouped n m)
    (hprocessed : ∀ p ∈ m, ∀ q ∈ p.2, q.2.processed = true) :
    (ofSlots fold isGrouped n m).slots = m.map (·.2) := by
  cases isGrouped with
  | false =>
      have hungrouped := h.ungrouped rfl
      cases n with
      | zero =>
          rcases m with _ | ⟨p, rest⟩
          · rfl
          · obtain rfl : rest = [] := by simpa using h.length_le
            obtain ⟨b, hb⟩ := hungrouped p (by simp)
            have hb' := hprocessed p (by simp) ("", b) (by simp [hb])
            simp_all [ofSlots, slots, FoldedBuckets.buckets]
      | succ n =>
          have hslots : (FoldedBuckets.buckets m).map (fun b => [("", b)]) = m.map (·.2) := by
            clear h hprocessed
            induction m with
            | nil => rfl
            | cons p rest ih =>
                obtain ⟨⟨b, hb⟩, hrest⟩ := List.forall_mem_cons.1 hungrouped
                rw [List.map_cons, ← ih hrest, hb]
                simp [FoldedBuckets.buckets, hb]
          exact hslots
  | true =>
      cases n with
      | zero =>
          rcases m with _ | ⟨p, rest⟩
          · rfl
          · obtain rfl : rest = [] := by simpa using h.length_le
            simpa [ofSlots, slots] using h.nonempty p (by simp)
      | succ n => rfl

theorem Fits.starts_eq (h : Fits isGrouped n m) :
    (m.map (·.2)).filterMap Groups.start = m.map (·.1) := by
  rw [List.filterMap_map, ← List.filterMap_eq_map]
  exact List.filterMap_congr fun p hp => h.start_eq hp

end BucketStore

namespace Level

variable {l : RollupLayout} {lv lv' : Level}
  {placed : List Placed} {past : List (String × Bucket)} {held : FoldedBuckets}
  {rows flushed : List Event}

/-- The bucket that a row belongs in: its own if that is newer than the open one, open or still
buffered, and the open one otherwise. -/
inductive Destination (lv : Level) (row : Event) : Int64 → Prop
  | newer {start : Int64} (own : lv.granularity.startTime row.timestamp = .ok start)
      (newer : ∀ opened, lv.openStart = some opened → opened < start) : Destination lv row start
  | held {start : Int64} (own : lv.granularity.startTime row.timestamp = .ok start)
      (held : start ∈ lv.store.starts) : Destination lv row start
  | late {start opened : Int64} (own : lv.granularity.startTime row.timestamp = .ok start)
      (isOpen : lv.openStart = some opened) (older : start < opened)
      (gone : start ∉ lv.store.starts) : Destination lv row opened

/-- Rows that a level takes in one after the other, each with the bucket that it belongs in. -/
inductive Assigns : Level → List Placed → Prop
  | nil {lv : Level} : Assigns lv []
  | cons {lv : Level} {row : Event} {target : Int64} {rest : List Placed}
      (goes : lv.Destination row target) (later : Assigns (lv.ingest row).2 rest) :
      Assigns lv ((target, row) :: rest)

/-- The time buckets in memory are no more than a buffer and the open one. They hold data, start one
after the other, and the last one is open. -/
structure InOrder (lv : Level) (n : Nat) : Prop where
  room : lv.store.slots.length ≤ n + 1
  nonempty : ∀ gs ∈ lv.store.slots, gs ≠ []
  start : ∀ gs ∈ lv.store.slots, ∀ q ∈ gs, Groups.start gs = some q.2.timestamp
  ascending : lv.store.starts.Pairwise (· < ·)
  last : lv.openStart = lv.store.starts.getLast?

/-- What a level has made of rows: the entries of the buckets that have left the memory, and those
of the buckets in it. -/
structure Filed (l : RollupLayout) (fold : FoldCode) (n : Nat) (lv : Level) (placed : List Placed)
    (past : List (String × Bucket)) (held : FoldedBuckets) : Prop where
  fold_eq : lv.fold = fold
  groupCount_eq : lv.groupCount = l.groupCount
  bufferSize_eq : lv.bufferSize = n
  holds : lv.Holds l.isGrouped held
  files : Files fold l.groupCount placed (past ++ held.flatMap (·.2))
  ascending : past.Pairwise (·.2.timestamp ≤ ·.2.timestamp)
  below : ∀ q ∈ past, ∀ o ∈ held.map (·.1), q.2.timestamp < o
  started : held = [] → past = []

theorem filed_start (g : Granularity) (l : RollupLayout) (fold : FoldCode) (n : Nat)
    (table : Holder) : (Level.start g l fold n table).Filed l fold n [] [] [] where
  fold_eq := rfl
  groupCount_eq := rfl
  bufferSize_eq := rfl
  holds := ⟨BucketStore.empty_eq_ofSlots, rfl, by simp, .nil, by simp, by simp, by simp⟩
  files := .nil
  ascending := .nil
  below := by simp
  started := fun _ => rfl

namespace Filed

/-- All entries hold data. -/
theorem processed (h : lv.Filed l fold n placed past held) {q : String × Bucket}
    (hq : q ∈ past ++ held.flatMap (·.2)) : q.2.processed = true :=
  (Bucket.timestamp_processed_of_ofRows (h.files.nonempty q hq) (h.files.content q hq)).2

theorem slots_eq (h : lv.Filed l fold n placed past held) : lv.store.slots = held.map (·.2) := by
  rw [h.holds.store]
  refine BucketStore.slots_ofSlots _ h.holds.fits fun p hp q hq => h.processed ?_
  exact List.mem_append_right _ (List.mem_flatMap.2 ⟨p, hp, hq⟩)

theorem starts_eq (h : lv.Filed l fold n placed past held) : lv.store.starts = held.map (·.1) := by
  rw [BucketStore.starts, h.slots_eq, h.holds.fits.starts_eq]

theorem inOrder (h : lv.Filed l fold n placed past held) : lv.InOrder n where
  room := by
    rw [h.slots_eq, List.length_map, ← h.bufferSize_eq]
    exact h.holds.fits.length_le
  nonempty := by
    rw [h.slots_eq, List.forall_mem_map]
    exact h.holds.fits.nonempty
  start := by
    rw [h.slots_eq, List.forall_mem_map]
    intro p hp q hq
    rw [h.holds.fits.start_eq hp, h.holds.fits.timestamp p hp q hq]
  ascending := by
    rw [h.starts_eq]
    exact h.holds.fits.sorted
  last := by
    rw [h.starts_eq]
    exact h.holds.openStart

/-- A row is merged into the buckets that stay in memory, behind all that leaves it. -/
theorem merge (h : lv.Filed l fold n placed past held) {dropped kept m : FoldedBuckets}
    (hsplit : held = dropped ++ kept)
    (hupdate : FoldedBuckets.update target (lv.keyOf row) (.empty lv.fold target)
      (Bucket.process lv.fold row) kept = (.ok (), m))
    (hbefore : ∀ q ∈ past ++ dropped.flatMap (·.2), ∀ o ∈ m.map (·.1), q.2.timestamp < o)
    (hroom : m.length ≤ lv.bufferSize + 1) (table : Holder) :
    Level.Filed l fold n
      { lv with
        store := .ofSlots lv.fold l.isGrouped lv.bufferSize m
        openStart := (m.map (·.1)).getLast?
        table := table }
      (placed ++ [(target, row)]) (past ++ dropped.flatMap (·.2)) m := by
  have hfits := hsplit ▸ h.holds.fits
  have hdropped := hfits.sublist (List.sublist_append_left dropped kept)
  have hkept := hfits.sublist (List.sublist_append_right dropped kept)
  have htarget : target ∈ m.map (·.1) :=
    (FoldedBuckets.mem_starts_update hupdate target).2 (.inl rfl)
  have hmerges := FoldedBuckets.merges hkept.sorted hkept.timestamp hupdate
  refine ⟨h.fold_eq, h.groupCount_eq, h.bufferSize_eq, ⟨rfl, rfl, ?_⟩, ?_, ?_, hbefore, ?_⟩
  · exact hkept.update (keyOf_ungrouped h.groupCount_eq · row) hupdate hroom
  · have hfiles := h.files
    rw [hsplit, List.flatMap_append, ← List.append_assoc] at hfiles
    have hmerge := hmerges.append _ []
      (label_notMem fun q hq => Int64.ne_of_lt (hbefore q hq target htarget)) (by simp)
    rw [List.append_nil, List.append_nil, keyOf, h.groupCount_eq, h.fold_eq] at hmerge
    exact hfiles.merge hmerge
  · refine List.pairwise_append.2 ⟨h.ascending,
      FoldedBuckets.ascending_entries hdropped.sorted hdropped.timestamp, fun q hq q' hq' => ?_⟩
    refine Int64.le_of_lt (h.below q hq _ ?_)
    rw [hsplit, List.map_append]
    exact List.mem_append_left _ (FoldedBuckets.timestamp_mem_starts hdropped.timestamp hq')
  · rintro rfl
    cases htarget

/-- One further row. -/
theorem ingest (h : lv.Filed l fold n placed past held)
    (hingest : lv.ingest row = (.ok flushed, lv')) :
    ∃ target left held', lv.Destination row target ∧
      lv'.Filed l fold n (placed ++ [(target, row)]) (past ++ left) held' ∧
      flushed = left.map (·.2.toEvent) := by
  obtain ⟨start, target, dropped, kept, m, hstart, hgoes, hupdate, rfl, rfl⟩ :=
    h.holds.ingest (keyOf_ungrouped h.groupCount_eq · row) hingest
  cases hgoes with
  | opens newer split room =>
      -- A bucket that leaves the memory has been folded into, so none of its entries is left out.
      have hflushed : (dropped.flatMap fun p => Groups.rows p.2) =
          (dropped.flatMap (·.2)).map (·.2.toEvent) :=
        FoldedBuckets.rows_entries fun q hq => h.processed <| by
          rw [split, List.flatMap_append]
          exact List.mem_append_right _ (List.mem_append_left _ hq)
      have hlength := h.holds.fits.length_le
      rw [split, List.length_append] at hlength room
      have hkept : ∀ p ∈ kept, p.1 < start := fun p hp =>
        newer p.1 (by rw [split]; exact List.mem_map_of_mem (List.mem_append_right _ hp))
      have hstarts := FoldedBuckets.map_starts_update_of_forall_lt hkept hupdate
      refine ⟨start, _, m, .newer hstart fun o ho => newer o (h.holds.le_opened ho).1,
        h.merge split hupdate (fun q hq o ho => ?_) ?_ _, hflushed⟩
      · -- Nothing is flushed before there is a bucket in memory, so there is one to compare with.
        rw [hstarts] at ho
        have hfits := split ▸ h.holds.fits
        rw [split] at newer
        rcases List.mem_append.1 hq with hq | hq
        · have hne : dropped ++ kept ≠ [] := fun hnil => by
            simp [h.started (split.trans hnil)] at hq
          exact FoldedBuckets.lt_of_below hne (split ▸ h.below q hq) newer o ho
        · have hmem := FoldedBuckets.timestamp_mem_starts
            (hfits.sublist (List.sublist_append_left dropped kept)).timestamp hq
          exact FoldedBuckets.lt_of_dropped hfits.sorted newer _ hmem o ho
      · have hlength' := congrArg List.length hstarts
        simp only [List.length_map, List.length_append, List.length_singleton] at hlength'
        omega
  | stays mem late =>
      -- The starts in memory stay the same, and nothing is flushed.
      have hstarts := h.holds.map_starts_update mem hupdate
      refine ⟨target, [], m, ?_, ?_, rfl⟩
      · by_cases heq : target = start
        · exact .held (heq ▸ hstart) (h.starts_eq ▸ mem)
        · obtain ⟨hopen, hlt, hgone⟩ := late heq
          exact .late hstart hopen hlt (h.starts_eq ▸ hgone)
      · refine h.merge (List.nil_append held).symm hupdate (fun q hq o ho => ?_) ?_ _
        · rw [hstarts] at ho
          exact h.below q (by simpa using hq) o ho
        · have hlength := h.holds.fits.length_le
          have hlength' := congrArg List.length hstarts
          simp only [List.length_map] at hlength'
          omega

/-- Further rows. -/
theorem ingestAll (h : lv.Filed l fold n placed past held)
    (hrun : lv.ingestAll rows = (.ok flushed, lv')) :
    ∃ more left held', more.map (·.2) = rows ∧ lv.Assigns more ∧
      lv'.Filed l fold n (placed ++ more) (past ++ left) held' ∧
      flushed = left.map (·.2.toEvent) := by
  induction rows generalizing lv placed past held flushed with
  | nil =>
      cases hrun
      exact ⟨[], [], held, rfl, .nil, by simpa using h, rfl⟩
  | cons row rest ih =>
      obtain ⟨first, lv₁, others, hfirst, hothers, rfl⟩ := ingestAll_cons hrun
      obtain ⟨target, left, held₁, hgoes, hfiled, rfl⟩ := h.ingest hfirst
      obtain ⟨more, left', held', rfl, hassigns, hfiled', rfl⟩ := ih hfiled hothers
      refine ⟨(target, row) :: more, left ++ left', held', rfl, .cons hgoes ?_, ?_, by simp⟩
      · rw [hfirst]
        exact hassigns
      · simpa using hfiled'

end Filed

/-! ### Levels that are fed with rows -/

/-- A level after rows, whether or not it takes them in. -/
def feed (lv : Level) (rows : List Event) : Level := rows.foldl (fun lv row => (lv.ingest row).2) lv

/-- The bucket of a row comes before the open one. -/
def Behind (lv : Level) (row : Event) : Prop :=
  ∃ start opened, lv.granularity.startTime row.timestamp = .ok start ∧
    lv.openStart = some opened ∧ start < opened

/-- A level opens no buckets but those of its rows. -/
theorem openStart_ingest (lv : Level) (row : Event) :
    (lv.ingest row).2.granularity = lv.granularity ∧
      ((lv.ingest row).2.openStart = lv.openStart ∨
        ∃ start, lv.granularity.startTime row.timestamp = .ok start ∧
          (lv.ingest row).2.openStart = some start) := by
  have htarget (start : Int64) : (lv.target start).2.2.granularity = lv.granularity ∧
      ((lv.target start).2.2.openStart = lv.openStart ∨
        (lv.target start).2.2.openStart = some start) := by
    rcases lv.target_cases start with h | ⟨o, -, h | h⟩ <;> rw [h]
    · exact ⟨rfl, .inr rfl⟩
    · exact ⟨rfl, .inl rfl⟩
    · exact ⟨rfl, .inl rfl⟩
  unfold Level.ingest
  split
  · exact ⟨rfl, .inl rfl⟩
  · rename_i start hstart
    obtain ⟨hgranularity, hopened⟩ := htarget start
    split
    · dsimp only
      split
      · exact ⟨hgranularity, hopened.imp_right fun h => ⟨start, hstart, h⟩⟩
      · exact ⟨hgranularity, hopened.imp_right fun h => ⟨start, hstart, h⟩⟩
    · exact ⟨rfl, .inl rfl⟩

theorem openStart_feed (rows : List Event) (hfresh : lv.openStart = none) :
    (lv.feed rows).granularity = lv.granularity ∧
      ∀ o, (lv.feed rows).openStart = some o →
        ∃ row ∈ rows, lv.granularity.startTime row.timestamp = .ok o := by
  induction rows using List.reverseRecOn with
  | nil => exact ⟨rfl, fun o ho => by cases hfresh.symm.trans ho⟩
  | append_singleton rows row ih =>
      obtain ⟨hgranularity, hopened⟩ := ih
      obtain ⟨hgranularity', hopened'⟩ := (lv.feed rows).openStart_ingest row
      have hfeed : lv.feed (rows ++ [row]) = ((lv.feed rows).ingest row).2 := by simp [feed]
      rw [hfeed]
      refine ⟨hgranularity'.trans hgranularity, fun o ho => ?_⟩
      rcases hopened' with heq | ⟨start, hstart, heq⟩
      · obtain ⟨r, hr, hor⟩ := hopened o (heq.symm.trans ho)
        exact ⟨r, List.mem_append_left _ hr, hor⟩
      · obtain rfl := Option.some.inj (heq.symm.trans ho)
        exact ⟨row, by simp, hgranularity ▸ hstart⟩

/-- Rows in the order of time are never late. -/
theorem not_behind_feed (hfresh : lv.openStart = none)
    (h : (rows ++ [row]).Pairwise (·.timestamp ≤ ·.timestamp)) : ¬(lv.feed rows).Behind row := by
  rintro ⟨start, opened, hstart, hopened, hlt⟩
  obtain ⟨hgranularity, hfed⟩ := openStart_feed rows hfresh
  obtain ⟨r, hr, hor⟩ := hfed opened hopened
  have hle := (List.pairwise_append.1 h).2.2 r hr row (by simp)
  exact Int64.not_lt.2 (Granularity.startTime_mono hor (hgranularity ▸ hstart) hle) hlt

end Level

/-- Where no columns share a name, the first ones are those of the group-by attributes. -/
theorem RollupLayout.Clear.carries {d : RollupDefinition} {l : RollupLayout} {context : Context}
    {fold : FoldCode} (hclear : Clear d) (hl : ofDefinition d = .ok l)
    (hfold : (l.baseCodes context).finish = .ok fold) : Bucket.Carries fold l.groupCount := by
  have hregular := hclear.regular hl
  intro i hi
  rw [hregular.groupCount] at hi
  obtain ⟨type, -, hcolumn⟩ := hregular.column_group (List.getElem?_eq_getElem hi)
  obtain ⟨code, hcode, hbase⟩ := (hregular.baseCodes hfold).code i _ hcolumn
  cases hbase with
  | carry => exact ⟨_, hcode⟩
  | fold folded => cases folded

/-! ### Trades in seconds, with room for one closed bucket -/

namespace Level.Seconds

open RollupLayout

/-- The layout of a declaration, and how rows are folded in its columns. -/
def columns (d : RollupDefinition) : Except RollupError (RollupLayout × FoldCode) := do
  let l ← ofDefinition d
  let codes ← (l.baseCodes .standard).finish
  return (l, codes)

theorem columns_eq_ok {d : RollupDefinition} {c : RollupLayout × FoldCode}
    (h : columns d = .ok c) :
    ofDefinition d = .ok c.1 ∧ (c.1.baseCodes .standard).finish = .ok c.2 := by
  obtain ⟨l, hl, h⟩ := Run.bind_eq_ok.1 h
  obtain ⟨codes, hcodes, h⟩ := Run.bind_eq_ok.1 h
  cases h
  exact ⟨hl, hcodes⟩

/-- A level of seconds. -/
def level (c : RollupLayout × FoldCode) : Level :=
  .start .seconds c.1 c.2 1 (.unindexed (c.1.tableDefinition .seconds))

def bySymbol : RollupLayout × FoldCode :=
  (columns Rollup.Trades.definition).toOption.get (by decide +kernel)

def bySymbolTwice : RollupLayout × FoldCode :=
  (columns repeated).toOption.get (by decide +kernel)

theorem columns_trades : columns Rollup.Trades.definition = .ok bySymbol :=
  Rollup.Trades.eq_ok_of_isSome _

theorem columns_repeated : columns repeated = .ok bySymbolTwice :=
  Rollup.Trades.eq_ok_of_isSome _

/-- The third row finds its bucket in the buffer, and the fifth comes too late for that. -/
def ticks : List Event :=
  [(1000, "A", 5), (2500, "B", 3), (1500, "A", 2), (4000, "A", 7), (1200, "B", 1),
    (5000, "B", 4)].map fun (time, symbol, price) =>
      .current time [.long time, .string symbol, .long 1, .long price]

/-- Rows of one symbol. -/
def sums : List Event :=
  [(1000, 5), (1000, 10), (1000, 5), (2000, 1), (3000, 1)].map fun (time, price) =>
    .current time [.long time, .string "A", .long price]

/-- The rows that have been flushed and the level, after rows that it has taken in. -/
theorem ingestAll_eq (lv : Level) (rows : List Event)
    (h : (lv.ingestAll rows).1.toOption.isSome = true) :
    lv.ingestAll rows = (.ok ((lv.ingestAll rows).1.toOption.get h), (lv.ingestAll rows).2) :=
  Prod.ext (Rollup.Trades.eq_ok_of_isSome h) rfl

end Level.Seconds

namespace Level

variable {l : RollupLayout} {lv : Level} {g : Granularity} {table : Holder}
  {rows flushed : List Event}

/-! ### Runs -/

/-- Whatever rows a level takes in, each is folded into the one entry of the bucket that it belongs
in and of its group. The buckets in memory are in order and bounded in number; the rows that have
left it are in the order of time, no two of one bucket and group, and start before all that is in
memory, now and after all further rows. No level that is fed with them meets a late row. -/
theorem flushed_in_order
    (hrun : (Level.start g l fold n table).ingestAll rows = (.ok flushed, lv)) :
    ∃ (placed : List Placed) (past : List (String × Bucket)),
      placed.map (·.2) = rows ∧ (Level.start g l fold n table).Assigns placed ∧
      Files fold l.groupCount placed (past ++ lv.store.slots.flatten) ∧
      flushed = past.map (·.2.toEvent) ∧
      lv.InOrder n ∧
      flushed.Pairwise (·.timestamp ≤ ·.timestamp) ∧
      (∀ x ∈ flushed, ∀ s ∈ lv.store.starts, x.timestamp < s) ∧
      (Bucket.Carries fold l.groupCount → (flushed.map (rowLabel l.groupCount)).Nodup) ∧
      (∀ more flushed' lv', lv.ingestAll more = (.ok flushed', lv') →
        ∀ x ∈ flushed, ∀ s ∈ lv'.store.starts, x.timestamp < s) ∧
      ∀ (g' : Granularity) (l' : RollupLayout) (fold' : FoldCode) (n' : Nat) (table' : Holder)
        (fed : List Event) (x : Event), (fed ++ [x]).Sublist flushed →
        ¬((Level.start g' l' fold' n' table').feed fed).Behind x := by
  obtain ⟨placed, past, held, hrows, hassigns, hfiled, rfl⟩ :=
    (filed_start g l fold n table).ingestAll hrun
  rw [List.nil_append, List.nil_append] at hfiled
  have hascending : (past.map (·.2.toEvent)).Pairwise (·.timestamp ≤ ·.timestamp) :=
    List.pairwise_map.2 hfiled.ascending
  refine ⟨placed, past, hrows, hassigns, ?_, rfl, hfiled.inOrder, hascending, ?_,
    fun hcarries => ?_, fun more flushed' lv' hmore => ?_,
    fun g' l' fold' n' table' fed x hfed => ?_⟩
  · rw [hfiled.slots_eq, ← List.flatMap_def]
    exact hfiled.files
  · rw [List.forall_mem_map, hfiled.starts_eq]
    exact hfiled.below
  · have hlabels : (past.map (·.2.toEvent)).map (rowLabel l.groupCount) = past.map entryLabel := by
      rw [List.map_map]
      refine List.map_congr_left fun q hq => Prod.ext rfl ?_
      exact hfiled.files.groupKey_toEvent hcarries (List.mem_append_left _ hq)
    rw [hlabels]
    exact hfiled.files.nodup.sublist ((List.sublist_append_left _ _).map _)
  · obtain ⟨_, left, held', -, -, hfiled', -⟩ := hfiled.ingestAll hmore
    rw [List.forall_mem_map, hfiled'.starts_eq]
    exact fun q hq => hfiled'.below q (List.mem_append_left _ hq)
  · exact not_behind_feed rfl (hascending.sublist hfed)

/-- One bucket has been flushed when the row that is too late for it comes. -/
theorem flushed_in_order_trades :
    ∃ flushed lv, (Seconds.level Seconds.bySymbol).ingestAll Seconds.ticks = (.ok flushed, lv) ∧
      flushed.map (rowLabel 1) = [(1000, "A"), (2000, "B")] ∧ lv.openStart = some 5000 ∧
      ∃ (placed : List Placed) (past : List (String × Bucket)),
        placed.map (·.2) = Seconds.ticks ∧ (Seconds.level Seconds.bySymbol).Assigns placed ∧
        Files Seconds.bySymbol.2 1 placed (past ++ lv.store.slots.flatten) ∧
        flushed = past.map (·.2.toEvent) ∧ lv.InOrder 1 ∧
        (flushed.map (rowLabel 1)).Nodup := by
  obtain ⟨hlayout, hcodes⟩ := Seconds.columns_eq_ok Seconds.columns_trades
  have hrun := Seconds.ingestAll_eq (Seconds.level Seconds.bySymbol) Seconds.ticks
    (by decide +kernel)
  have hcount : Seconds.bySymbol.1.groupCount = 1 := by decide +kernel
  obtain ⟨placed, past, hrows, hassigns, hfiles, hflushed, horder, -, -, hlabels, -, -⟩ :=
    flushed_in_order hrun
  rw [hcount] at hfiles hlabels
  refine ⟨_, _, hrun, by decide +kernel, by decide +kernel, placed, past, hrows, hassigns, hfiles,
    hflushed, horder, hlabels ?_⟩
  have hclear := RollupLayout.clear_of_unreserved (by decide) Rollup.Trades.clear
  exact hcount ▸ hclear.carries hlayout hcodes

/-- The second group-by position of a repeated attribute is that of the sums, so rows of one symbol
have different keys as they are taken in, and may have one key when they are flushed. -/
theorem flushes_label_twice :
    RollupLayout.repeated.Accepted ∧ ∃ l fold,
      RollupLayout.ofDefinition RollupLayout.repeated = .ok l ∧
      (l.baseCodes .standard).finish = .ok fold ∧
      ∃ flushed lv, (Level.start .seconds l fold RollupLayout.repeated.bufferSize
          (.unindexed (l.tableDefinition .seconds))).ingestAll Seconds.sums = (.ok flushed, lv) ∧
        flushed.map (rowLabel l.groupCount) = [(1000, "A:10L"), (1000, "A:10L")] ∧
        ¬(flushed.map (rowLabel l.groupCount)).Nodup := by
  obtain ⟨hlayout, hcodes⟩ := Seconds.columns_eq_ok Seconds.columns_repeated
  have hrun := Seconds.ingestAll_eq (Seconds.level Seconds.bySymbolTwice) Seconds.sums
    (by decide +kernel)
  exact ⟨⟨[.seconds, .minutes], rfl⟩, _, _, hlayout, hcodes, _, _, hrun, by decide +kernel,
    by decide +kernel⟩

end Level

end EventQuery
