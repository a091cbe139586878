import EventQuery.Proofs.Rollup.Opening
import EventQuery.Proofs.Store.Holder

/-!
What a level keeps while rows are folded into it. Every event is in its table or in its memory,
once. The buckets in memory start after all rows of the table, so a bucket that has been flushed is
never opened again, and rows leave the memory in the order of time.
-/

namespace EventQuery

/-- The start and the group of a row. -/
def rowLabel (groupCount : Nat) (row : Event) : Int64 × String :=
  (row.timestamp, groupKey groupCount row)

namespace FoldedBuckets

variable {d : RollupDefinition} {l : RollupLayout} {g : Granularity} {fold : FoldCode}
  {m : FoldedBuckets} {s : Multiset Placed} {n : Nat}

/-- A memory has room for the map that it keeps. -/
theorem Gathers.fits (h : m.Gathers d l g fold s) (hlength : m.length ≤ n + 1) :
    BucketStore.Fits l.isGrouped n m where
  length_le := hlength
  sorted := h.sorted
  nonempty := h.nonempty
  timestamp p hp q hq := by
    obtain ⟨t, ht⟩ := h.bucket_of_mem hp hq
    exact ht.timestamp
  ungrouped hgrouped p hp := by
    -- All rows have the empty key, so there is one group.
    have hzero : l.groupCount = 0 := by simpa [RollupLayout.isGrouped] using hgrouped
    have hkey : ∀ q ∈ p.2, q.1 = "" := by
      intro q hq
      obtain ⟨t, ht⟩ := h.bucket_of_mem hp hq
      obtain ⟨rows, hne, -, hrows, -⟩ := ht.collected
      rw [← hrows _ (List.getLast_mem hne), hzero, groupKey_zero]
    obtain ⟨t, ht⟩ := h.groups_of_mem hp
    have hne := h.nonempty p hp
    have hnodup := ht.nodup
    rcases hgs : p.2 with _ | ⟨q, _ | ⟨r, rest⟩⟩
    · exact absurd hgs hne
    · exact ⟨q.2, by rw [← hkey q (by simp [hgs])]⟩
    · rw [hgs] at hnodup hkey
      simp [hkey q (by simp), hkey r (by simp)] at hnodup

end FoldedBuckets

namespace Level

/-- What is in a level: the buckets in memory, and the events that the rows of the table and these
buckets represent. -/
structure View where
  slots : FoldedBuckets
  stored : Multiset Placed
  kept : Multiset Placed

/-- The invariant of a level. -/
structure Keeps (d : RollupDefinition) (l : RollupLayout) (lv : Level) (v : View) : Prop where
  codes : BaseCodes l.columns lv.fold.code lv.fold.memory.cells.length
  groupCount : lv.groupCount = l.groupCount
  keyless : lv.table.Keyless (l.tableDefinition lv.granularity)
  store : lv.store = .ofSlots lv.fold l.isGrouped lv.bufferSize v.slots
  openStart : lv.openStart = (v.slots.map (·.1)).getLast?
  length_le : v.slots.length ≤ lv.bufferSize + 1
  memory : v.slots.Gathers d l lv.granularity lv.fold v.kept
  table : Parts (Summarizes d l lv.granularity) lv.table.rows v.stored
  nodup : (lv.table.rows.map (rowLabel l.groupCount)).Nodup
  started : v.slots = [] → lv.table.rows = []
  below : ∀ row ∈ lv.table.rows, ∀ o ∈ v.slots.map (·.1), row.timestamp < o

/-- A level takes in events and flushes rows. No row leaves it with an earlier start than its memory
had. -/
structure Moves (d : RollupDefinition) (l : RollupLayout) (lv : Level) (v : View)
    (u : Multiset Placed) (flushed : List Event) (lv' : Level) (v' : View) : Prop where
  keeps : lv'.Keeps d l v'
  granularity : lv'.granularity = lv.granularity
  total : v'.stored + v'.kept = v.stored + v.kept + u
  flushes : ∃ F, v'.stored = v.stored + F ∧ Parts (Summarizes d l lv.granularity) flushed F
  rows : lv'.table.rows = lv.table.rows ++ flushed
  ascending : flushed.Pairwise (·.timestamp ≤ ·.timestamp)
  floor : v.slots ≠ [] → ∀ o, (∀ s ∈ v.slots.map (·.1), o ≤ s) →
    (∀ s ∈ v'.slots.map (·.1), o ≤ s) ∧ ∀ row ∈ flushed, o ≤ row.timestamp
  opened : v'.slots ≠ []

variable {d : RollupDefinition} {l : RollupLayout} {lv lv' lv'' : Level} {v v' v'' : View}
  {u u' : Multiset Placed} {flushed flushed' : List Event} {row : Event} {start : Int64}

theorem Moves.trans (h : Moves d l lv v u flushed lv' v')
    (h' : Moves d l lv' v' u' flushed' lv'' v'') :
    Moves d l lv v (u + u') (flushed ++ flushed') lv'' v'' where
  keeps := h'.keeps
  granularity := h'.granularity.trans h.granularity
  total := by rw [h'.total, h.total, add_assoc]
  flushes := by
    obtain ⟨F, hF, hparts⟩ := h.flushes
    obtain ⟨F', hF', hparts'⟩ := h'.flushes
    exact ⟨F + F', by rw [hF', hF, add_assoc], hparts.append (h.granularity ▸ hparts')⟩
  rows := by rw [h'.rows, h.rows, List.append_assoc]
  ascending := by
    refine List.pairwise_append.2 ⟨h.ascending, h'.ascending, fun row hrow => ?_⟩
    -- What has been flushed starts before all that is in memory, from where the later rows come.
    have hbelow := h.keeps.below row (by rw [h.rows]; exact List.mem_append_right _ hrow)
    exact (h'.floor h.opened row.timestamp fun s hs => Int64.le_of_lt (hbelow s hs)).2
  floor hne o ho := by
    obtain ⟨hslots, hflushed⟩ := h.floor hne o ho
    obtain ⟨hslots', hflushed'⟩ := h'.floor h.opened o hslots
    exact ⟨hslots', List.forall_mem_append.2 ⟨hflushed, hflushed'⟩⟩
  opened := h'.opened

theorem Keeps.keyOf_eq (h : lv.Keeps d l v) (row : Event) :
    lv.keyOf row = groupKey l.groupCount row := by
  rw [keyOf, h.groupCount]

/-- The memory is the map of the buckets in it. -/
theorem Keeps.holds (h : lv.Keeps d l v) : lv.Holds l.isGrouped v.slots where
  store := h.store
  openStart := h.openStart
  fits := h.memory.fits h.length_le

/-- A row is folded into a bucket in memory. -/
theorem Keeps.fold_kept (h : lv.Keeps d l v) (hmem : start ∈ v.slots.map (·.1))
    (hrow : Represents d l row u) (hplaced : ∀ x ∈ u, lv.granularity.startTime x.1 = .ok start)
    {m : FoldedBuckets} (hm : FoldedBuckets.update start (lv.keyOf row) (.empty lv.fold start)
      (Bucket.process lv.fold row) v.slots = (.ok (), m)) :
    ∃ v', Moves d l lv v u []
      { lv with
        store := .ofSlots lv.fold l.isGrouped lv.bufferSize m
        openStart := (m.map (·.1)).getLast?
        table := (lv.table.addAll []).2 } v' := by
  have hstarts := h.holds.map_starts_update hmem hm
  have hlength : m.length = v.slots.length := by simpa using congrArg List.length hstarts
  have hne : m ≠ [] := by
    rintro rfl
    rw [← hstarts] at hmem
    cases hmem
  rw [h.keyOf_eq] at hm
  refine ⟨⟨m, v.stored, v.kept + u⟩, ?_, rfl, (add_assoc _ _ _).symm, ⟨0, (add_zero _).symm, .nil⟩,
    (List.append_nil _).symm, .nil, fun _ o ho => ⟨fun s hs => ho s (hstarts ▸ hs), by simp⟩, hne⟩
  exact
    { codes := h.codes
      groupCount := h.groupCount
      keyless := h.keyless
      store := rfl
      openStart := rfl
      length_le := hlength ▸ h.length_le
      memory := h.memory.update hrow hplaced hm
      table := h.table
      nodup := h.nodup
      started := fun hnil => absurd hnil hne
      below := fun row hr o ho => h.below row hr o (hstarts ▸ ho) }

section Leaving

variable {dropped kept : FoldedBuckets} {t : Multiset Placed}

/-- Rows that leave the memory have other labels than those of the table. -/
theorem Keeps.nodup_append (h : lv.Keeps d l v) (hl : l.Regular d)
    (hslots : v.slots = dropped ++ kept) (hdropped : dropped.Gathers d l lv.granularity lv.fold t) :
    ((lv.table.rows ++ dropped.buckets.map (·.toEvent)).map (rowLabel l.groupCount)).Nodup := by
  rw [List.map_append, List.nodup_append]
  refine ⟨h.nodup, ?_, fun label hlabel label' hlabel' heq => ?_⟩
  · rw [List.map_map]
    exact hdropped.nodup_labels hl h.codes
  · obtain ⟨row, hrow, rfl⟩ := List.mem_map.1 hlabel
    obtain ⟨row', hrow', rfl⟩ := List.mem_map.1 hlabel'
    have hmem : row'.timestamp ∈ v.slots.map (·.1) := by
      rw [hslots, List.map_append]
      exact List.mem_append_left _ (hdropped.timestamp_of_row hrow')
    exact Int64.ne_of_lt (h.below row hrow _ hmem) (Prod.mk.inj heq).1

/-- Rows that leave the memory start before what stays there and before the bucket that is
opened. -/
theorem Keeps.below_opened (h : lv.Keeps d l v) (hslots : v.slots = dropped ++ kept)
    (hdropped : dropped.Gathers d l lv.granularity lv.fold t)
    (hnew : ∀ o ∈ v.slots.map (·.1), o < start) :
    ∀ row ∈ lv.table.rows ++ dropped.buckets.map (·.toEvent), ∀ o ∈ kept.map (·.1) ++ [start],
      row.timestamp < o := by
  have hsorted := h.memory.sorted
  rw [hslots] at hsorted hnew
  intro row hrow
  rcases List.mem_append.1 hrow with hrow | hrow
  · -- The table is empty as long as the memory is.
    have hne : dropped ++ kept ≠ [] := fun hnil => by simp [h.started (hslots.trans hnil)] at hrow
    exact FoldedBuckets.lt_of_below hne (hslots ▸ h.below row hrow) hnew
  · exact FoldedBuckets.lt_of_dropped hsorted hnew _ (hdropped.timestamp_of_row hrow)

end Leaving

/-- A row is folded into a bucket that it opens. -/
theorem Keeps.fold_opened (h : lv.Keeps d l v) (hl : l.Regular d)
    (hnew : ∀ o ∈ v.slots.map (·.1), o < start) (hrow : Represents d l row u)
    (hplaced : ∀ x ∈ u, lv.granularity.startTime x.1 = .ok start) {dropped kept m : FoldedBuckets}
    (hslots : v.slots = dropped ++ kept) (hroom : dropped.length = v.slots.length - lv.bufferSize)
    (hm : FoldedBuckets.update start (lv.keyOf row) (.empty lv.fold start)
      (Bucket.process lv.fold row) kept = (.ok (), m)) :
    ∃ v', Moves d l lv v u (dropped.flatMap fun p => Groups.rows p.2)
      { lv with
        store := .ofSlots lv.fold l.isGrouped lv.bufferSize m
        openStart := (m.map (·.1)).getLast?
        table := (lv.table.addAll (dropped.flatMap fun p => Groups.rows p.2)).2 } v' := by
  have hstarts : v.slots.map (·.1) = dropped.map (·.1) ++ kept.map (·.1) := by
    rw [hslots, List.map_append]
  have hmemory := h.memory
  rw [hslots] at hmemory
  obtain ⟨t, u', hdropped, hkeeps, htotal⟩ := hmemory.append_split
  have hkept : ∀ p ∈ kept, p.1 < start := fun p hp =>
    hnew p.1 (by rw [hslots]; exact List.mem_map_of_mem (List.mem_append_right _ hp))
  rw [hdropped.rows_eq]
  rw [h.keyOf_eq] at hm
  have hstarts' := FoldedBuckets.map_starts_update_of_forall_lt hkept hm
  have hne : m ≠ [] := by
    rintro rfl
    simp at hstarts'
  obtain ⟨hkeyless, hrows⟩ := h.keyless.addAll (dropped.buckets.map (·.toEvent))
  have hsummarizes : Parts (Summarizes d l lv.granularity) (dropped.buckets.map (·.toEvent)) t :=
    (hdropped.summarizes hl h.codes).map _
  refine ⟨⟨m, v.stored + t, u' + u⟩, ?_, rfl, ?_, ⟨t, rfl, hsummarizes⟩, hrows, ?_,
    fun hopen o ho => ?_, hne⟩
  · exact
      { codes := h.codes
        groupCount := h.groupCount
        keyless := hkeyless
        store := rfl
        openStart := rfl
        length_le := by
          have hlength := congrArg List.length hstarts'
          simp only [List.length_map, List.length_append, List.length_singleton] at hlength
          have hle := h.length_le
          rw [hslots, List.length_append] at hroom hle
          show m.length ≤ lv.bufferSize + 1
          omega
        memory := hkeeps.update hrow hplaced hm
        table := by
          rw [hrows]
          exact h.table.append hsummarizes
        nodup := by
          rw [hrows]
          exact h.nodup_append hl hslots hdropped
        started := fun hnil => absurd hnil hne
        below := by
          rw [hrows]
          exact fun r hr o ho => h.below_opened hslots hdropped hnew r hr o (hstarts' ▸ ho) }
  · show v.stored + t + (u' + u) = v.stored + v.kept + u
    rw [htotal]
    ac_rfl
  · exact List.pairwise_map.2 hdropped.ascending
  · have hstart : o ≤ start := by
      obtain ⟨p, hp⟩ := List.exists_mem_of_ne_nil _ hopen
      have hmem := List.mem_map_of_mem (f := (·.1)) hp
      exact Int64.le_trans (ho p.1 hmem) (Int64.le_of_lt (hnew p.1 hmem))
    rw [hstarts] at ho
    refine ⟨fun s hs => ?_, fun r hr =>
      ho _ (List.mem_append_left _ (hdropped.timestamp_of_row hr))⟩
    replace hs : s ∈ m.map (·.1) := hs
    rw [hstarts', List.mem_append, List.mem_singleton] at hs
    rcases hs with hs | rfl
    · exact ho s (List.mem_append_right _ hs)
    · exact hstart

/-- A level with rows in its table has an open bucket. -/
theorem Keeps.exists_opened (h : lv.Keeps d l v) (hrows : lv.table.rows ≠ []) :
    ∃ opened, lv.openStart = some opened ∧ opened ∈ v.slots.map (·.1) := by
  cases hopen : lv.openStart with
  | none => exact absurd (h.started (h.holds.eq_nil hopen)) hrows
  | some opened => exact ⟨opened, rfl, (h.holds.le_opened hopen).1⟩

/-- A row is late if its bucket is neither the open one nor a newer one, and not in memory any
more. -/
def IsLate (lv : Level) (start : Int64) : Prop :=
  ∃ opened, lv.openStart = some opened ∧ start < opened ∧ lv.store.holds start = false

instance (lv : Level) (start : Int64) : Decidable (lv.IsLate start) :=
  match h : lv.openStart with
  | none => isFalse fun ⟨_, hopened, _⟩ => by cases h.symm.trans hopened
  | some opened =>
    decidable_of_iff (start < opened ∧ lv.store.holds start = false)
      ⟨fun hlate => ⟨opened, h, hlate⟩, fun ⟨_, hopened, hlate⟩ =>
        Option.some.inj (hopened.symm.trans h) ▸ hlate⟩

/-- A row that goes to another bucket than its own is late. -/
theorem Holds.isLate {isGrouped : Bool} {m : FoldedBuckets} {opened : Int64}
    (h : lv.Holds isGrouped m) (hopen : lv.openStart = some opened) (hlt : start < opened)
    (hgone : start ∉ m.map (·.1)) : lv.IsLate start := by
  refine ⟨opened, hopen, hlt, Bool.eq_false_iff.2 fun hheld => hgone ?_⟩
  exact (h.holds_iff hopen start).1 (.inr hheld)

/-- One row. The events that it represents have to be placed in the bucket that it goes to, which is
that of its start unless the row is late. -/
theorem Keeps.ingest (h : lv.Keeps d l v) (hl : l.Regular d)
    (hingest : lv.ingest row = (.ok flushed, lv')) :
    ∃ start target, lv.granularity.startTime row.timestamp = .ok start ∧
      (target = start ∨ lv.IsLate start) ∧
      lv.granularity.startTime target = .ok target ∧
      (lv'.openStart = lv.openStart ∨ lv'.openStart = some target) ∧
      ∀ u, Represents d l row u → (∀ x ∈ u, lv.granularity.startTime x.1 = .ok target) →
        ∃ v', Moves d l lv v u flushed lv' v' := by
  obtain ⟨start, target, dropped, kept, m, hstart, hgoes, hm, rfl, rfl⟩ :=
    h.holds.ingest (keyOf_ungrouped h.groupCount · row) hingest
  cases hgoes with
  | opens newer split room =>
      have hkept : ∀ p ∈ kept, p.1 < start := fun p hp =>
        newer p.1 (by rw [split]; exact List.mem_map_of_mem (List.mem_append_right _ hp))
      have hstarts := FoldedBuckets.map_starts_update_of_forall_lt hkept hm
      refine ⟨start, start, hstart, .inl rfl, Granularity.startTime_self hstart,
        .inr (by rw [hstarts, List.getLast?_concat]), fun u hrow hplaced => ?_⟩
      exact h.fold_opened hl newer hrow hplaced split room hm
  | stays held late =>
      refine ⟨start, target, hstart, ?_, h.memory.startTime_of_mem held,
        .inl (by rw [h.holds.map_starts_update held hm, h.openStart]),
        fun u hrow hplaced => h.fold_kept held hrow hplaced hm⟩
      by_cases heq : target = start
      · exact .inl heq
      · obtain ⟨hopen, hlt, hgone⟩ := late heq
        exact .inr (h.holds.isLate hopen hlt hgone)

theorem ingestAll_cons {rest : List Event}
    (hingest : lv.ingestAll (row :: rest) = (.ok flushed, lv'')) :
    ∃ first lv' others, lv.ingest row = (.ok first, lv') ∧ lv'.ingestAll rest = (.ok others, lv'') ∧
      flushed = first ++ others := by
  unfold Level.ingestAll at hingest
  rcases hfirst : lv.ingest row with ⟨e | first, lv'⟩
  · rw [hfirst] at hingest
    cases hingest
  · rw [hfirst] at hingest
    dsimp only at hingest
    rcases hrest : lv'.ingestAll rest with ⟨e | others, lv₂⟩
    · rw [hrest] at hingest
      cases hingest
    · rw [hrest] at hingest
      cases hingest
      exact ⟨first, lv', others, rfl, hrest, rfl⟩

/-- A row that is not older than the open bucket is not late. -/
theorem Keeps.not_isLate (h : lv.Keeps d l v)
    (hstart : lv.granularity.startTime row.timestamp = .ok start)
    (hopen : ∀ o, lv.openStart = some o → o ≤ row.timestamp) : ¬lv.IsLate start := by
  rintro ⟨opened, hopened, hlt, -⟩
  have hself := h.memory.startTime_of_mem (h.holds.le_opened hopened).1
  have hle := Granularity.startTime_mono hself hstart (hopen opened hopened)
  exact Int64.not_lt.2 hle hlt

/-- Rows of a finer granularity in the order of time, none of which is older than the open
bucket. -/
theorem Keeps.ingestAll {f : Granularity} {rows : List Event} (h : lv.Keeps d l v)
    (hl : l.Regular d) (hrank : f.rank ≤ lv.granularity.rank)
    (hrows : Parts (Summarizes d l f) rows u)
    (hascending : rows.Pairwise (·.timestamp ≤ ·.timestamp))
    (hopen : ∀ o, lv.openStart = some o → ∀ row ∈ rows, o ≤ row.timestamp) (hne : rows ≠ [])
    (hingest : lv.ingestAll rows = (.ok flushed, lv')) :
    ∃ v', Moves d l lv v u flushed lv' v' ∧
      ∀ o, lv'.openStart = some o → lv.openStart = some o ∨ ∃ row ∈ rows, o ≤ row.timestamp := by
  induction rows generalizing lv v u flushed with
  | nil => exact absurd rfl hne
  | cons row rest ih =>
      cases hrows with
      | @cons _ _ t t' head tail =>
          obtain ⟨first, lv₁, others, hfirst, hothers, rfl⟩ := ingestAll_cons hingest
          obtain ⟨start, target, hstart, hwhere, -, hopened, hmoves⟩ := h.ingest hl hfirst
          have hlate := h.not_isLate hstart fun o ho => hopen o ho row List.mem_cons_self
          obtain rfl : target = start := hwhere.resolve_right hlate
          obtain ⟨v₁, hmove⟩ := hmoves t head.represents fun x hx =>
            (Granularity.startTime_startTime hrank (head.placed x hx)).1 hstart
          have hle := Granularity.startTime_le hstart
          obtain ⟨hbefore, hascending'⟩ := List.pairwise_cons.1 hascending
          cases rest with
          | nil =>
              cases tail
              cases hothers
              rw [List.append_nil, add_zero]
              refine ⟨v₁, hmove, fun o ho => ?_⟩
              rcases hopened with heq | heq
              · exact .inl (heq ▸ ho)
              · rw [heq, Option.some.injEq] at ho
                exact .inr ⟨row, List.mem_cons_self, ho ▸ hle⟩
          | cons row' rest =>
              -- The open bucket is the one from before or that of this row, and the rows that
              -- follow are older than neither.
              have hopen' : ∀ o, lv₁.openStart = some o → ∀ r ∈ row' :: rest, o ≤ r.timestamp := by
                intro o ho r hr
                rcases hopened with heq | heq
                · exact hopen o (heq ▸ ho) r (List.mem_cons_of_mem _ hr)
                · rw [heq, Option.some.injEq] at ho
                  exact ho ▸ Int64.le_trans hle (hbefore r hr)
              obtain ⟨v₂, hmove', hopened'⟩ := ih hmove.keeps (hmove.granularity ▸ hrank) tail
                hascending' hopen' (by simp) hothers
              refine ⟨v₂, hmove.trans hmove', fun o ho => ?_⟩
              rcases hopened' o ho with ho | ⟨r, hr, hor⟩
              · rcases hopened with heq | heq
                · exact .inl (heq ▸ ho)
                · rw [heq, Option.some.injEq] at ho
                  exact .inr ⟨row, List.mem_cons_self, ho ▸ hle⟩
              · exact .inr ⟨r, List.mem_cons_of_mem _ hr, hor⟩

end Level

end EventQuery
