import EventQuery.Proofs.Rollup.Chain

/-!
What a granularity has to read: the rows of its table, and the buckets in memory of its level and of
all finer ones. Together they represent all events that have been processed, each once. Buckets in
memory belong to buckets of the granularity that start after all rows of the table, so folding them
gives rows of other starts.
-/

namespace EventQuery

/-- The table of a granularity and the entries of the memory up to it, with the events that they
represent. -/
structure Reading (d : RollupDefinition) (l : RollupLayout) (g : Granularity) (table : Holder)
    (entries : List (Option String × Bucket)) (stored kept : Multiset Placed) : Prop where
  keyless : table.Keyless (l.tableDefinition g)
  rows : Parts (Summarizes d l g) table.rows stored
  nodup : (table.rows.map (rowLabel l.groupCount)).Nodup
  memory : Parts (fun e t => ∃ f : Granularity, f.rank ≤ g.rank ∧
    Summarizes d l f e.2.toEvent t) entries kept
  key : ∀ e ∈ entries, e.1.getD "" = groupKey l.groupCount e.2.toEvent
  below : ∀ e ∈ entries, ∀ start, g.startTime e.2.timestamp = .ok start →
    ∀ row ∈ table.rows, row.timestamp < start

variable {d : RollupDefinition} {l : RollupLayout} {lv : Level} {v : Level.View}
  {s t : Multiset Placed} {levels : List Level} {i : Nat}

/-- The rows and entries of one group represent the events of the group. -/
theorem Reading.group {g : Granularity} {table : Holder} {entries : List (Option String × Bucket)}
    {stored kept : Multiset Placed} (h : Reading d l g table entries stored kept) (k : String) :
    Parts (Represents d l)
      (table.rows.filter (groupKey l.groupCount · = k) ++
        (entries.filter (·.1.getD "" = k)).map (·.2.toEvent))
      ((stored + kept).filter fun x => d.keyOf x.2 = k) := by
  rw [Multiset.filter_add]
  have hkey {row : Event} {t : Multiset Placed} (hrow : Represents d l row t) {x : Placed}
      (hx : x ∈ t) : d.keyOf x.2 = k ↔ decide (groupKey l.groupCount row = k) = true := by
    rw [hrow.key x hx, decide_eq_true_eq]
  have hrows : Parts (Represents d l) table.rows stored :=
    h.rows.imp fun _ _ _ hrow => hrow.represents
  have hmemory : Parts (fun e => Represents d l e.2.toEvent) entries kept :=
    h.memory.imp fun _ _ _ ⟨_, _, he⟩ => he.represents
  have hfilter : entries.filter (·.1.getD "" = k) =
      entries.filter (groupKey l.groupCount ·.2.toEvent = k) :=
    List.filter_congr fun e he => by rw [h.key e he]
  rw [hfilter]
  have hgroup := hrows.filter (groupKey l.groupCount · = k) (d.keyOf ·.2 = k)
    fun _ _ hrow _ => hkey hrow
  have hheld := hmemory.filter (groupKey l.groupCount ·.2.toEvent = k) (d.keyOf ·.2 = k)
    fun _ _ he _ => hkey he
  exact hgroup.append (Parts.map (fun e : Option String × Bucket => e.2.toEvent) hheld)

/-- The entries of the memory of a level. -/
theorem Level.Keeps.entries (h : lv.Keeps d l v) (hl : l.Regular d) :
    Parts (fun e => Summarizes d l lv.granularity e.2.toEvent) lv.store.entries v.kept ∧
      ∀ e ∈ lv.store.entries, e.1.getD "" = groupKey l.groupCount e.2.toEvent ∧
        e.2.timestamp ∈ v.slots.map (·.1) := by
  obtain ⟨hbuckets, hplaces⟩ := BucketStore.entries_ofSlots lv.fold (h.memory.fits h.length_le)
    fun b hb => (h.memory.processed hb).1
  rw [← h.store] at hbuckets hplaces
  have hparts := h.memory.summarizes hl h.codes
  rw [← hbuckets] at hparts
  refine ⟨hparts.of_map, fun e he => ?_⟩
  obtain ⟨p, hp, hq⟩ := hplaces e he
  obtain ⟨t, ht⟩ := h.memory.bucket_of_mem hp hq
  exact ⟨(ht.summarizes hl h.codes).2.symm, ht.timestamp ▸ List.mem_map_of_mem hp⟩

namespace Chained

/-- No coarser level has opened a bucket behind the open bucket of the finest one. -/
theorem opened_le (h : Chained d l s levels) (hi : levels[i]? = some lv) {o : Int64}
    (ho : lv.openStart = some o) :
    ∃ finest ∈ levels.head?, ∃ opened, finest.openStart = some opened ∧ o ≤ opened := by
  induction h generalizing i with
  | nil => cases hi
  | @cons s first v rest keeps total precedes tail ih =>
      cases i with
      | zero =>
          cases hi
          exact ⟨lv, rfl, o, ho, Int64.le_refl o⟩
      | succ i =>
          obtain ⟨next, hnext, opened, hopened, hle⟩ := ih hi
          obtain ⟨hne, hall⟩ := (precedes next hnext).behind opened hopened
          cases hfirst : first.openStart with
          | none => exact absurd (keeps.holds.eq_nil hfirst) hne
          | some opened' =>
              have hmem := (keeps.holds.le_opened hfirst).1
              exact ⟨first, rfl, opened', hfirst, Int64.le_trans hle (hall opened' hmem)⟩

theorem rank_le (h : Chained d l s levels) (hi : levels[i]? = some lv) :
    ∀ finest ∈ levels.head?, finest.granularity.rank ≤ lv.granularity.rank := by
  induction h generalizing i with
  | nil => cases hi
  | @cons s first v rest keeps total precedes tail ih =>
      rintro _ ⟨⟩
      cases i with
      | zero =>
          cases hi
          exact Nat.le_refl _
      | succ i =>
          cases rest with
          | nil => cases hi
          | cons next rest => exact Nat.le_trans (precedes next rfl).rank_le (ih hi next rfl)

theorem keeps_of_mem (h : Chained d l s levels) (hi : levels[i]? = some lv) :
    ∃ v, lv.Keeps d l v := by
  induction h generalizing i with
  | nil => cases hi
  | @cons s first v rest keeps total precedes tail ih =>
      cases i with
      | zero =>
          cases hi
          exact ⟨v, keeps⟩
      | succ i => exact ih hi

/-- Every level has all events between its table and the memory up to it. -/
theorem reading (h : Chained d l s levels) (hl : l.Regular d) (hi : levels[i]? = some lv) :
    ∃ stored kept, stored + kept = s ∧
      Reading d l lv.granularity lv.table ((levels.take (i + 1)).flatMap (·.store.entries))
        stored kept := by
  induction h generalizing i with
  | nil => cases hi
  | @cons s first v rest keeps total precedes tail ih =>
      obtain ⟨hparts, hplaces⟩ := keeps.entries hl
      cases i with
      | zero =>
          cases hi
          have hentries :
              ((lv :: rest).take (0 + 1)).flatMap (·.store.entries) = lv.store.entries := by simp
          rw [hentries]
          refine ⟨v.stored, v.kept, total, keeps.keyless, keeps.table, keeps.nodup,
            hparts.imp fun e _ t ht => ⟨lv.granularity, Nat.le_refl _, ht⟩,
            fun e he => (hplaces e he).1, ?_⟩
          intro e he start hstart row hrow
          have hmem := (hplaces e he).2
          obtain rfl := Except.ok.inj ((keeps.memory.startTime_of_mem hmem).symm.trans hstart)
          exact keeps.below row hrow _ hmem
      | succ i =>
          obtain ⟨stored, kept, hsum, hreading⟩ := ih hi
          have hall : Chained d l s (first :: rest) := .cons keeps total precedes tail
          have hrank := hall.rank_le (i := i + 1) hi first rfl
          have hentries : ((first :: rest).take (i + 1 + 1)).flatMap (·.store.entries) =
              first.store.entries ++ (rest.take (i + 1)).flatMap (·.store.entries) := by simp
          rw [hentries]
          refine ⟨stored, v.kept + kept, ?_, hreading.keyless, hreading.rows, hreading.nodup, ?_,
            ?_, ?_⟩
          · rw [← total, ← hsum]
            ac_rfl
          · exact (hparts.imp fun e _ t ht => ⟨first.granularity, hrank, ht⟩).append hreading.memory
          · exact List.forall_mem_append.2 ⟨fun e he => (hplaces e he).1, hreading.key⟩
          · refine List.forall_mem_append.2 ⟨fun e he start hstart row hrow => ?_, hreading.below⟩
            -- The table ends before the open bucket of its level, and that starts no later than the
            -- entry.
            obtain ⟨v', hkeeps⟩ := tail.keeps_of_mem hi
            obtain ⟨o, ho, hmem⟩ := hkeeps.exists_opened (List.ne_nil_of_mem hrow)
            obtain ⟨next, hnext, o', ho', hle⟩ := tail.opened_le hi ho
            have hentry :=
              Int64.le_trans hle (((precedes next hnext).behind o' ho').2 _ (hplaces e he).2)
            have hstarts :=
              Granularity.startTime_mono (hkeeps.memory.startTime_of_mem hmem) hstart hentry
            exact Int64.lt_of_lt_of_le (hkeeps.below row hrow o hmem) hstarts

end Chained

namespace Retrieval

variable {code : FoldCode} {g : Granularity} {entries : List (Option String × Bucket)}
  {m m' : FoldedBuckets}

/-- Entries of finer granularities fold into the buckets of their starts and groups. -/
theorem gathers_foldInto (hm : m.Gathers d l g code s)
    (hentries : Parts (fun e t => ∃ f : Granularity, f.rank ≤ g.rank ∧
      Summarizes d l f e.2.toEvent t) entries t)
    (hkey : ∀ e ∈ entries, e.1.getD "" = groupKey l.groupCount e.2.toEvent)
    (h : foldInto code g entries m = .ok m') :
    m'.Gathers d l g code (s + t) ∧
      ∀ o ∈ m'.map (·.1), o ∈ m.map (·.1) ∨
        ∃ e ∈ entries, g.startTime e.2.timestamp = .ok o := by
  induction entries generalizing m s t with
  | nil =>
      cases hentries
      cases h
      rw [add_zero]
      exact ⟨hm, fun o ho => .inl ho⟩
  | cons e rest ih =>
      obtain ⟨key, b⟩ := e
      obtain ⟨hhead, htail⟩ := List.forall_mem_cons.1 hkey
      cases hentries with
      | @cons _ _ t t' head tail =>
          obtain ⟨f, hrank, hrepresents, hplaced⟩ := head
          unfold foldInto at h
          cases hstart : g.startTime b.timestamp with
          | error cause =>
              rw [hstart] at h
              cases h
          | ok start =>
              rw [hstart] at h
              dsimp only at h
              replace hhead : key.getD "" = groupKey l.groupCount b.toEvent := hhead
              rw [hhead] at h
              rcases hupdate : m.update start (groupKey l.groupCount b.toEvent) (.empty code start)
                (Bucket.process code b.toEvent) with ⟨e | _, m₁⟩
              · rw [hupdate] at h
                cases h
              · rw [hupdate] at h
                have hgathers := hm.update hrepresents
                  (fun x hx => (Granularity.startTime_startTime hrank (hplaced x hx)).1 hstart)
                  hupdate
                obtain ⟨hall, hstarts⟩ := ih hgathers tail htail h
                rw [← add_assoc]
                refine ⟨hall, fun o ho => ?_⟩
                rcases hstarts o ho with ho | ⟨e, he, heq⟩
                · rcases (FoldedBuckets.mem_starts_update hupdate o).1 ho with rfl | ho
                  · exact .inr ⟨(key, b), List.mem_cons_self, hstart⟩
                  · exact .inl ho
                · exact .inr ⟨e, List.mem_cons_of_mem _ he, heq⟩

end Retrieval

/-- The buckets that a lookup folds from the memory represent the events in memory, and start after
all rows of the table. -/
theorem Reading.folded {g : Granularity} {table : Holder} {entries : List (Option String × Bucket)}
    {stored kept : Multiset Placed} {code : FoldCode} {m : FoldedBuckets}
    (h : Reading d l g table entries stored kept)
    (hfold : Retrieval.foldInto code g entries [] = .ok m) :
    m.Gathers d l g code kept ∧ ∀ row ∈ table.rows, ∀ o ∈ m.map (·.1), row.timestamp < o := by
  obtain ⟨hgathers, hstarts⟩ :=
    Retrieval.gathers_foldInto FoldedBuckets.gathers_nil h.memory h.key hfold
  rw [zero_add] at hgathers
  refine ⟨hgathers, fun row hrow o ho => ?_⟩
  rcases hstarts o ho with ho | ⟨e, he, hstart⟩
  · cases ho
  · exact h.below e he o hstart row hrow

end EventQuery
