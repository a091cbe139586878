import EventQuery.Proofs.Rollup.Store

/-!
What one row does to the memory of a level. It opens a bucket behind all others, and the oldest ones
beyond the size of the buffer leave the memory; or it finds its own bucket there; or it is late and
goes to the open bucket. In the bucket it changes the entry of its group, and nothing else.
-/

namespace EventQuery

variable {isGrouped : Bool} {n : Nat} {fold : FoldCode} {row : Event} {start : Int64} {key : String}

section Leaving

variable {dropped kept : FoldedBuckets}

/-- Buckets that leave the memory start before those that stay and the one that is opened. -/
theorem FoldedBuckets.lt_of_dropped (hsorted : ((dropped ++ kept).map (·.1)).Pairwise (· < ·))
    (hnew : ∀ o ∈ (dropped ++ kept).map (·.1), o < start) :
    ∀ s ∈ dropped.map (·.1), ∀ o ∈ kept.map (·.1) ++ [start], s < o := by
  rw [List.map_append, List.pairwise_append] at hsorted
  rw [List.map_append] at hnew
  intro s hs o ho
  rcases List.mem_append.1 ho with ho | ho
  · exact hsorted.2.2 s hs o ho
  · rw [List.mem_singleton.1 ho]
    exact hnew s (List.mem_append_left _ hs)

/-- What starts before the buckets in memory, if there are any, starts before the one that is
opened. -/
theorem FoldedBuckets.lt_of_below {s : Int64} (hne : dropped ++ kept ≠ [])
    (hbelow : ∀ o ∈ (dropped ++ kept).map (·.1), s < o)
    (hnew : ∀ o ∈ (dropped ++ kept).map (·.1), o < start) :
    ∀ o ∈ kept.map (·.1) ++ [start], s < o := by
  intro o ho
  rcases List.mem_append.1 ho with ho | ho
  · rw [List.map_append] at hbelow
    exact hbelow o (List.mem_append_right _ ho)
  · rw [List.mem_singleton.1 ho]
    obtain ⟨p, hp⟩ := List.exists_mem_of_ne_nil _ hne
    have hmem := List.mem_map_of_mem (f := (·.1)) hp
    exact Int64.lt_trans (hbelow p.1 hmem) (hnew p.1 hmem)

end Leaving

namespace BucketStore.Fits

variable {m m' : FoldedBuckets} {result : Except EvalError Unit}

/-- Some of the buckets. -/
theorem sublist (h : Fits isGrouped n m) (hsub : m'.Sublist m) : Fits isGrouped n m' where
  length_le := Nat.le_trans hsub.length_le h.length_le
  sorted := h.sorted.sublist (hsub.map _)
  nonempty p hp := h.nonempty p (hsub.subset hp)
  timestamp p hp := h.timestamp p (hsub.subset hp)
  ungrouped hgrouped p hp := h.ungrouped hgrouped p (hsub.subset hp)

/-- A memory has room for the map after a row as long as it has room for the starts. -/
theorem update (h : Fits isGrouped n m) (hkey : isGrouped = false → key = "")
    (hupdate : FoldedBuckets.update start key (.empty fold start) (Bucket.process fold row) m =
      (result, m')) (hroom : m'.length ≤ n + 1) : Fits isGrouped n m' := by
  have hempty : (Bucket.empty fold start).timestamp = start := rfl
  refine ⟨hroom, FoldedBuckets.sorted_update h.sorted hupdate,
    FoldedBuckets.nonempty_update h.nonempty hupdate,
    FoldedBuckets.timestamp_update h.timestamp hempty (fun _ => rfl) hupdate,
    fun hgrouped p hp => ?_⟩
  rcases FoldedBuckets.mem_update hupdate p hp with hp | ⟨gs, hgs, rfl⟩
  · exact h.ungrouped hgrouped p hp
  · rw [hkey hgrouped]
    rcases hgs with rfl | hgs
    · exact ⟨_, rfl⟩
    · obtain ⟨b, hb⟩ := h.ungrouped hgrouped _ hgs
      replace hb : gs = [("", b)] := hb
      exact ⟨_, by rw [hb]; rfl⟩

end BucketStore.Fits

namespace Level

/-- A row opens its bucket, or goes to a bucket that is there. -/
theorem target_cases (lv : Level) (start : Int64) :
    lv.target start = (start, lv.advance start) ∨
      ∃ o, lv.openStart = some o ∧
        (lv.target start = (start, [], lv) ∨ lv.target start = (o, [], lv)) := by
  unfold target
  cases hopen : lv.openStart with
  | none => exact .inl rfl
  | some o =>
      dsimp only
      split
      · exact .inl rfl
      · refine .inr ⟨o, rfl, ?_⟩
        split
        · exact .inl rfl
        · exact .inr rfl

/-- Without groups all rows have the empty key. -/
theorem keyOf_ungrouped {l : RollupLayout} {lv : Level} (hcount : lv.groupCount = l.groupCount)
    (hgrouped : l.isGrouped = false) (row : Event) : lv.keyOf row = "" := by
  have hzero : l.groupCount = 0 := by simpa [RollupLayout.isGrouped] using hgrouped
  rw [keyOf, hcount, hzero, groupKey_zero]

/-- The memory of a level is a map of buckets by start and group, and the last start is open. -/
structure Holds (lv : Level) (isGrouped : Bool) (m : FoldedBuckets) : Prop where
  store : lv.store = .ofSlots lv.fold isGrouped lv.bufferSize m
  openStart : lv.openStart = (m.map (·.1)).getLast?
  fits : BucketStore.Fits isGrouped lv.bufferSize m

/-- The bucket that a row of a start goes to, and the buckets that leave the memory for it and that
stay. -/
inductive Goes (lv : Level) (m : FoldedBuckets) (start : Int64) :
    Int64 → FoldedBuckets → FoldedBuckets → Prop
  | opens {dropped kept : FoldedBuckets} (newer : ∀ o ∈ m.map (·.1), o < start)
      (split : m = dropped ++ kept) (room : dropped.length = m.length - lv.bufferSize) :
      Goes lv m start start dropped kept
  | stays {target : Int64} (held : target ∈ m.map (·.1))
      (late : target ≠ start → lv.openStart = some target ∧ start < target ∧
        start ∉ m.map (·.1)) :
      Goes lv m start target [] m

variable {lv lv' : Level} {m m' : FoldedBuckets} {target : Int64} {flushed : List Event}

/-- The open bucket is the newest one in memory. -/
theorem Holds.le_opened (h : lv.Holds isGrouped m) {opened : Int64}
    (hopen : lv.openStart = some opened) :
    opened ∈ m.map (·.1) ∧ ∀ o ∈ m.map (·.1), o ≤ opened := by
  rw [h.openStart] at hopen
  refine ⟨List.mem_of_getLast? hopen, fun o ho => ?_⟩
  have hsorted := h.fits.sorted
  rw [← List.dropLast_append_getLast? opened hopen] at hsorted ho
  rcases List.mem_append.1 ho with ho | ho
  · exact Int64.le_of_lt ((List.pairwise_append.1 hsorted).2.2 o ho opened (by simp))
  · rw [List.mem_singleton.1 ho]
    exact Int64.le_refl _

theorem Holds.eq_nil (h : lv.Holds isGrouped m) (hopen : lv.openStart = none) : m = [] := by
  rw [h.openStart, List.getLast?_eq_none_iff] at hopen
  exact List.map_eq_nil_iff.1 hopen

/-- A row finds its bucket in memory if the bucket is open or waits in the buffer. -/
theorem Holds.holds_iff (h : lv.Holds isGrouped m) {opened : Int64}
    (hopen : lv.openStart = some opened) (start : Int64) :
    start = opened ∨ lv.store.holds start = true ↔ start ∈ m.map (·.1) := by
  obtain ⟨p, hlast, rfl⟩ : ∃ p, m.getLast? = some p ∧ p.1 = opened := by
    rw [h.openStart, List.getLast?_map] at hopen
    simpa using hopen
  rw [h.store]
  exact BucketStore.holds_ofSlots h.fits hlast

/-- A row opens a bucket behind all others, or it goes to one in memory. -/
theorem Holds.target_cases (h : lv.Holds isGrouped m) (start : Int64) :
    (∀ o ∈ m.map (·.1), o < start) ∧ lv.target start = (start, lv.advance start) ∨
      ∃ target ∈ m.map (·.1), lv.target start = (target, [], lv) ∧
        (target ≠ start → lv.openStart = some target ∧ start < target ∧
          start ∉ m.map (·.1)) := by
  unfold target
  cases hopen : lv.openStart with
  | none => exact .inl ⟨by simp [h.eq_nil hopen], rfl⟩
  | some opened =>
      obtain ⟨hmem, hle⟩ := h.le_opened hopen
      have hholds := h.holds_iff hopen start
      dsimp only
      split
      · rename_i hlt
        exact .inl ⟨fun o ho => Int64.lt_of_le_of_lt (hle o ho) hlt, rfl⟩
      · rename_i hnot
        right
        split
        · rename_i hheld
          exact ⟨start, hholds.1 (by simpa using hheld), rfl, fun hne => absurd rfl hne⟩
        · rename_i hgone
          rw [Bool.or_eq_true, decide_eq_true_eq, hholds] at hgone
          exact ⟨opened, hmem, rfl, fun hne => ⟨rfl,
            Int64.lt_of_le_of_ne (Int64.not_lt.1 hnot) hne.symm, hgone⟩⟩

/-- A bucket in memory, between the older and the newer ones. -/
theorem Holds.exists_split (h : lv.Holds isGrouped m) (hmem : target ∈ m.map (·.1)) :
    ∃ pre gs post, m = pre ++ (target, gs) :: post ∧ ∀ p ∈ pre, p.1 < target := by
  obtain ⟨gs, hp⟩ : ∃ gs, (target, gs) ∈ m := by simpa using hmem
  obtain ⟨pre, post, rfl⟩ := List.append_of_mem hp
  exact ⟨pre, gs, post, rfl, h.fits.lt_of_append.1⟩

theorem Holds.map_starts_update (h : lv.Holds isGrouped m) (hmem : target ∈ m.map (·.1))
    {result : Except EvalError Unit} {fresh : Bucket} {f : Bucket → Except EvalError Unit × Bucket}
    (hupdate : FoldedBuckets.update target key fresh f m = (result, m')) :
    m'.map (·.1) = m.map (·.1) := by
  obtain ⟨pre, gs, post, rfl, hpre⟩ := h.exists_split hmem
  exact FoldedBuckets.map_starts_update_of_mem hpre hupdate

/-- A row is folded into a bucket in memory. -/
theorem Holds.fold_eq (h : lv.Holds isGrouped m) (hmem : target ∈ m.map (·.1))
    (hkey : isGrouped = false → key = "") :
    lv.store.fold lv.fold target (lv.openStart = some target) key row =
      ((FoldedBuckets.update target key (.empty lv.fold target) (Bucket.process lv.fold row) m).1,
        .ofSlots lv.fold isGrouped lv.bufferSize
          (FoldedBuckets.update target key (.empty lv.fold target)
            (Bucket.process lv.fold row) m).2) := by
  obtain ⟨pre, gs, post, rfl, -⟩ := h.exists_split hmem
  have hopen : decide (lv.openStart = some target) = post.isEmpty := by
    rw [h.openStart]
    rcases post.eq_nil_or_concat' with rfl | ⟨post, q, rfl⟩
    · simp
    · have hlt : target < q.1 := h.fits.lt_of_append.2 q (by simp)
      have hlast : pre ++ (target, gs) :: (post ++ [q]) = pre ++ (target, gs) :: post ++ [q] := by
        simp
      rw [hlast, List.map_append, List.map_singleton, List.getLast?_concat]
      simp [(Int64.ne_of_lt hlt).symm]
  rw [hopen, h.store]
  exact BucketStore.fold_ofSlots h.fits hkey

/-- What a level does with a row that it takes in. -/
theorem Holds.ingest (h : lv.Holds isGrouped m) (hkey : isGrouped = false → lv.keyOf row = "")
    (hingest : lv.ingest row = (.ok flushed, lv')) :
    ∃ start target dropped kept m', lv.granularity.startTime row.timestamp = .ok start ∧
      lv.Goes m start target dropped kept ∧
      FoldedBuckets.update target (lv.keyOf row) (.empty lv.fold target)
        (Bucket.process lv.fold row) kept = (.ok (), m') ∧
      flushed = (dropped.flatMap fun p => Groups.rows p.2) ∧
      lv' = { lv with
        store := .ofSlots lv.fold isGrouped lv.bufferSize m'
        openStart := (m'.map (·.1)).getLast?
        table := (lv.table.addAll flushed).2 } := by
  unfold Level.ingest at hingest
  cases hstart : lv.granularity.startTime row.timestamp with
  | error e =>
      rw [hstart] at hingest
      cases hingest
  | ok start =>
      rw [hstart] at hingest
      dsimp only at hingest
      by_cases hcapacity : lv.hasCapacity = true
      case neg =>
        rw [if_neg hcapacity] at hingest
        cases hingest
      rw [if_pos hcapacity] at hingest
      rcases h.target_cases start with ⟨hnew, htarget⟩ | ⟨target, hmem, htarget, hlate⟩
      · -- The starts beyond the size of the buffer leave the memory.
        obtain ⟨dropped, kept, rfl, hroom⟩ : ∃ dropped kept, m = dropped ++ kept ∧
            dropped.length = (dropped ++ kept).length - lv.bufferSize :=
          ⟨m.take (m.length - lv.bufferSize), m.drop (m.length - lv.bufferSize),
            (List.take_append_drop _ _).symm, by simp⟩
        have hkept : ∀ p ∈ kept, p.1 < start := fun p hp =>
          hnew p.1 (List.mem_map_of_mem (List.mem_append_right _ hp))
        have hopened := BucketStore.advance_ofSlots lv.fold start h.fits hroom
        have hfirst :=
          BucketStore.fold_opened lv.fold row (BucketStore.kept_eq_nil hroom) hkept hkey
        rw [htarget, advance, h.store, hopened] at hingest
        dsimp only at hingest
        generalize BucketStore.opened lv.fold isGrouped lv.bufferSize kept start = opened
          at hingest hfirst
        have hkeyOf : Level.keyOf { lv with store := opened, openStart := some start } row =
            lv.keyOf row := rfl
        rw [decide_eq_true rfl, hkeyOf, hfirst] at hingest
        rcases hupdate : FoldedBuckets.update start (lv.keyOf row) (.empty lv.fold start)
          (Bucket.process lv.fold row) kept with ⟨result, m'⟩
        rw [hupdate] at hingest
        cases result with
        | error e => cases hingest
        | ok _ =>
            cases hingest
            refine ⟨start, start, dropped, kept, m', rfl, .opens hnew rfl hroom, hupdate, rfl, ?_⟩
            rw [FoldedBuckets.map_starts_update_of_forall_lt hkept hupdate, List.getLast?_concat]
      · rw [htarget] at hingest
        dsimp only at hingest
        rw [h.fold_eq hmem hkey] at hingest
        rcases hupdate : FoldedBuckets.update target (lv.keyOf row) (.empty lv.fold target)
          (Bucket.process lv.fold row) m with ⟨result, m'⟩
        rw [hupdate] at hingest
        cases result with
        | error e => cases hingest
        | ok _ =>
            cases hingest
            refine ⟨start, target, [], m, m', rfl, .stays hmem hlate, hupdate, rfl, ?_⟩
            rw [h.map_starts_update hmem hupdate, ← h.openStart]

end Level

end EventQuery
