import EventQuery.Proofs.Rollup.Slots

/-!
The four shapes of the memory of a level keep the same map of buckets by start and group. Opening a
bucket drops the oldest starts beyond the size of the buffer, and folding a row updates the map.
-/

namespace EventQuery.BucketStore

section Updates

variable {α : Type} {test : α → Bool} {f : α → Except EvalError Unit × α} {a : α}
  {pre post : List α}

theorem updateFirst_eq (hpre : ∀ x ∈ pre, test x = false) (ha : test a = true) :
    updateFirst test f (pre ++ a :: post) = ((f a).1, pre ++ (f a).2 :: post) := by
  induction pre with
  | nil => simp [updateFirst, ha]
  | cons x rest ih =>
      rw [List.forall_mem_cons] at hpre
      simp [updateFirst, hpre.1, ih hpre.2]

theorem updateLast_eq (ha : test a = true) (hpost : ∀ x ∈ post, test x = false) :
    updateLast test f (pre ++ a :: post) = ((f a).1, pre ++ (f a).2 :: post) := by
  have hreverse : (pre ++ a :: post).reverse = post.reverse ++ a :: pre.reverse := by simp
  simp [updateLast, hreverse, updateFirst_eq (fun x hx => hpost x (List.mem_reverse.1 hx)) ha]

end Updates

/-- The memory of a map of buckets. -/
def ofSlots (fold : FoldCode) (isGrouped : Bool) (bufferSize : Nat) (m : FoldedBuckets) :
    BucketStore :=
  match isGrouped, bufferSize with
  | false, 0 => .single (m.buckets.getLast?.getD (.empty fold (-1)))
  | true, 0 => .groups (m.flatMap (·.2))
  | false, _ + 1 => .buffered m.buckets
  | true, _ + 1 => .bufferedGroups (m.map (·.2))

/-- A map that a memory can keep: it has room for the starts, which ascend, and without groups there
is one bucket of each start. -/
structure Fits (isGrouped : Bool) (bufferSize : Nat) (m : FoldedBuckets) : Prop where
  length_le : m.length ≤ bufferSize + 1
  sorted : (m.map (·.1)).Pairwise (· < ·)
  nonempty : ∀ p ∈ m, p.2 ≠ []
  timestamp : ∀ p ∈ m, ∀ q ∈ p.2, q.2.timestamp = p.1
  ungrouped : isGrouped = false → ∀ p ∈ m, ∃ b, p.2 = [("", b)]

variable {fold : FoldCode} {isGrouped : Bool} {bufferSize : Nat} {m : FoldedBuckets} {start : Int64}
  {key : String} {row : Event}

theorem empty_eq_ofSlots :
    empty fold isGrouped bufferSize = ofSlots fold isGrouped bufferSize [] := by
  cases isGrouped <;> cases bufferSize <;> rfl

namespace Fits

theorem start_eq (h : Fits isGrouped bufferSize m) {p : Int64 × Groups} (hp : p ∈ m) :
    Groups.start p.2 = some p.1 := by
  have hne := h.nonempty p hp
  rcases hgs : p.2 with _ | ⟨q, rest⟩
  · exact absurd hgs hne
  · have ht := h.timestamp p hp q (by rw [hgs]; exact List.mem_cons_self)
    simp [Groups.start, ht]

/-- The open bucket is the one that starts last. -/
theorem lt_of_append {pre post : FoldedBuckets} {p : Int64 × Groups}
    (h : Fits isGrouped bufferSize (pre ++ p :: post)) :
    (∀ q ∈ pre, q.1 < p.1) ∧ ∀ q ∈ post, p.1 < q.1 := by
  have hsorted := List.pairwise_map.1 h.sorted
  rw [List.pairwise_append, List.pairwise_cons] at hsorted
  exact ⟨fun q hq => hsorted.2.2 q hq p List.mem_cons_self, hsorted.2.1.1⟩

section Split

variable {pre post : FoldedBuckets} {p : Int64 × Groups}

theorem tail_eq_nil (h : Fits isGrouped 0 (p :: post)) : post = [] := by simpa using h.length_le

/-- A memory without a buffer has room for one start. -/
theorem alone (h : Fits isGrouped 0 (pre ++ p :: post)) : pre = [] ∧ post = [] := by
  have hlength := h.length_le
  rw [List.length_append, List.length_cons] at hlength
  exact ⟨List.eq_nil_of_length_eq_zero (by omega), List.eq_nil_of_length_eq_zero (by omega)⟩

theorem timestamp_ne_of_later (h : Fits isGrouped bufferSize (pre ++ p :: post)) :
    ∀ b ∈ FoldedBuckets.buckets post, b.timestamp ≠ p.1 := by
  intro b hb
  obtain ⟨q, hq, hb⟩ := List.mem_flatMap.1 hb
  obtain ⟨r, hr, rfl⟩ := List.mem_map.1 hb
  rw [h.timestamp q (by simp [hq]) r hr]
  exact (Int64.ne_of_lt (h.lt_of_append.2 q hq)).symm

theorem start_ne_of_earlier (h : Fits isGrouped bufferSize (pre ++ p :: post)) :
    ∀ gs ∈ pre.map (·.2), Groups.start gs ≠ some p.1 := by
  intro gs hgs
  obtain ⟨q, hq, rfl⟩ := List.mem_map.1 hgs
  rw [h.start_eq (by simp [hq]), Ne, Option.some.injEq]
  exact Int64.ne_of_lt (h.lt_of_append.1 q hq)

end Split

end Fits

/-- Folding a row into a bucket that is there. -/
theorem fold_ofSlots {pre post : FoldedBuckets} {gs : Groups}
    (h : Fits isGrouped bufferSize (pre ++ (start, gs) :: post))
    (hkey : isGrouped = false → key = "") :
    (ofSlots fold isGrouped bufferSize (pre ++ (start, gs) :: post)).fold fold start
      post.isEmpty key row =
      ((FoldedBuckets.update start key (.empty fold start) (Bucket.process fold row)
        (pre ++ (start, gs) :: post)).1,
        ofSlots fold isGrouped bufferSize
          (FoldedBuckets.update start key (.empty fold start) (Bucket.process fold row)
            (pre ++ (start, gs) :: post)).2) := by
  rw [FoldedBuckets.update_of_mem h.lt_of_append.1]
  cases isGrouped with
  | false =>
      obtain ⟨b, hb⟩ := h.ungrouped rfl (start, gs) (by simp)
      replace hb : gs = [("", b)] := hb
      have hstart := h.timestamp (start, gs) (by simp) ("", b) (by simp [hb])
      subst hb
      rw [hkey rfl]
      cases bufferSize with
      | zero =>
          obtain ⟨rfl, rfl⟩ := h.alone
          rfl
      | succ n =>
          have hbuckets (b : Bucket) : FoldedBuckets.buckets (pre ++ (start, [("", b)]) :: post) =
              FoldedBuckets.buckets pre ++ b :: FoldedBuckets.buckets post := by
            simp [FoldedBuckets.buckets]
          -- Searched from the end, the bucket is the first of its start.
          have hlater := h.timestamp_ne_of_later
          simp only [ofSlots, hbuckets, BucketStore.fold]
          rw [updateLast_eq (by simpa using hstart) fun b hb => decide_eq_false (hlater b hb)]
          simp [Groups.update, hbuckets]
  | true =>
      cases bufferSize with
      | zero =>
          obtain ⟨rfl, rfl⟩ := h.alone
          simp [ofSlots, BucketStore.fold]
      | succ n =>
          simp only [ofSlots, List.map_append, List.map_cons, BucketStore.fold]
          -- The open groups are the last ones, and others are found by their start.
          cases post with
          | nil =>
              rw [List.isEmpty_nil, if_pos rfl, List.map_nil, updateLast_eq rfl (by simp)]
          | cons p post =>
              have hearlier := h.start_ne_of_earlier
              have hhere := @Fits.start_eq _ _ _ h (start, gs) (by simp)
              rw [List.isEmpty_cons, if_neg Bool.false_ne_true,
                updateFirst_eq (fun gs hgs => decide_eq_false (hearlier gs hgs))
                  (by simpa using hhere)]

theorem length_buckets (h : ∀ p ∈ m, ∃ b, p.2 = [("", b)]) : m.buckets.length = m.length := by
  induction m with
  | nil => rfl
  | cons p rest ih =>
      obtain ⟨⟨b, hb⟩, hrest⟩ := List.forall_mem_cons.1 h
      simp only [FoldedBuckets.buckets, List.flatMap_cons, List.length_append, hb,
        List.length_cons] at ih ⊢
      rw [ih hrest]
      simp [Nat.add_comm]

section Opening

variable {dropped kept : FoldedBuckets}

/-- The memory of a map of buckets, and of a bucket that has been opened but is still empty. -/
def opened (fold : FoldCode) (isGrouped : Bool) (bufferSize : Nat) (kept : FoldedBuckets)
    (start : Int64) : BucketStore :=
  match isGrouped, bufferSize with
  | false, 0 => .single (.empty fold start)
  | true, 0 => .groups []
  | false, _ + 1 => .buffered (kept.buckets ++ [.empty fold start])
  | true, _ + 1 => .bufferedGroups (kept.map (·.2) ++ [[]])

/-- Without a buffer nothing is kept when a bucket is opened. -/
theorem kept_eq_nil (hroom : dropped.length = (dropped ++ kept).length - bufferSize)
    (hzero : bufferSize = 0) : kept = [] := by
  rw [List.length_append] at hroom
  exact List.eq_nil_of_length_eq_zero (by omega)

variable (fold start) in
/-- Opening a bucket drops the oldest starts, with the rows of their buckets. -/
theorem advance_ofSlots (h : Fits isGrouped bufferSize (dropped ++ kept))
    (hroom : dropped.length = (dropped ++ kept).length - bufferSize) :
    (ofSlots fold isGrouped bufferSize (dropped ++ kept)).advance fold bufferSize start =
      (dropped.flatMap fun p => Groups.rows p.2, opened fold isGrouped bufferSize kept start) := by
  cases bufferSize with
  | zero =>
      obtain rfl := kept_eq_nil hroom rfl
      rw [List.append_nil] at h ⊢
      rcases dropped with _ | ⟨p, rest⟩
      · cases isGrouped <;> rfl
      · obtain rfl := h.tail_eq_nil
        cases isGrouped with
        | false =>
            obtain ⟨b, hb⟩ := h.ungrouped rfl p (by simp)
            cases hprocessed : b.processed <;>
              simp [ofSlots, opened, advance, FoldedBuckets.buckets, Groups.rows, hb, hprocessed]
        | true => simp [ofSlots, opened, advance]
  | succ n =>
      have hlength := h.length_le
      rw [List.length_append] at hlength hroom
      cases isGrouped with
      | false =>
          have hungrouped := h.ungrouped rfl
          have hbuckets : FoldedBuckets.buckets (dropped ++ kept) ++ [Bucket.empty fold start] =
              dropped.buckets ++ (kept.buckets ++ [.empty fold start]) := by
            simp [FoldedBuckets.buckets]
          have hdropped := length_buckets fun p hp => hungrouped p (List.mem_append_left kept hp)
          have hkept := length_buckets fun p hp => hungrouped p (List.mem_append_right dropped hp)
          have hexcess : (FoldedBuckets.buckets (dropped ++ kept) ++
              [Bucket.empty fold start]).length - (n + 1 + 1) = dropped.buckets.length := by
            rw [hbuckets, List.length_append, List.length_append, hdropped, hkept,
              List.length_singleton]
            omega
          simp only [ofSlots, opened, advance, hexcess]
          rw [hbuckets, List.take_left, List.drop_left, FoldedBuckets.rows_buckets]
      | true =>
          have hexcess : ((dropped ++ kept).map Prod.snd ++ [[]]).length - (n + 1 + 1) =
              (dropped.map Prod.snd).length := by
            simp
            omega
          simp only [ofSlots, opened, advance, hexcess]
          rw [List.map_append, List.append_assoc, List.take_left, List.drop_left,
            List.flatMap_map]

variable (fold row) in
/-- The first row of an opened bucket adds its start to the map. -/
theorem fold_opened (hkept : bufferSize = 0 → kept = []) (hnew : ∀ p ∈ kept, p.1 < start)
    (hkey : isGrouped = false → key = "") :
    (opened fold isGrouped bufferSize kept start).fold fold start true key row =
      ((FoldedBuckets.update start key (.empty fold start) (Bucket.process fold row) kept).1,
        ofSlots fold isGrouped bufferSize
          (FoldedBuckets.update start key (.empty fold start)
            (Bucket.process fold row) kept).2) := by
  rw [FoldedBuckets.update_of_forall_lt hnew]
  cases bufferSize with
  | zero =>
      obtain rfl := hkept rfl
      cases isGrouped with
      | false =>
          rw [hkey rfl]
          rfl
      | true => simp [opened, BucketStore.fold, ofSlots]
  | succ n =>
      cases isGrouped with
      | false =>
          rw [hkey rfl]
          simp only [opened, BucketStore.fold]
          rw [updateLast_eq (by simp [Bucket.empty]) (by simp)]
          simp [ofSlots, Groups.update, FoldedBuckets.buckets]
      | true =>
          simp only [opened, BucketStore.fold, if_pos]
          rw [updateLast_eq rfl (by simp)]
          simp [ofSlots]

end Opening

/-- A row finds a bucket of its start in memory if the start is kept. -/
theorem holds_ofSlots {p : Int64 × Groups} (h : Fits isGrouped bufferSize m)
    (hlast : m.getLast? = some p) :
    start = p.1 ∨ (ofSlots fold isGrouped bufferSize m).holds start = true ↔
      start ∈ m.map (·.1) := by
  have hmem := List.mem_of_getLast? hlast
  cases bufferSize with
  | zero =>
      obtain rfl : m = [p] := by
        rcases m with _ | ⟨q, rest⟩
        · cases hlast
        · obtain rfl := h.tail_eq_nil
          simpa using hlast
      cases isGrouped <;> simp [ofSlots, holds]
  | succ n =>
      have hholds : (ofSlots fold isGrouped (n + 1) m).holds start = true ↔
          start ∈ m.map (·.1) := by
        cases isGrouped with
        | false =>
            simp only [ofSlots, holds, FoldedBuckets.buckets, List.any_flatMap, List.any_map,
              List.any_eq_true, Function.comp_apply, decide_eq_true_eq, List.mem_map]
            refine exists_congr fun q => and_congr_right fun hq => ?_
            obtain ⟨b, hb⟩ := h.ungrouped rfl q hq
            have htime : b.timestamp = q.1 := h.timestamp q hq ("", b) (by simp [hb])
            simp [hb, htime]
        | true =>
            simp only [ofSlots, holds, List.any_map, List.any_eq_true, Function.comp_apply,
              decide_eq_true_eq, List.mem_map]
            refine exists_congr fun q => and_congr_right fun hq => ?_
            rw [h.start_eq hq, Option.some.injEq]
      rw [hholds]
      refine ⟨fun hor => hor.elim (fun heq => ?_) id, .inr⟩
      exact heq ▸ List.mem_map_of_mem hmem

variable (fold) in
/-- The buckets in memory that hold data are those of the map, each with its group. -/
theorem entries_ofSlots (h : Fits isGrouped bufferSize m)
    (hprocessed : ∀ b ∈ m.buckets, b.processed = true) :
    (ofSlots fold isGrouped bufferSize m).entries.map (·.2) = m.buckets ∧
      ∀ e ∈ (ofSlots fold isGrouped bufferSize m).entries, ∃ p ∈ m, (e.1.getD "", e.2) ∈ p.2 := by
  have hentries {store : BucketStore} (hstore : store.buckets.map (·.2) = m.buckets) :
      store.entries = store.buckets := by
    refine List.filter_eq_self.2 fun e he => hprocessed e.2 ?_
    rw [← hstore]
    exact List.mem_map_of_mem he
  have hgrouped : (m.flatMap (·.2)).map (·.2) = m.buckets := by
    simp [FoldedBuckets.buckets, List.map_flatMap]
  cases isGrouped with
  | false =>
      -- Without groups the key is empty.
      have hkeyless {b : Bucket} (hb : b ∈ m.buckets) : ∃ p ∈ m, ("", b) ∈ p.2 := by
        obtain ⟨p, hp, hb⟩ := List.mem_flatMap.1 hb
        obtain ⟨b', hb'⟩ := h.ungrouped rfl p hp
        replace hb : b ∈ p.2.map (·.2) := hb
        rw [hb', List.map_singleton, List.mem_singleton] at hb
        exact ⟨p, hp, by simp [hb', hb]⟩
      cases bufferSize with
      | zero =>
          rcases m with _ | ⟨p, rest⟩
          · simp [ofSlots, entries, buckets, FoldedBuckets.buckets, Bucket.empty]
          · obtain rfl := h.tail_eq_nil
            obtain ⟨b, hb⟩ := h.ungrouped rfl p (by simp)
            have hstore : (ofSlots fold false 0 [p]).buckets = [(none, b)] := by
              simp [ofSlots, buckets, FoldedBuckets.buckets, hb]
            have hbuckets : FoldedBuckets.buckets [p] = [b] := by simp [FoldedBuckets.buckets, hb]
            rw [hentries (by rw [hstore, hbuckets]; rfl), hstore]
            exact ⟨hbuckets.symm, by simp [hb]⟩
      | succ n =>
          have hstore : (ofSlots fold false (n + 1) m).buckets.map (·.2) = m.buckets := by
            simp [ofSlots, buckets]
          rw [hentries hstore]
          refine ⟨hstore, fun e he => ?_⟩
          obtain ⟨b, hb, rfl⟩ := List.mem_map.1 he
          exact hkeyless hb
  | true =>
      have hstore : (ofSlots fold true bufferSize m).buckets =
          (m.flatMap (·.2)).map fun q => (some q.1, q.2) := by
        cases bufferSize <;> rfl
      have hbuckets : (ofSlots fold true bufferSize m).buckets.map (·.2) = m.buckets := by
        rw [hstore, List.map_map]
        exact hgrouped
      rw [hentries hbuckets]
      refine ⟨hbuckets, fun e he => ?_⟩
      rw [hstore] at he
      obtain ⟨q, hq, rfl⟩ := List.mem_map.1 he
      obtain ⟨p, hp, hq⟩ := List.mem_flatMap.1 hq
      exact ⟨p, hp, hq⟩

end EventQuery.BucketStore
