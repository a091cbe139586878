import EventQuery.Proofs.Rollup.Represents
import EventQuery.Rollup.Retrieval

/-!
Buckets by start and group. A row that is folded into the bucket of its start and group changes the
events of this bucket alone. The four shapes of the memory of a level are all this map, with the
oldest starts dropped beyond the size of the buffer, and a lookup folds the memory of several levels
into one such map.
-/

namespace EventQuery

variable {d : RollupDefinition} {l : RollupLayout} {g : Granularity} {fold : FoldCode}
  {start : Int64} {key : String} {fresh b : Bucket} {f : Bucket → Except EvalError Unit × Bucket}
  {row : Event} {s t : Multiset Placed}

namespace Groups

variable {gs gs' : Groups} {result : Except EvalError Unit}

/-- The buckets of the groups of one start, and the events that they gather. -/
structure Gathers (d : RollupDefinition) (l : RollupLayout) (g : Granularity) (fold : FoldCode)
    (start : Int64) (gs : Groups) (s : Multiset Placed) : Prop where
  nodup : (gs.map (·.1)).Nodup
  parts : Parts (fun p => p.2.Gathers d l g fold start p.1) gs s

theorem gathers_nil : Gathers d l g fold start [] 0 := ⟨List.nodup_nil, .nil⟩

theorem update_ne_nil (h : update key fresh f gs = (result, gs')) : gs' ≠ [] := by
  cases gs with
  | nil =>
      cases h
      simp
  | cons p rest =>
      unfold update at h
      split at h <;> cases h <;> simp

/-- What every bucket keeps as it is updated holds of all groups. -/
theorem forall_update (inv : Bucket → Prop) (hfresh : inv (f fresh).2)
    (hf : ∀ b, inv b → inv (f b).2) (hgs : ∀ p ∈ gs, inv p.2)
    (h : update key fresh f gs = (result, gs')) : ∀ p ∈ gs', inv p.2 := by
  induction gs generalizing gs' with
  | nil =>
      cases h
      simpa using hfresh
  | cons p rest ih =>
      obtain ⟨hp, hrest⟩ := List.forall_mem_cons.1 hgs
      unfold update at h
      split at h
      · cases h
        exact List.forall_mem_cons.2 ⟨hf _ hp, hrest⟩
      · rcases hupdate : update key fresh f rest with ⟨result', rest'⟩
        rw [hupdate] at h
        cases h
        exact List.forall_mem_cons.2 ⟨hp, ih hrest hupdate⟩

theorem mem_keys_update (h : update key fresh f gs = (result, gs')) (k : String) :
    k ∈ gs'.map (·.1) ↔ k = key ∨ k ∈ gs.map (·.1) := by
  induction gs generalizing gs' with
  | nil =>
      cases h
      simp
  | cons p rest ih =>
      obtain ⟨k', b⟩ := p
      unfold update at h
      split at h
      · rename_i heq
        cases h
        simp [heq]
      · obtain ⟨result', rest', hrest⟩ : ∃ r rest', update key fresh f rest = (r, rest') :=
          ⟨_, _, rfl⟩
        rw [hrest] at h
        cases h
        simp [ih hrest, or_left_comm]

theorem Gathers.update (h : Gathers d l g fold start gs s) (hrow : Represents d l row t)
    (hplaced : ∀ x ∈ t, g.startTime x.1 = .ok start)
    (hupdate : Groups.update (groupKey l.groupCount row) (.empty fold start)
      (Bucket.process fold row) gs = (.ok (), gs')) :
    Gathers d l g fold start gs' (s + t) := by
  induction gs generalizing gs' s with
  | nil =>
      cases h.parts
      rcases hprocess : (Bucket.empty fold start).process fold row with ⟨result, b⟩
      simp only [Groups.update, hprocess] at hupdate
      cases hupdate
      refine ⟨by simp, ?_⟩
      rw [zero_add]
      exact .singleton (.first hrow hplaced hprocess)
  | cons p rest ih =>
      obtain ⟨k, b⟩ := p
      obtain ⟨hnodup, hparts⟩ := h
      cases hparts with
      | @cons _ _ s₁ s₂ head tail =>
          unfold Groups.update at hupdate
          split at hupdate
          · -- The row goes into this bucket.
            rename_i heq
            subst heq
            rcases hprocess : b.process fold row with ⟨result, b'⟩
            rw [hprocess] at hupdate
            cases hupdate
            refine ⟨hnodup, ?_⟩
            rw [add_right_comm]
            exact .cons (head.process hrow hplaced hprocess) tail
          · rename_i hne
            rcases hrest : Groups.update (groupKey l.groupCount row) (.empty fold start)
              (Bucket.process fold row) rest with ⟨result, rest'⟩
            rw [hrest] at hupdate
            cases hupdate
            rw [List.map_cons, List.nodup_cons] at hnodup
            obtain ⟨hnodup', hparts'⟩ := ih ⟨hnodup.2, tail⟩ hrest
            refine ⟨?_, ?_⟩
            · rw [List.map_cons, List.nodup_cons, mem_keys_update hrest]
              exact ⟨fun hmem => hmem.elim hne hnodup.1, hnodup'⟩
            · rw [add_assoc]
              exact .cons head hparts'

/-- The first row of a start. -/
theorem gathers_of_update_nil (hrow : Represents d l row t)
    (hplaced : ∀ x ∈ t, g.startTime x.1 = .ok start)
    (hupdate : Groups.update (groupKey l.groupCount row) (.empty fold start)
      (Bucket.process fold row) [] = (.ok (), gs')) :
    Gathers d l g fold start gs' t := by
  have h := gathers_nil.update hrow hplaced hupdate
  rwa [zero_add] at h

end Groups

namespace FoldedBuckets

variable {m m' : FoldedBuckets} {result : Except EvalError Unit}

/-- Buckets in ascending order of their starts, and the events that they gather. -/
structure Gathers (d : RollupDefinition) (l : RollupLayout) (g : Granularity) (fold : FoldCode)
    (m : FoldedBuckets) (s : Multiset Placed) : Prop where
  sorted : (m.map (·.1)).Pairwise (· < ·)
  nonempty : ∀ p ∈ m, p.2 ≠ []
  parts : Parts (fun p => Groups.Gathers d l g fold p.1 p.2) m s

theorem gathers_nil : Gathers d l g fold [] 0 := ⟨.nil, by simp, .nil⟩

theorem mem_starts_update (h : update start key fresh f m = (result, m')) (o : Int64) :
    o ∈ m'.map (·.1) ↔ o = start ∨ o ∈ m.map (·.1) := by
  induction m generalizing m' with
  | nil =>
      cases h
      simp
  | cons p rest ih =>
      obtain ⟨o', gs⟩ := p
      unfold update at h
      split at h
      · cases h
        simp
      · split at h
        · rename_i heq
          cases h
          simp [heq]
        · rcases hrest : update start key fresh f rest with ⟨result', rest'⟩
          rw [hrest] at h
          cases h
          simp [ih hrest, or_left_comm]

/-- An update changes the groups of one start. -/
theorem mem_update (hupdate : update start key fresh f m = (result, m')) :
    ∀ p ∈ m', p ∈ m ∨
      ∃ gs, (gs = [] ∨ (start, gs) ∈ m) ∧ p = (start, (Groups.update key fresh f gs).2) := by
  induction m generalizing m' with
  | nil =>
      cases hupdate
      simp [Groups.update]
  | cons q rest ih =>
      obtain ⟨s, gs⟩ := q
      intro p hp
      unfold update at hupdate
      split at hupdate
      · cases hupdate
        rcases List.mem_cons.1 hp with rfl | hp
        · exact .inr ⟨[], .inl rfl, rfl⟩
        · exact .inl hp
      · split at hupdate
        · rename_i heq
          subst heq
          cases hupdate
          rcases List.mem_cons.1 hp with rfl | hp
          · exact .inr ⟨gs, .inr List.mem_cons_self, rfl⟩
          · exact .inl (List.mem_cons_of_mem _ hp)
        · rcases htail : update start key fresh f rest with ⟨result', rest'⟩
          rw [htail] at hupdate
          cases hupdate
          rcases List.mem_cons.1 hp with rfl | hp
          · exact .inl List.mem_cons_self
          · rcases ih htail p hp with hp | ⟨gs', hgs', rfl⟩
            · exact .inl (List.mem_cons_of_mem _ hp)
            · exact .inr ⟨gs', hgs'.imp_right (List.mem_cons_of_mem _), rfl⟩

/-- An update keeps the starts in order. -/
theorem sorted_update (h : (m.map (·.1)).Pairwise (· < ·))
    (hupdate : update start key fresh f m = (result, m')) : (m'.map (·.1)).Pairwise (· < ·) := by
  induction m generalizing m' with
  | nil =>
      cases hupdate
      simp
  | cons q rest ih =>
      obtain ⟨s, gs⟩ := q
      obtain ⟨hlt, hsorted⟩ := List.pairwise_cons.1 h
      unfold update at hupdate
      split at hupdate
      · rename_i hbefore
        cases hupdate
        refine List.pairwise_cons.2 ⟨fun o ho => ?_, h⟩
        rcases List.mem_cons.1 ho with rfl | ho
        · exact hbefore
        · exact Int64.lt_trans hbefore (hlt o ho)
      · rename_i hle
        split at hupdate
        · cases hupdate
          exact h
        · rename_i hne
          rcases htail : update start key fresh f rest with ⟨result', rest'⟩
          rw [htail] at hupdate
          cases hupdate
          refine List.pairwise_cons.2 ⟨fun o ho => ?_, ih hsorted htail⟩
          rcases (mem_starts_update htail o).1 ho with rfl | ho
          · exact Int64.lt_of_le_of_ne (Int64.not_lt.1 hle) (Ne.symm hne)
          · exact hlt o ho

theorem nonempty_update (h : ∀ p ∈ m, p.2 ≠ [])
    (hupdate : update start key fresh f m = (result, m')) : ∀ p ∈ m', p.2 ≠ [] := by
  intro p hp
  rcases mem_update hupdate p hp with hp | ⟨gs, -, rfl⟩
  · exact h p hp
  · exact Groups.update_ne_nil rfl

theorem timestamp_update (h : ∀ p ∈ m, ∀ q ∈ p.2, q.2.timestamp = p.1)
    (hfresh : fresh.timestamp = start) (hf : ∀ b, (f b).2.timestamp = b.timestamp)
    (hupdate : update start key fresh f m = (result, m')) :
    ∀ p ∈ m', ∀ q ∈ p.2, q.2.timestamp = p.1 := by
  intro p hp
  rcases mem_update hupdate p hp with hp | ⟨gs, hgs, rfl⟩
  · exact h p hp
  · refine Groups.forall_update (·.timestamp = start) ((hf fresh).trans hfresh)
      (fun b hb => (hf b).trans hb) ?_ rfl
    rcases hgs with rfl | hgs
    · simp
    · exact h _ hgs

theorem parts_update (h : Parts (fun p => Groups.Gathers d l g fold p.1 p.2) m s)
    (hrow : Represents d l row t) (hplaced : ∀ x ∈ t, g.startTime x.1 = .ok start)
    (hupdate : FoldedBuckets.update start (groupKey l.groupCount row) (.empty fold start)
      (Bucket.process fold row) m = (.ok (), m')) :
    Parts (fun p => Groups.Gathers d l g fold p.1 p.2) m' (s + t) := by
  induction m generalizing m' s with
  | nil =>
      cases h
      rcases hgroups : Groups.update (groupKey l.groupCount row) (.empty fold start)
        (Bucket.process fold row) [] with ⟨result, gs⟩
      unfold FoldedBuckets.update at hupdate
      rw [hgroups] at hupdate
      cases hupdate
      exact (zero_add t).symm ▸ .singleton (Groups.gathers_of_update_nil hrow hplaced hgroups)
  | cons p rest ih =>
      obtain ⟨o, gs⟩ := p
      cases h with
      | @cons _ _ s₁ s₂ head tail =>
          unfold FoldedBuckets.update at hupdate
          split at hupdate
          · -- The start is new and comes first.
            rcases hgroups : Groups.update (groupKey l.groupCount row) (.empty fold start)
              (Bucket.process fold row) [] with ⟨result, gs'⟩
            rw [hgroups] at hupdate
            cases hupdate
            rw [add_comm]
            exact .cons (Groups.gathers_of_update_nil hrow hplaced hgroups) (.cons head tail)
          · split at hupdate
            · -- The start has buckets already.
              rename_i heq
              subst heq
              rcases hgroups : Groups.update (groupKey l.groupCount row) (.empty fold start)
                (Bucket.process fold row) gs with ⟨result, gs'⟩
              rw [hgroups] at hupdate
              cases hupdate
              rw [add_right_comm]
              exact .cons (head.update hrow hplaced hgroups) tail
            · rcases hrest : FoldedBuckets.update start (groupKey l.groupCount row)
                (.empty fold start) (Bucket.process fold row) rest with ⟨result, rest'⟩
              rw [hrest] at hupdate
              cases hupdate
              rw [add_assoc]
              exact .cons head (ih tail hrest)

theorem Gathers.update (h : Gathers d l g fold m s) (hrow : Represents d l row t)
    (hplaced : ∀ x ∈ t, g.startTime x.1 = .ok start)
    (hupdate : FoldedBuckets.update start (groupKey l.groupCount row) (.empty fold start)
      (Bucket.process fold row) m = (.ok (), m')) :
    Gathers d l g fold m' (s + t) :=
  ⟨sorted_update h.sorted hupdate, nonempty_update h.nonempty hupdate,
    parts_update h.parts hrow hplaced hupdate⟩

theorem Gathers.groups_of_mem (h : Gathers d l g fold m s) {p : Int64 × Groups} (hp : p ∈ m) :
    ∃ t, Groups.Gathers d l g fold p.1 p.2 t := by
  obtain ⟨t, -, ht⟩ := h.parts.exists_of_mem hp
  exact ⟨t, ht⟩

theorem Gathers.bucket_of_mem (h : Gathers d l g fold m s) {p : Int64 × Groups} (hp : p ∈ m)
    {q : String × Bucket} (hq : q ∈ p.2) : ∃ t, q.2.Gathers d l g fold p.1 q.1 t := by
  obtain ⟨u, hu⟩ := h.groups_of_mem hp
  obtain ⟨t, -, ht⟩ := hu.parts.exists_of_mem hq
  exact ⟨t, ht⟩

/-- The rows of the buckets represent the events that are gathered. -/
theorem Gathers.summarizes (h : Gathers d l g fold m s) (hl : l.Regular d)
    (hcodes : BaseCodes l.columns fold.code fold.memory.cells.length) :
    Parts (fun b => Summarizes d l g b.toEvent) m.buckets s := by
  refine Parts.flatMap (h.parts.imp fun p _ t ht => ?_)
  refine Parts.map (·.2) (ht.parts.imp fun q _ u hu => ?_)
  exact (hu.summarizes hl hcodes).1

/-- No two buckets have the same start and group. -/
theorem Gathers.nodup_labels (h : Gathers d l g fold m s) (hl : l.Regular d)
    (hcodes : BaseCodes l.columns fold.code fold.memory.cells.length) :
    (m.buckets.map fun b => (b.timestamp, groupKey l.groupCount b.toEvent)).Nodup := by
  have hlabels : m.buckets.map (fun b => (b.timestamp, groupKey l.groupCount b.toEvent)) =
      m.flatMap fun p => p.2.map fun q => (p.1, q.1) := by
    rw [buckets, List.map_flatMap]
    refine List.flatMap_congr fun p hp => ?_
    rw [List.map_map]
    refine List.map_congr_left fun q hq => ?_
    obtain ⟨t, ht⟩ := h.bucket_of_mem hp hq
    simp [ht.timestamp, (ht.summarizes hl hcodes).2]
  rw [hlabels, List.nodup_flatMap]
  refine ⟨fun p hp => ?_, (List.pairwise_map.1 h.sorted).imp fun {p q} hlt => ?_⟩
  · obtain ⟨t, ht⟩ := h.groups_of_mem hp
    have hnodup := ht.nodup.map (Prod.mk_right_injective p.1)
    simpa [Function.comp_def] using hnodup
  · rintro x hx hx'
    obtain ⟨_, -, rfl⟩ := List.mem_map.1 hx
    obtain ⟨_, -, heq⟩ := List.mem_map.1 hx'
    rw [(Prod.mk.inj heq).1] at hlt
    exact Int64.lt_irrefl hlt

theorem timestamp_mem_starts (htime : ∀ p ∈ m, ∀ q ∈ p.2, q.2.timestamp = p.1)
    {q : String × Bucket} (hq : q ∈ m.flatMap (·.2)) : q.2.timestamp ∈ m.map (·.1) := by
  obtain ⟨p, hp, hq⟩ := List.mem_flatMap.1 hq
  exact htime p hp q hq ▸ List.mem_map_of_mem hp

/-- Entries come in the order of their starts. -/
theorem ascending_entries (hsorted : (m.map (·.1)).Pairwise (· < ·))
    (htime : ∀ p ∈ m, ∀ q ∈ p.2, q.2.timestamp = p.1) :
    (m.flatMap (·.2)).Pairwise (·.2.timestamp ≤ ·.2.timestamp) := by
  rw [List.pairwise_flatMap]
  refine ⟨fun p hp => List.pairwise_of_forall_mem_list fun q hq q' hq' => ?_, ?_⟩
  · rw [htime p hp q hq, htime p hp q' hq']
    exact Int64.le_refl _
  · refine List.Pairwise.imp_of_mem (fun {p p'} hp hp' hlt q hq q' hq' => ?_)
      (List.pairwise_map.1 hsorted)
    rw [htime p hp q hq, htime p' hp' q' hq']
    exact Int64.le_of_lt hlt

theorem rows_buckets (m : FoldedBuckets) :
    (m.buckets.filter (·.processed)).map (·.toEvent) = m.flatMap fun p => Groups.rows p.2 := by
  simp [buckets, Groups.rows, List.filter_flatMap, List.map_flatMap, List.filter_map,
    Function.comp_def]

theorem update_append {pre : FoldedBuckets} (h : ∀ p ∈ pre, p.1 < start) :
    update start key fresh f (pre ++ m) =
      ((update start key fresh f m).1, pre ++ (update start key fresh f m).2) := by
  induction pre with
  | nil => rfl
  | cons p rest ih =>
      rw [List.forall_mem_cons] at h
      rw [List.cons_append, update, if_neg (Int64.not_lt.2 (Int64.le_of_lt h.1)),
        if_neg (Int64.ne_of_lt h.1).symm, ih h.2]
      rfl

/-- A start behind all others comes last. -/
theorem update_of_forall_lt (h : ∀ p ∈ m, p.1 < start) :
    update start key fresh f m =
      ((Groups.update key fresh f []).1, m ++ [(start, (Groups.update key fresh f []).2)]) := by
  rw [← List.append_nil m, update_append h, List.append_nil]
  rfl

/-- The buckets of a start that is there change in place. -/
theorem update_of_mem {pre post : FoldedBuckets} {gs : Groups} (h : ∀ p ∈ pre, p.1 < start) :
    update start key fresh f (pre ++ (start, gs) :: post) =
      ((Groups.update key fresh f gs).1,
        pre ++ (start, (Groups.update key fresh f gs).2) :: post) := by
  rw [update_append h]
  simp [update]

theorem map_starts_update_of_forall_lt (h : ∀ p ∈ m, p.1 < start)
    (hupdate : update start key fresh f m = (result, m')) :
    m'.map (·.1) = m.map (·.1) ++ [start] := by
  rw [update_of_forall_lt h] at hupdate
  rw [← (Prod.mk.inj hupdate).2, List.map_append, List.map_singleton]

theorem map_starts_update_of_mem {pre post : FoldedBuckets} {gs : Groups}
    (h : ∀ p ∈ pre, p.1 < start)
    (hupdate : update start key fresh f (pre ++ (start, gs) :: post) = (result, m')) :
    m'.map (·.1) = (pre ++ (start, gs) :: post).map (·.1) := by
  rw [update_of_mem h] at hupdate
  rw [← (Prod.mk.inj hupdate).2]
  simp

theorem Gathers.append_split {dropped kept : FoldedBuckets}
    (h : Gathers d l g fold (dropped ++ kept) s) :
    ∃ t u, Gathers d l g fold dropped t ∧ Gathers d l g fold kept u ∧ s = t + u := by
  obtain ⟨hsorted, hnonempty, hparts⟩ := h
  obtain ⟨t, u, ht, hu, rfl⟩ := hparts.split
  rw [List.map_append, List.pairwise_append] at hsorted
  rw [List.forall_mem_append] at hnonempty
  exact ⟨t, u, ⟨hsorted.1, hnonempty.1, ht⟩, ⟨hsorted.2.1, hnonempty.2, hu⟩, rfl⟩

theorem Gathers.processed (h : Gathers d l g fold m s) {b : Bucket} (hb : b ∈ m.buckets) :
    b.processed = true ∧ b.timestamp ∈ m.map (·.1) := by
  obtain ⟨p, hp, hb⟩ := List.mem_flatMap.1 hb
  obtain ⟨q, hq, rfl⟩ := List.mem_map.1 hb
  obtain ⟨t, ht⟩ := h.bucket_of_mem hp hq
  exact ⟨ht.processed, ht.timestamp ▸ List.mem_map_of_mem hp⟩

theorem Gathers.timestamp_of_row (h : Gathers d l g fold m s)
    (hrow : row ∈ m.buckets.map (·.toEvent)) : row.timestamp ∈ m.map (·.1) := by
  obtain ⟨b, hb, rfl⟩ := List.mem_map.1 hrow
  exact (h.processed hb).2

theorem Gathers.startTime_of_mem (h : Gathers d l g fold m s) {o : Int64} (ho : o ∈ m.map (·.1)) :
    g.startTime o = .ok o := by
  obtain ⟨p, hp, rfl⟩ := List.mem_map.1 ho
  obtain ⟨q, hq⟩ := List.exists_mem_of_ne_nil _ (h.nonempty p hp)
  obtain ⟨t, ht⟩ := h.bucket_of_mem hp hq
  exact ht.startTime_start

/-- All buckets give their rows. -/
theorem Gathers.rows_eq (h : Gathers d l g fold m s) :
    (m.flatMap fun p => Groups.rows p.2) = m.buckets.map (·.toEvent) := by
  rw [← rows_buckets, List.filter_eq_self.2 fun b hb => (h.processed hb).1]

theorem Gathers.ascending (h : Gathers d l g fold m s) :
    m.buckets.Pairwise (·.timestamp ≤ ·.timestamp) := by
  have hbuckets : m.buckets = (m.flatMap (·.2)).map (·.2) := List.map_flatMap.symm
  rw [hbuckets, List.pairwise_map]
  refine ascending_entries h.sorted fun p hp q hq => ?_
  obtain ⟨t, ht⟩ := h.bucket_of_mem hp hq
  exact ht.timestamp

end FoldedBuckets

end EventQuery
