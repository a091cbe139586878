import EventQuery.Proofs.Rollup.Opening

/-!
Rows filed by bucket and group. Folding a row changes one entry, or adds one, so every row is in the
one entry of its bucket and group, and an entry is what the rows of its bucket and group make when
they are folded in their order.
-/

namespace EventQuery

variable {fold : FoldCode} {n : Nat} {row : Event} {start : Int64} {key : String}

namespace Bucket

/-- A bucket with a further row, if the row can be folded. -/
def add (fold : FoldCode) (b : Bucket) (row : Event) : Except EvalError Bucket :=
  (b.process fold row).1.map fun _ => (b.process fold row).2

/-- The bucket that rows make, folded one after the other. -/
def ofRows (fold : FoldCode) (start : Int64) (rows : List Event) : Except EvalError Bucket :=
  rows.foldlM (add fold) (.empty fold start)

variable {b b' : Bucket} {rows : List Event}

theorem add_eq_ok : b.add fold row = .ok b' ↔ b.process fold row = (.ok (), b') := by
  rcases hprocess : b.process fold row with ⟨e | _, b''⟩ <;> simp [add, hprocess, Except.map]

theorem ofRows_concat :
    ofRows fold start (rows ++ [row]) = .ok b' ↔
      ∃ b, ofRows fold start rows = .ok b ∧ b.process fold row = (.ok (), b') := by
  simp only [ofRows, List.foldlM_append, Run.bind_eq_ok, List.foldlM_cons, List.foldlM_nil,
    ← add_eq_ok]
  simp [pure, Except.pure]

/-- A bucket that rows have been folded into keeps its start and holds data. -/
theorem timestamp_processed_of_ofRows (hne : rows ≠ []) (h : ofRows fold start rows = .ok b) :
    b.timestamp = start ∧ b.processed = true := by
  induction rows using List.reverseRecOn generalizing b with
  | nil => exact absurd rfl hne
  | append_singleton rows row ih =>
      obtain ⟨b₀, hb₀, hprocess⟩ := ofRows_concat.1 h
      obtain ⟨vs, m, -, rfl⟩ := process_eq_ok hprocess
      refine ⟨?_, rfl⟩
      rcases rows.eq_nil_or_concat' with rfl | ⟨_, _, rfl⟩
      · cases hb₀
        rfl
      · exact (ih (by simp) hb₀).1

/-- The columns of the group-by values are read from the row, each in its own place. -/
def Carries (fold : FoldCode) (n : Nat) : Prop :=
  ∀ i < n, ∃ type, fold.code[i]? = some (.read 0 (i + 1) type)

theorem runColumns_read {cs : List Code} {old vs : List Value} {m m' : Memory}
    (h : runColumns (.single row) cs old m = ((vs, .ok ()), m')) {i position : Nat}
    {type : AttributeType} (hcode : cs[i]? = some (.read 0 position type)) :
    vs[i]? = some (row.get position) := by
  induction cs generalizing old vs m i with
  | nil => cases hcode
  | cons c rest ih =>
      obtain ⟨v, vs, m₁, hrun, hrest, rfl⟩ := runColumns_cons h
      cases i with
      | zero =>
          cases hcode
          cases hrun
          rfl
      | succ i => exact ih hrest hcode

/-- A bucket has the key of the row folded last. -/
theorem Carries.groupKey_toEvent (h : Carries fold n)
    (hprocess : b.process fold row = (.ok (), b')) : groupKey n b'.toEvent = groupKey n row := by
  obtain ⟨vs, m, hrun, rfl⟩ := process_eq_ok hprocess
  refine groupKey_congr fun i hi => ?_
  obtain ⟨type, hcode⟩ := h i hi
  simp [toEvent, values, Event.current, Event.get, runColumns_read hrun hcode]

end Bucket

/-- The start of the bucket of an entry, and its group. -/
def entryLabel (q : String × Bucket) : Int64 × String := (q.2.timestamp, q.1)

/-- The rows that go to a bucket and group. -/
def rowsOf (n : Nat) (placed : List Placed) (label : Int64 × String) : List Event :=
  (placed.filter fun x => (x.1, groupKey n x.2) = label).map (·.2)

/-- Rows, each with the start of the bucket that it goes to, are folded into entries: each into the
one of its bucket and group, and each entry holds nothing else. -/
structure Files (fold : FoldCode) (n : Nat) (placed : List Placed)
    (entries : List (String × Bucket)) : Prop where
  nodup : (entries.map entryLabel).Nodup
  filed : ∀ x ∈ placed, (x.1, groupKey n x.2) ∈ entries.map entryLabel
  nonempty : ∀ q ∈ entries, rowsOf n placed (entryLabel q) ≠ []
  content : ∀ q ∈ entries,
    Bucket.ofRows fold q.2.timestamp (rowsOf n placed (entryLabel q)) = .ok q.2

/-- A row is folded into the entry of a bucket and group, or into a new one, and all others stay as
they are. -/
inductive Merges (fold : FoldCode) (row : Event) (start : Int64) (key : String) :
    List (String × Bucket) → List (String × Bucket) → Prop
  | first (pre post : List (String × Bucket)) {b : Bucket}
      (new : (start, key) ∉ (pre ++ post).map entryLabel)
      (folded : (Bucket.empty fold start).process fold row = (.ok (), b)) :
      Merges fold row start key (pre ++ post) (pre ++ (key, b) :: post)
  | further (pre post : List (String × Bucket)) {b b' : Bucket} (here : b.timestamp = start)
      (folded : b.process fold row = (.ok (), b')) :
      Merges fold row start key (pre ++ (key, b) :: post) (pre ++ (key, b') :: post)

variable {placed : List Placed} {entries entries' : List (String × Bucket)}

/-- Entries of other buckets have other labels. -/
theorem label_notMem (h : ∀ q ∈ entries, q.2.timestamp ≠ start) :
    (start, key) ∉ entries.map entryLabel := by
  intro hmem
  obtain ⟨q, hq, hlabel⟩ := List.mem_map.1 hmem
  exact h q hq (Prod.mk.inj hlabel).1

theorem Merges.append (before after : List (String × Bucket))
    (h : Merges fold row start key entries entries')
    (hbefore : (start, key) ∉ before.map entryLabel)
    (hafter : (start, key) ∉ after.map entryLabel) :
    Merges fold row start key (before ++ entries ++ after) (before ++ entries' ++ after) := by
  cases h with
  | first pre post new folded =>
      have hnew : (start, key) ∉ (before ++ pre ++ (post ++ after)).map entryLabel := by simp_all
      simpa using Merges.first (before ++ pre) (post ++ after) hnew folded
  | further pre post here folded =>
      simpa using Merges.further (before ++ pre) (post ++ after) here folded

theorem rowsOf_concat_self :
    rowsOf n (placed ++ [(start, row)]) (start, groupKey n row) =
      rowsOf n placed (start, groupKey n row) ++ [row] := by
  simp [rowsOf]

theorem rowsOf_concat_of_ne {label : Int64 × String} (h : (start, groupKey n row) ≠ label) :
    rowsOf n (placed ++ [(start, row)]) label = rowsOf n placed label := by
  simp [rowsOf, h]

theorem Files.nil : Files fold n [] [] := ⟨List.nodup_nil, by simp, by simp, by simp⟩

/-- No rows go to a bucket and group without an entry. -/
theorem Files.rowsOf_eq_nil (h : Files fold n placed entries) {label : Int64 × String}
    (hnew : label ∉ entries.map entryLabel) : rowsOf n placed label = [] := by
  rw [rowsOf, List.map_eq_nil_iff, List.filter_eq_nil_iff]
  intro x hx heq
  rw [decide_eq_true_eq] at heq
  exact hnew (heq ▸ h.filed x hx)

/-- The row of an entry has the key of the group. -/
theorem Files.groupKey_toEvent (h : Files fold n placed entries) (hcarries : Bucket.Carries fold n)
    {q : String × Bucket} (hq : q ∈ entries) : groupKey n q.2.toEvent = q.1 := by
  have hcontent := h.content q hq
  rcases (rowsOf n placed (entryLabel q)).eq_nil_or_concat' with hrows | ⟨rows, row, hrows⟩
  · exact absurd hrows (h.nonempty q hq)
  · rw [hrows] at hcontent
    obtain ⟨b, -, hprocess⟩ := Bucket.ofRows_concat.1 hcontent
    have hrow : row ∈ rowsOf n placed (entryLabel q) := by
      rw [hrows]
      simp
    obtain ⟨x, hx, rfl⟩ := List.mem_map.1 hrow
    have hlabel : (x.1, groupKey n x.2) = entryLabel q := by simpa using (List.mem_filter.1 hx).2
    rw [hcarries.groupKey_toEvent hprocess]
    exact (Prod.mk.inj hlabel).2

/-- The entry of the row holds one row more, and the rows of all other entries stay the same. -/
theorem Files.of_entry (h : Files fold n placed entries) {pre post : List (String × Bucket)}
    {b b' : Bucket} (hothers : ∀ q ∈ pre ++ post, q ∈ entries)
    (hlabels : ∀ label ∈ entries.map entryLabel,
      label = (start, groupKey n row) ∨ label ∈ (pre ++ post).map entryLabel)
    (hnodup : ((start, groupKey n row) :: (pre ++ post).map entryLabel).Nodup)
    (hb : Bucket.ofRows fold start (rowsOf n placed (start, groupKey n row)) = .ok b)
    (hprocess : b.process fold row = (.ok (), b')) :
    Files fold n (placed ++ [(start, row)]) (pre ++ (groupKey n row, b') :: post) := by
  have hrows := Bucket.ofRows_concat.2 ⟨b, hb, hprocess⟩
  rw [← rowsOf_concat_self] at hrows
  have hself : entryLabel (groupKey n row, b') = (start, groupKey n row) := by
    refine Prod.ext (Bucket.timestamp_processed_of_ofRows ?_ hrows).1 rfl
    rw [rowsOf_concat_self]
    simp
  have hperm : List.Perm (pre ++ (groupKey n row, b') :: post)
      ((groupKey n row, b') :: (pre ++ post)) := List.perm_middle
  have hlabel {label : Int64 × String} :
      label ∈ (pre ++ (groupKey n row, b') :: post).map entryLabel ↔
        label = (start, groupKey n row) ∨ label ∈ (pre ++ post).map entryLabel := by
    rw [(hperm.map entryLabel).mem_iff, List.map_cons, hself, List.mem_cons]
  have hother {q : String × Bucket} (hq : q ∈ pre ++ post) :
      rowsOf n (placed ++ [(start, row)]) (entryLabel q) = rowsOf n placed (entryLabel q) :=
    rowsOf_concat_of_ne fun heq =>
      (List.nodup_cons.1 hnodup).1 (heq ▸ List.mem_map_of_mem hq)
  refine ⟨?_, fun x hx => ?_, fun q hq => ?_, fun q hq => ?_⟩
  · rw [(hperm.map entryLabel).nodup_iff, List.map_cons, hself]
    exact hnodup
  · rw [hlabel]
    rcases List.mem_append.1 hx with hx | hx
    · exact hlabels _ (h.filed x hx)
    · rw [List.mem_singleton.1 hx]
      exact .inl rfl
  · rcases List.mem_cons.1 (hperm.mem_iff.1 hq) with rfl | hq
    · rw [hself, rowsOf_concat_self]
      simp
    · rw [hother hq]
      exact h.nonempty q (hothers q hq)
  · rcases List.mem_cons.1 (hperm.mem_iff.1 hq) with rfl | hq
    · rw [hself, (Prod.mk.inj hself).1]
      exact hrows
    · rw [hother hq]
      exact h.content q (hothers q hq)

/-- One further row. -/
theorem Files.merge (h : Files fold n placed entries)
    (hmerge : Merges fold row start (groupKey n row) entries entries') :
    Files fold n (placed ++ [(start, row)]) entries' := by
  cases hmerge with
  | first pre post new folded =>
      refine h.of_entry (b := .empty fold start) (fun q hq => hq) (fun label hlabel => .inr hlabel)
        (List.nodup_cons.2 ⟨new, h.nodup⟩) ?_ folded
      rw [h.rowsOf_eq_nil new]
      rfl
  | @further pre post b _ here folded =>
      have hlabels : List.Perm ((pre ++ (groupKey n row, b) :: post).map entryLabel)
          ((start, groupKey n row) :: (pre ++ post).map entryLabel) := by
        rw [← here]
        exact List.perm_middle.map entryLabel
      have hentry : (groupKey n row, b) ∈ pre ++ (groupKey n row, b) :: post := by simp
      have hcontent := h.content _ hentry
      rw [entryLabel, here] at hcontent
      refine h.of_entry (fun q hq => List.perm_middle.mem_iff.2 (List.mem_cons_of_mem _ hq))
        (fun label hlabel => List.mem_cons.1 (hlabels.mem_iff.1 hlabel))
        (hlabels.nodup_iff.1 h.nodup) hcontent folded

/-! ### Updates of the memory -/

theorem Groups.merges {gs gs' : Groups}
    (hupdate : update key (.empty fold start) (Bucket.process fold row) gs = (.ok (), gs'))
    (htime : ∀ q ∈ gs, q.2.timestamp = start) : Merges fold row start key gs gs' := by
  induction gs generalizing gs' with
  | nil =>
      rcases hprocess : (Bucket.empty fold start).process fold row with ⟨result, b⟩
      simp only [update, hprocess] at hupdate
      cases hupdate
      exact .first [] [] (by simp) hprocess
  | cons p rest ih =>
      obtain ⟨k, b⟩ := p
      obtain ⟨hb, hrest⟩ := List.forall_mem_cons.1 htime
      unfold update at hupdate
      split at hupdate
      · rename_i heq
        subst heq
        rcases hprocess : b.process fold row with ⟨result, b'⟩
        rw [hprocess] at hupdate
        cases hupdate
        exact .further [] rest hb hprocess
      · rename_i hne
        rcases htail : update key (.empty fold start) (Bucket.process fold row) rest with
          ⟨result, rest'⟩
        rw [htail] at hupdate
        cases hupdate
        have hmerge := (ih htail hrest).append [(k, b)] []
          (by simpa [entryLabel] using fun _ => Ne.symm hne) (by simp)
        simpa using hmerge

namespace FoldedBuckets

variable {m m' : FoldedBuckets}

/-- Entries that hold data are flushed as rows. -/
theorem rows_entries (h : ∀ q ∈ m.flatMap (·.2), q.2.processed = true) :
    (m.flatMap fun p => Groups.rows p.2) = (m.flatMap (·.2)).map (·.2.toEvent) := by
  rw [List.map_flatMap]
  refine List.flatMap_congr fun p hp => ?_
  rw [Groups.rows, List.filter_eq_self.2 fun q hq => h q (List.mem_flatMap.2 ⟨p, hp, hq⟩)]

theorem merges (hsorted : (m.map (·.1)).Pairwise (· < ·))
    (htime : ∀ p ∈ m, ∀ q ∈ p.2, q.2.timestamp = p.1)
    (hupdate : update start key (.empty fold start) (Bucket.process fold row) m = (.ok (), m')) :
    Merges fold row start key (m.flatMap (·.2)) (m'.flatMap (·.2)) := by
  induction m generalizing m' with
  | nil =>
      rcases hgroups : Groups.update key (.empty fold start) (Bucket.process fold row) [] with
        ⟨result, gs⟩
      simp only [update, hgroups] at hupdate
      cases hupdate
      simpa using Groups.merges hgroups (by simp)
  | cons p rest ih =>
      obtain ⟨s, gs⟩ := p
      obtain ⟨hlt, hsorted'⟩ := List.pairwise_cons.1 hsorted
      obtain ⟨hgs, hrest⟩ := List.forall_mem_cons.1 htime
      unfold update at hupdate
      split at hupdate
      · -- The start is new and comes first.
        rename_i hbefore
        rcases hgroups : Groups.update key (.empty fold start) (Bucket.process fold row) [] with
          ⟨result, gs'⟩
        rw [hgroups] at hupdate
        cases hupdate
        have hne : ∀ o ∈ ((s, gs) :: rest).map (·.1), o ≠ start := fun o ho => by
          rcases List.mem_cons.1 ho with rfl | ho
          · exact (Int64.ne_of_lt hbefore).symm
          · exact (Int64.ne_of_lt (Int64.lt_trans hbefore (hlt o ho))).symm
        have hmerge := (Groups.merges hgroups (by simp)).append [] _ (by simp)
          (label_notMem fun q hq => hne _ (timestamp_mem_starts htime hq))
        simpa using hmerge
      · rename_i hle
        split at hupdate
        · -- The start has entries already.
          rename_i heq
          subst heq
          rcases hgroups : Groups.update key (.empty fold start) (Bucket.process fold row) gs with
            ⟨result, gs'⟩
          rw [hgroups] at hupdate
          cases hupdate
          have hmerge := (Groups.merges hgroups hgs).append [] _ (by simp)
            (label_notMem fun q hq =>
              (Int64.ne_of_lt (hlt _ (timestamp_mem_starts hrest hq))).symm)
          simpa using hmerge
        · rename_i hne
          rcases htail : update start key (.empty fold start) (Bucket.process fold row) rest with
            ⟨result, rest'⟩
          rw [htail] at hupdate
          cases hupdate
          have hmerge := (ih hsorted' hrest htail).append gs []
            (label_notMem fun q hq heq => hne (heq.symm.trans (hgs q hq))) (by simp)
          simpa using hmerge

end FoldedBuckets

end EventQuery
