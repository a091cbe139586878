import EventQuery.Proofs.Rollup.Bounds
import EventQuery.Proofs.Time.Granularity

/-!
The test of the span of the memory. A lookup passes over the buckets in memory where the newest of
them lies before its time range or the oldest behind it. All buckets lie between the two, and the
conditions of the range are monotone in the start of a row, so none of them belongs into the range
then.
-/

namespace EventQuery

/-! ### The span of the memory -/

/-- A bucket lies between an oldest and a newest one. -/
def Bucket.Between (b : Bucket) (ends : Bucket × Bucket) : Prop :=
  ends.1.timestamp ≤ b.timestamp ∧ b.timestamp ≤ ends.2.timestamp

namespace BucketStore

/-- A choice that comes before both of its options picks a first one of many. -/
theorem foldl_choose_first {α : Type} {R : α → α → Prop} {choose : α → α → α} (hrefl : ∀ a, R a a)
    (htrans : ∀ a b c, R a b → R b c → R a c) (hchoose : ∀ a b, R (choose a b) a ∧ R (choose a b) b)
    (a : α) (rest : List α) : ∀ b ∈ a :: rest, R (rest.foldl choose a) b := by
  induction rest generalizing a with
  | nil =>
      intro b hb
      rw [List.mem_singleton.1 hb]
      exact hrefl a
  | cons first rest ih =>
      intro b hb
      rw [List.foldl_cons]
      have hfirst := ih (choose a first) _ List.mem_cons_self
      rcases List.mem_cons.1 hb with rfl | hb
      · exact htrans _ _ _ hfirst (hchoose b first).1
      · rcases List.mem_cons.1 hb with rfl | hb
        · exact htrans _ _ _ hfirst (hchoose a b).2
        · exact ih (choose a first) b (List.mem_cons_of_mem _ hb)

theorem foldl_oldest_le (b : Bucket) (rest : List Bucket) : ∀ c ∈ b :: rest,
    (rest.foldl (fun best c => if c.timestamp < best.timestamp then c else best) b).timestamp ≤
      c.timestamp := by
  refine foldl_choose_first (R := fun b c : Bucket => b.timestamp ≤ c.timestamp)
    (fun _ => Int64.le_refl _) (fun _ _ _ => Int64.le_trans) (fun b c => ?_) b rest
  split
  · exact ⟨Int64.le_of_lt ‹_›, Int64.le_refl _⟩
  · exact ⟨Int64.le_refl _, Int64.not_lt.1 ‹_›⟩

theorem le_foldl_newest (b : Bucket) (rest : List Bucket) : ∀ c ∈ b :: rest, c.timestamp ≤
    (rest.foldl (fun best c => if c.timestamp < best.timestamp then best else c) b).timestamp := by
  refine foldl_choose_first (R := fun b c : Bucket => c.timestamp ≤ b.timestamp)
    (fun _ => Int64.le_refl _) (fun _ _ _ hba hcb => Int64.le_trans hcb hba) (fun b c => ?_) b rest
  split
  · exact ⟨Int64.le_refl _, Int64.le_of_lt ‹_›⟩
  · exact ⟨Int64.not_lt.1 ‹_›, Int64.le_refl _⟩

/-- The oldest and the newest bucket with data enclose all others; there are none only where there
is no data. -/
theorem oldestAndNewest_spec (s : BucketStore) :
    (s.entries = [] ∧ s.oldestAndNewest = none) ∨
      ∃ ends, s.oldestAndNewest = some ends ∧ ∀ e ∈ s.entries, e.2.Between ends := by
  unfold oldestAndNewest
  cases hentries : s.entries with
  | nil => exact .inl ⟨rfl, rfl⟩
  | cons first rest =>
      refine .inr ⟨_, rfl, fun e he => ?_⟩
      have hmem : e.2 ∈ first.2 :: rest.map (·.2) :=
        List.mem_map_of_mem (f := fun e : Option String × Bucket => e.2) he
      exact ⟨foldl_oldest_le first.2 _ e.2 hmem, le_foldl_newest first.2 _ e.2 hmem⟩

/-- A choice among elements with a property gives one with it. -/
theorem foldl_choose_of_forall {α : Type} {P : α → Prop} {choose : α → α → α} {a : α}
    {rest : List α} (hchoose : ∀ a b, P a → P b → P (choose a b)) (h : ∀ b ∈ a :: rest, P b) :
    P (rest.foldl choose a) := by
  induction rest generalizing a with
  | nil => exact h a List.mem_cons_self
  | cons b rest ih =>
      obtain ⟨ha, hb, hrest⟩ := List.forall_mem_cons.1 h |>.imp_right List.forall_mem_cons.1
      exact ih (List.forall_mem_cons.2 ⟨hchoose a b ha hb, hrest⟩)

theorem mem_of_oldestAndNewest {s : BucketStore} {ends : Bucket × Bucket}
    (h : s.oldestAndNewest = some ends) :
    ends.1 ∈ s.entries.map (·.2) ∧ ends.2 ∈ s.entries.map (·.2) := by
  unfold oldestAndNewest at h
  cases hheld : s.entries.map (·.2) with
  | nil =>
      rw [hheld] at h
      cases h
  | cons first rest =>
      rw [hheld] at h
      cases h
      constructor
      · refine foldl_choose_of_forall (P := fun b => b ∈ first :: rest) (fun b c hb hc => ?_)
          fun b hb => hb
        split
        · exact hc
        · exact hb
      · refine foldl_choose_of_forall (P := fun b => b ∈ first :: rest) (fun b c hb hc => ?_)
          fun b hb => hb
        split
        · exact hb
        · exact hc

end BucketStore

namespace Retrieval

/-- The wider of two spans. -/
def widen (ends pair : Bucket × Bucket) : Bucket × Bucket :=
  (if pair.1.timestamp < ends.1.timestamp then pair.1 else ends.1,
    if ends.2.timestamp < pair.2.timestamp then pair.2 else ends.2)

theorem widen_spec (ends pair : Bucket × Bucket) :
    ((widen ends pair).1.timestamp ≤ ends.1.timestamp ∧
      ends.2.timestamp ≤ (widen ends pair).2.timestamp) ∧
      (widen ends pair).1.timestamp ≤ pair.1.timestamp ∧
      pair.2.timestamp ≤ (widen ends pair).2.timestamp := by
  unfold widen
  constructor <;> constructor <;> grind

theorem span_eq {stores : List BucketStore} {ends : Bucket × Bucket} {rest : List (Bucket × Bucket)}
    (h : stores.filterMap BucketStore.oldestAndNewest = ends :: rest) :
    span stores = some (rest.foldl widen ends) := by
  rw [span, h, List.foldl_cons]
  clear h
  induction rest generalizing ends with
  | nil => rfl
  | cons pair rest ih => exact @ih (widen ends pair)

/-- The span of the memory encloses all buckets with data. -/
theorem between_span (stores : List BucketStore) :
    (span stores = none ∧ stores.flatMap BucketStore.entries = []) ∨
      ∃ ends, span stores = some ends ∧
        ∀ e ∈ stores.flatMap BucketStore.entries, e.2.Between ends := by
  cases hpairs : stores.filterMap BucketStore.oldestAndNewest with
  | nil =>
      refine .inl ⟨by rw [span, hpairs]; rfl, List.flatMap_eq_nil_iff.2 fun s hs => ?_⟩
      rcases s.oldestAndNewest_spec with ⟨hentries, -⟩ | ⟨ends, hends, -⟩
      · exact hentries
      · rw [List.filterMap_eq_nil_iff.1 hpairs s hs] at hends
        cases hends
  | cons first rest =>
      refine .inr ⟨_, span_eq hpairs, fun e he => ?_⟩
      obtain ⟨s, hs, he⟩ := List.mem_flatMap.1 he
      rcases s.oldestAndNewest_spec with ⟨hentries, -⟩ | ⟨ends, hends, hbetween⟩
      · rw [hentries] at he
        cases he
      · have hmem : ends ∈ first :: rest := hpairs ▸ List.mem_filterMap.2 ⟨s, hs, hends⟩
        obtain ⟨hfirst, hlast⟩ := BucketStore.foldl_choose_first
          (R := fun p q : Bucket × Bucket =>
            p.1.timestamp ≤ q.1.timestamp ∧ q.2.timestamp ≤ p.2.timestamp)
          (fun _ => ⟨Int64.le_refl _, Int64.le_refl _⟩)
          (fun _ _ _ hpq hqr => ⟨Int64.le_trans hpq.1 hqr.1, Int64.le_trans hqr.2 hpq.2⟩)
          widen_spec first rest ends hmem
        obtain ⟨holdest, hnewest⟩ := hbetween e he
        exact ⟨Int64.le_trans hfirst holdest, Int64.le_trans hnewest hlast⟩

/-- The ends of the span are buckets in memory. -/
theorem mem_of_span {stores : List BucketStore} {ends : Bucket × Bucket}
    (h : span stores = some ends) :
    ends.1 ∈ (stores.flatMap BucketStore.entries).map (·.2) ∧
      ends.2 ∈ (stores.flatMap BucketStore.entries).map (·.2) := by
  have hpairs : ∀ pair ∈ stores.filterMap BucketStore.oldestAndNewest,
      pair.1 ∈ (stores.flatMap BucketStore.entries).map (·.2) ∧
        pair.2 ∈ (stores.flatMap BucketStore.entries).map (·.2) := by
    intro pair hpair
    obtain ⟨s, hs, hpair⟩ := List.mem_filterMap.1 hpair
    obtain ⟨hold, hnew⟩ := BucketStore.mem_of_oldestAndNewest hpair
    rw [List.map_flatMap]
    exact ⟨List.mem_flatMap.2 ⟨s, hs, hold⟩, List.mem_flatMap.2 ⟨s, hs, hnew⟩⟩
  cases hlist : stores.filterMap BucketStore.oldestAndNewest with
  | nil =>
      rw [span, hlist] at h
      cases h
  | cons first rest =>
      rw [span_eq hlist] at h
      cases h
      rw [hlist] at hpairs
      refine BucketStore.foldl_choose_of_forall (P := fun pair : Bucket × Bucket =>
        pair.1 ∈ (stores.flatMap BucketStore.entries).map (·.2) ∧
          pair.2 ∈ (stores.flatMap BucketStore.entries).map (·.2))
        (fun ends pair hends hpair => ?_) hpairs
      dsimp only [widen]
      constructor
      · split
        · exact hpair.1
        · exact hends.1
      · split
        · exact hpair.2
        · exact hends.2

theorem probeRow_eq_ok {b : Bucket} {g : Granularity} {row : Event} (h : probeRow b g = .ok row) :
    g.startTime b.timestamp = .ok row.timestamp ∧ row.get 0 = .long row.timestamp := by
  unfold probeRow at h
  split at h
  · cases h
    exact ⟨‹_›, rfl⟩
  · cases h

/-- A bucket that starts in a bucket of the granularity can be placed there. -/
theorem probeRow_eq {b : Bucket} {g : Granularity} {start : Int64}
    (h : g.startTime b.timestamp = .ok start) :
    probeRow b g = .ok (b.rowAt start) := by
  rw [probeRow, h]

end Retrieval

/-! ### The test of the span against the test of a row -/

/-- The two halves of a range say about two times that the range has begun at the one and has not
ended at the other. The end is not tested before the start. -/
def spans (lower upper : Except EvalError (Int64 → Bool)) (newest oldest : Int64) :
    Except EvalError Bool := do
  if ← lower.map (· newest) then upper.map (· oldest) else return false

section Spans

variable {lower upper : Except EvalError (Int64 → Bool)} {newest oldest t : Int64}

/-- Where the newest time lies before the range or the oldest behind it, so do all between them. -/
theorem spans_eq_false (hlower : ∀ test, lower = .ok test → Rises test)
    (hupper : ∀ test, upper = .ok test → Falls test) (hold : oldest ≤ t) (hnew : t ≤ newest)
    (h : spans lower upper newest oldest = .ok false) : spans lower upper t t = .ok false := by
  obtain ⟨begun, hbegun, h⟩ := Run.bind_eq_ok.1 h
  cases lower with
  | error x => cases hbegun
  | ok test =>
      obtain rfl := Except.ok.inj hbegun
      cases htest : test t with
      | false => simp [spans, Except.map, htest, pure, Except.pure]
      | true =>
          rw [if_pos (hlower test rfl t newest hnew htest)] at h
          cases upper with
          | error x => cases h
          | ok test' =>
              have hfalse : test' t = false := by
                by_contra htrue
                have holdest := hupper test' rfl oldest t hold (Bool.of_not_eq_false htrue)
                cases holdest.symm.trans (Except.ok.inj h)
              simp [spans, Except.map, htest, hfalse]

/-- Where the span cannot be tested, the newest time cannot be tested either, and a time that can is
not in the range. -/
theorem spans_eq_error {x : EvalError} (h : spans lower upper newest oldest = .error x) :
    spans lower upper newest newest = .error x ∧
      ∀ t, spans lower upper t t = .ok false ∨ spans lower upper t t = .error x := by
  cases lower with
  | error y =>
      cases h
      exact ⟨rfl, fun t => .inr rfl⟩
  | ok test =>
      have hopen (s t : Int64) : spans (.ok test) upper s t =
          if test s then upper.map (· t) else .ok false := rfl
      rw [hopen] at h
      cases hnewest : test newest with
      | false =>
          rw [hnewest] at h
          cases h
      | true =>
          rw [hnewest, if_pos rfl] at h
          cases upper with
          | ok test' => cases h
          | error y =>
              cases h
              refine ⟨by rw [hopen, if_pos hnewest]; rfl, fun t => ?_⟩
              rw [hopen]
              split
              · exact .inr rfl
              · exact .inl rfl

end Spans

namespace Retrieval

variable {c : Retrieval} {rows : SourceRows} {frame : Frame} {g : Granularity}
  {stores : List BucketStore} {lower upper : Except EvalError (Int64 → Bool)}

/-- For a matching event the two halves of the range of a lookup are tests of the timestamp of a
row. -/
structure Ends (c : Retrieval) (rows : SourceRows) (frame : Frame)
    (lower upper : Except EvalError (Int64 → Bool)) : Prop where
  rises : ∀ test, lower = .ok test → Rises test
  falls : ∀ test, upper = .ok test → Falls test
  since : ∀ row : Event, row.get 0 = .long row.timestamp →
    c.since.contains rows frame (.ofEvents [row]) =
      Run.ofExcept ((lower.map (· row.timestamp)).mapError .eval)
  before : ∀ row : Event, row.get 0 = .long row.timestamp →
    c.before.contains rows frame (.ofEvents [row]) =
      Run.ofExcept ((upper.map (· row.timestamp)).mapError .eval)

theorem Ends.inMemoryInRange_eq (h : c.Ends rows frame lower upper) {ends : Bucket × Bucket}
    (hspan : span stores = some ends) {newest oldest : Int64}
    (hnewest : g.startTime ends.2.timestamp = .ok newest)
    (holdest : g.startTime ends.1.timestamp = .ok oldest) :
    c.inMemoryInRange rows frame g stores =
      Run.ofExcept ((spans lower upper newest oldest).mapError fun x => .lookup (.eval x)) := by
  unfold inMemoryInRange
  rw [hspan]
  simp only [probeRow_eq hnewest, probeRow_eq holdest, Run.ofExcept_ok_bind]
  rw [h.since _ rfl, h.before _ rfl]
  cases lower with
  | error x => rfl
  | ok test =>
      simp only [spans, Bucket.rowAt, Event.current, Except.map, Run.ok_bind]
      cases test newest with
      | false => rfl
      | true => cases upper <;> rfl

/-- A lookup passes over the memory only where no bucket in memory belongs into the range. -/
theorem Ends.spans_of_inMemoryInRange (h : c.Ends rows frame lower upper) {m m' : Memory}
    (hcheck : c.inMemoryInRange rows frame g stores m = (.ok false, m')) :
    ∀ e ∈ stores.flatMap BucketStore.entries, ∀ o, g.startTime e.2.timestamp = .ok o →
      spans lower upper o o = .ok false := by
  intro e he o ho
  rcases between_span stores with ⟨-, hnone⟩ | ⟨ends, hspan, hbetween⟩
  · rw [hnone] at he
    cases he
  · obtain ⟨hold, hnew⟩ := hbetween e he
    have hrun := hcheck
    unfold inMemoryInRange at hrun
    rw [hspan] at hrun
    obtain ⟨newest, _, hnewest, hrun⟩ := Run.of_run_bind hrun
    obtain ⟨oldest, _, holdest, -⟩ := Run.of_run_bind hrun
    have hnewest := (probeRow_eq_ok (Run.of_run_ofExcept hnewest).1).1
    have holdest := (probeRow_eq_ok (Run.of_run_ofExcept holdest).1).1
    rw [h.inMemoryInRange_eq hspan hnewest holdest, Run.run_ofExcept] at hcheck
    have hspans : spans lower upper newest.timestamp oldest.timestamp = .ok false := by
      cases hspans : spans lower upper newest.timestamp oldest.timestamp with
      | error x =>
          rw [hspans] at hcheck
          cases (Prod.mk.inj hcheck).1
      | ok live =>
          rw [hspans] at hcheck
          cases (Prod.mk.inj hcheck).1
          rfl
    -- The bucket starts no later than the newest row and no earlier than the oldest one.
    exact spans_eq_false h.rises h.falls (Granularity.startTime_mono holdest ho hold)
      (Granularity.startTime_mono ho hnewest hnew) hspans

end Retrieval

end EventQuery
