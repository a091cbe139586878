import EventQuery.Proofs.Rollup.Session
import EventQuery.Proofs.Rollup.WellFormed

/-!
Rejected events. An event that the finest granularity cannot place is rejected before anything has
been changed. The coarser levels take in what has been closed before them, and reject none of it as
long as they can place the events that the finest level has taken in. So a rejection leaves the
aggregation as it was, except where an earlier event lies in the range of the finest granularity but
not in that of a coarser one.
-/

namespace EventQuery

namespace Granularity

variable {f g : Granularity} {gs : List Granularity} {s ts : Int64}

/-- A timestamp lies in a bucket. -/
def Places (g : Granularity) (timestamp : Int64) : Prop :=
  ∃ start, g.startTime timestamp = .ok start

instance (g : Granularity) (timestamp : Int64) : Decidable (g.Places timestamp) :=
  match h : g.startTime timestamp with
  | .error _ => isFalse fun ⟨_, hstart⟩ => nomatch h.symm.trans hstart
  | .ok start => isTrue ⟨start, h⟩

/-- A timestamp lies in a bucket of every granularity of a list that is at least as coarse. -/
def PlacedFrom (gs : List Granularity) (f : Granularity) (timestamp : Int64) : Prop :=
  ∀ g ∈ gs, f.rank ≤ g.rank → g.Places timestamp

/-- What the finest granularity places, all others place too. -/
def PlacedAlike (gs : List Granularity) (timestamp : Int64) : Prop :=
  ∀ f ∈ gs.head?, f.Places timestamp → ∀ g ∈ gs, g.Places timestamp

instance (gs : List Granularity) (timestamp : Int64) : Decidable (PlacedAlike gs timestamp) :=
  inferInstanceAs (Decidable (∀ f ∈ gs.head?, f.Places timestamp → ∀ g ∈ gs, g.Places timestamp))

theorem PlacedFrom.mono (h : PlacedFrom gs f ts) (hrank : f.rank ≤ g.rank) : PlacedFrom gs g ts :=
  fun q hq hle => h q hq (Nat.le_trans hrank hle)

theorem PlacedFrom.startTime (h : PlacedFrom gs f ts) (hs : f.startTime ts = .ok s) :
    PlacedFrom gs f s := by
  intro g hg hrank
  obtain ⟨b, hb⟩ := h g hg hrank
  exact ⟨b, (startTime_startTime hrank hs).2 hb⟩

end Granularity

open Granularity

/-! ### Folding rows into buckets -/

/-- An update keeps an invariant, and nothing but an overflow makes it fail. -/
def Maintains {α : Type} (inv : α → Prop) (f : α → Except EvalError Unit × α) : Prop :=
  ∀ a, inv a → inv (f a).2 ∧ ∀ e, (f a).1 = .error e → e = .overflow

namespace Accumulator

variable {a : Accumulator} {kind : FoldKind} {v : Value} {added : Bool} {e : EvalError}

theorem eq_overflow_of_addToSums (h : a.addToSums v added = .error e) : e = .overflow := by
  rcases addToSums_cases a v added with ⟨sumLong, sumDouble, hsums⟩ | ⟨hsums, -⟩
  · cases hsums.symm.trans h
  · exact (Except.error.inj (hsums.symm.trans h)).symm

theorem eq_overflow_of_fold (h : a.fold kind v added = .error e) : e = .overflow := by
  unfold fold at h
  split at h
  · cases h
  · rcases step_cases a added with hstep | hstep <;> rw [hstep] at h
    · cases kind
      case sum | avg => exact eq_overflow_of_addToSums h
      case min | max => cases h
    · exact (Except.error.inj h).symm

end Accumulator

/-- Nothing but an overflow makes code fail. -/
def Code.OnlyOverflows (c : Code) : Prop :=
  ∀ rows f m e m', c.run rows f m = (.error e, m') → e = .overflow

namespace Code

variable {kind : FoldKind} {slot position cell : Nat} {type result : AttributeType}

theorem onlyOverflows_read : (read slot position type).OnlyOverflows := by
  intro rows f m e m' h
  cases h

theorem onlyOverflows_fold : (fold kind (read slot position type) result cell).OnlyOverflows := by
  have hfold (added : Bool) (v : Value) (m m' : Memory) (e : EvalError)
      (h : runFold cell kind result added v m = (.error e, m')) : e = .overflow := by
    rw [runFold_eq] at h
    split at h
    · rename_i hfold
      cases h
      exact Accumulator.eq_overflow_of_fold hfold
    · cases h
  intro rows f m e m' h
  unfold run at h
  cases hkind : f.kind <;> rw [hkind] at h
  case reset => cases h
  case current => exact hfold true _ m m' e h
  case expired => exact hfold false _ m m' e h

end Code

/-- The columns of every layout are read or folded. -/
theorem RollupLayout.onlyOverflows_base {d : RollupDefinition} {l : RollupLayout}
    {context : Context} {fold : FoldCode} (hlayout : ofDefinition d = .ok l)
    (hfold : (l.baseCodes context).finish = .ok fold) : ∀ c ∈ fold.code, c.OnlyOverflows := by
  obtain ⟨cs, m, hcodes, rfl⟩ := Allot.finish_eq_ok.1 hfold
  have hcodes := Allot.mapError_eq_ok.1 hcodes
  intro code hcode
  obtain ⟨i, hi, rfl⟩ := List.getElem_of_mem hcode
  have hlength := Compile.codes_length hcodes
  obtain ⟨column, hcolumn⟩ : ∃ column, l.columns[i]? = some column :=
    ⟨_, List.getElem?_eq_getElem (by simpa [hlength] using hi)⟩
  obtain ⟨code, k, k', hget, hcode⟩ := Compile.exists_code_of_codes hcodes
    (show (l.columns.map (·.base))[i]? = some column.base by simp [hcolumn])
  obtain rfl := Option.some.inj ((List.getElem?_eq_getElem hi).symm.trans hget)
  have hcall {kind : FoldKind} {name : String}
      (hbase : column.base = .call none kind.name [.named name]) : cs[i].OnlyOverflows := by
    rw [hbase] at hcode
    obtain ⟨_, _, _, -, -, -, hread, -⟩ := Compile.code_fold_named hcode
    rw [hread]
    exact Code.onlyOverflows_fold
  rcases originates_of_ofDefinition hlayout column (List.mem_of_getElem? hcolumn) with
    ⟨name, type, -, rfl⟩ | ⟨a, -, hneeded⟩
  · obtain ⟨_, _, -, -, hread, -⟩ := Compile.code_named hcode
    rw [hread]
    exact Code.onlyOverflows_read
  · cases hneeded.needed with
    | count => exact hcall rfl
    | sum => exact hcall rfl
    | min => exact hcall rfl
    | max => exact hcall rfl

namespace Bucket

theorem eq_overflow_of_runColumns {cs : List Code} (h : ∀ c ∈ cs, c.OnlyOverflows) {f : Frame}
    {old : List Value} {m : Memory} {e : EvalError}
    (hrun : (runColumns f cs old m).1.2 = .error e) : e = .overflow := by
  induction cs generalizing old m with
  | nil => cases hrun
  | cons c rest ih =>
      obtain ⟨hc, hrest⟩ := List.forall_mem_cons.1 h
      rcases hcode : c.run noRows f m with ⟨cause | v, m₁⟩
      · simp only [runColumns, bind, StateT.bind, ExceptT.run, hcode] at hrun
        cases hrun
        exact hc _ _ _ _ _ hcode
      · simp only [runColumns, bind, StateT.bind, ExceptT.run, hcode] at hrun
        exact ih hrest hrun

theorem maintains_process {fold : FoldCode} (h : ∀ c ∈ fold.code, c.OnlyOverflows)
    (P : Int64 → Prop) (row : Event) : Maintains (fun b => P b.timestamp) (process fold row) :=
  fun _ hb => ⟨hb, fun _ => eq_overflow_of_runColumns h⟩

end Bucket

theorem Groups.maintains_update {inv : Bucket → Prop} (key : String) (fresh : Bucket)
    {f : Bucket → Except EvalError Unit × Bucket} (hfresh : inv fresh) (h : Maintains inv f) :
    Maintains (fun gs => ∀ p ∈ gs, inv p.2) (Groups.update key fresh f) := by
  intro gs hgs
  induction gs with
  | nil =>
      obtain ⟨hinv, herror⟩ := h fresh hfresh
      exact ⟨by simpa [Groups.update] using hinv, herror⟩
  | cons p rest ih =>
      obtain ⟨hp, hrest⟩ := List.forall_mem_cons.1 hgs
      unfold Groups.update
      dsimp only
      split
      · obtain ⟨hinv, herror⟩ := h p.2 hp
        exact ⟨List.forall_mem_cons.2 ⟨hinv, hrest⟩, herror⟩
      · obtain ⟨hinv, herror⟩ := ih hrest
        exact ⟨List.forall_mem_cons.2 ⟨hp, hinv⟩, herror⟩

namespace BucketStore

variable {α : Type} {inv : α → Prop} {f : α → Except EvalError Unit × α}
  {P : Int64 → Prop} {fold : FoldCode} {s : BucketStore} {n : Nat} {start target : Int64}

theorem maintains_updateFirst (test : α → Bool) (h : Maintains inv f) :
    Maintains (fun as => ∀ a ∈ as, inv a) (updateFirst test f) := by
  intro as has
  induction as with
  | nil => exact ⟨has, nofun⟩
  | cons a rest ih =>
      obtain ⟨ha, hrest⟩ := List.forall_mem_cons.1 has
      unfold updateFirst
      split
      · obtain ⟨hinv, herror⟩ := h a ha
        exact ⟨List.forall_mem_cons.2 ⟨hinv, hrest⟩, herror⟩
      · obtain ⟨hinv, herror⟩ := ih hrest
        exact ⟨List.forall_mem_cons.2 ⟨ha, hinv⟩, herror⟩

theorem maintains_updateLast (test : α → Bool) (h : Maintains inv f) :
    Maintains (fun as => ∀ a ∈ as, inv a) (updateLast test f) := by
  intro as has
  obtain ⟨hinv, herror⟩ := maintains_updateFirst test h as.reverse (by simpa using has)
  exact ⟨by simpa [updateLast] using hinv, herror⟩

/-- All buckets in memory start at instants with a property. -/
def Starts (P : Int64 → Prop) (s : BucketStore) : Prop := ∀ x ∈ s.buckets, P x.2.timestamp

theorem starts_single {b : Bucket} : (single b).Starts P ↔ P b.timestamp := by
  simp [Starts, buckets]

theorem starts_groups {g : Groups} : (groups g).Starts P ↔ ∀ p ∈ g, P p.2.timestamp := by
  simp only [Starts, buckets, List.forall_mem_map]

theorem starts_buffered {bs : List Bucket} :
    (buffered bs).Starts P ↔ ∀ b ∈ bs, P b.timestamp := by
  simp only [Starts, buckets, List.forall_mem_map]

theorem starts_bufferedGroups {gs : List Groups} :
    (bufferedGroups gs).Starts P ↔ ∀ g ∈ gs, ∀ p ∈ g, P p.2.timestamp := by
  simp only [Starts, buckets, List.forall_mem_map, List.forall_mem_flatten]

theorem maintains_fold (h : ∀ c ∈ fold.code, c.OnlyOverflows) (htarget : P target) (isOpen : Bool)
    (key : String) (row : Event) :
    Maintains (Starts P) (BucketStore.fold fold target isOpen key row) := by
  have hprocess := Bucket.maintains_process h P row
  have hinto := Groups.maintains_update key (.empty fold target) htarget hprocess
  intro s hs
  cases s with
  | single b =>
      obtain ⟨hinv, herror⟩ := hprocess b (starts_single.1 hs)
      exact ⟨starts_single.2 hinv, herror⟩
  | groups g =>
      obtain ⟨hinv, herror⟩ := hinto g (starts_groups.1 hs)
      exact ⟨starts_groups.2 hinv, herror⟩
  | buffered bs =>
      obtain ⟨hinv, herror⟩ :=
        maintains_updateLast (·.timestamp = target) hprocess bs (starts_buffered.1 hs)
      exact ⟨starts_buffered.2 hinv, herror⟩
  | bufferedGroups gs =>
      unfold BucketStore.fold
      dsimp only
      split
      · obtain ⟨hinv, herror⟩ :=
          maintains_updateLast (fun _ => true) hinto gs (starts_bufferedGroups.1 hs)
        exact ⟨starts_bufferedGroups.2 hinv, herror⟩
      · obtain ⟨hinv, herror⟩ := maintains_updateFirst (Groups.start · = some target) hinto gs
          (starts_bufferedGroups.1 hs)
        exact ⟨starts_bufferedGroups.2 hinv, herror⟩

theorem eq_overflow_of_fold (h : ∀ c ∈ fold.code, c.OnlyOverflows) {isOpen : Bool} {key : String}
    {row : Event} {e : EvalError}
    (hfold : (s.fold fold target isOpen key row).1 = .error e) : e = .overflow :=
  (maintains_fold (P := fun _ => True) h trivial isOpen key row s fun _ _ => trivial).2 e hfold

theorem Starts.advance (h : s.Starts P) (hstart : P start) :
    (s.advance fold n start).2.Starts P := by
  cases s with
  | single b => exact starts_single.2 hstart
  | groups g => exact starts_groups.2 (by simp)
  | buffered bs =>
      refine starts_buffered.2 fun b hb => ?_
      rcases List.mem_append.1 (List.mem_of_mem_drop hb) with hb | hb
      · exact starts_buffered.1 h b hb
      · rw [List.mem_singleton.1 hb]
        exact hstart
  | bufferedGroups gs =>
      refine starts_bufferedGroups.2 fun g hg => ?_
      rcases List.mem_append.1 (List.mem_of_mem_drop hg) with hg | hg
      · exact starts_bufferedGroups.1 h g hg
      · rw [List.mem_singleton.1 hg]
        simp

theorem timestamp_of_rows {g : Groups} (h : ∀ p ∈ g, P p.2.timestamp) :
    ∀ row ∈ Groups.rows g, P row.timestamp := by
  intro row hrow
  obtain ⟨p, hp, rfl⟩ := List.mem_map.1 hrow
  exact h p (List.mem_of_mem_filter hp)

/-- What leaves the memory has been there. -/
theorem Starts.flushed (h : s.Starts P) : ∀ row ∈ (s.advance fold n start).1, P row.timestamp := by
  intro row hrow
  cases s with
  | single b =>
      simp only [BucketStore.advance] at hrow
      split at hrow
      · rw [List.mem_singleton.1 hrow]
        exact starts_single.1 h
      · cases hrow
  | groups g => exact timestamp_of_rows (starts_groups.1 h) row hrow
  | buffered bs =>
      obtain ⟨b, hb, rfl⟩ := List.mem_map.1 hrow
      obtain ⟨hb, hprocessed⟩ := List.mem_filter.1 hb
      -- The new bucket holds no data.
      rcases List.mem_append.1 (List.mem_of_mem_take hb) with hb | hb
      · exact starts_buffered.1 h b hb
      · rw [List.mem_singleton.1 hb] at hprocessed
        cases hprocessed
  | bufferedGroups gs =>
      obtain ⟨g, hg, hrow⟩ := List.mem_flatMap.1 hrow
      rcases List.mem_append.1 (List.mem_of_mem_take hg) with hg | hg
      · exact timestamp_of_rows (starts_bufferedGroups.1 h g hg) row hrow
      · rw [List.mem_singleton.1 hg] at hrow
        cases hrow

theorem advance_empty (grouped : Bool) :
    ((empty fold grouped n).advance fold n start).1 = [] ∧
      ((empty fold grouped n).advance fold n start).2.Starts (· = start) := by
  cases grouped <;> cases n <;>
    simp [empty, advance, Groups.rows, Starts, buckets, Bucket.empty]

end BucketStore

/-! ### Levels -/

namespace Level

variable {gs : List Granularity} {lv lv' : Level} {start place : Int64} {row : Event}
  {rows : List Event}

/-- The buckets of a level start at instants that all granularities from its own on can place. -/
structure AllPlaced (gs : List Granularity) (lv : Level) : Prop where
  codes : ∀ c ∈ lv.fold.code, c.OnlyOverflows
  fresh : lv.openStart = none → ∃ grouped, lv.store = .empty lv.fold grouped lv.bufferSize
  opened : ∀ o, lv.openStart = some o → PlacedFrom gs lv.granularity o
  starts : lv.openStart ≠ none → lv.store.Starts (PlacedFrom gs lv.granularity)

theorem AllPlaced.advance (h : lv.AllPlaced gs) (hstart : PlacedFrom gs lv.granularity start) :
    (lv.advance start).2.AllPlaced gs where
  codes := h.codes
  fresh := nofun
  opened _ ho := Option.some.inj ho ▸ hstart
  starts _ := by
    cases hopen : lv.openStart with
    | none =>
        obtain ⟨grouped, hstore⟩ := h.fresh hopen
        intro x hx
        simp only [Level.advance, hstore] at hx
        have hnew : x.2.timestamp = start := BucketStore.advance_empty grouped |>.2 x hx
        rw [hnew]
        exact hstart
    | some o => exact (h.starts (by simp [hopen])).advance hstart

theorem AllPlaced.flushed (h : lv.AllPlaced gs) :
    ∀ x ∈ (lv.advance start).1, PlacedFrom gs lv.granularity x.timestamp := by
  cases hopen : lv.openStart with
  | none =>
      obtain ⟨grouped, hstore⟩ := h.fresh hopen
      simp only [Level.advance, hstore]
      rw [(BucketStore.advance_empty grouped).1]
      simp
  | some o => exact (h.starts (by simp [hopen])).flushed

/-- The bucket that a row is folded into is open or in memory, and so was what is flushed for it. -/
theorem AllPlaced.target (h : lv.AllPlaced gs) (start : Int64) :
    ∃ place flushed lv₁, lv.target start = (place, flushed, lv₁) ∧ lv₁.fold = lv.fold ∧
      (PlacedFrom gs lv.granularity start →
        lv₁.AllPlaced gs ∧ lv₁.openStart ≠ none ∧ PlacedFrom gs lv₁.granularity place) ∧
      ∀ x ∈ flushed, PlacedFrom gs lv.granularity x.timestamp := by
  rcases lv.target_cases start with htarget | ⟨o, hopen, htarget | htarget⟩
  · exact ⟨_, _, _, htarget, rfl, fun hstart => ⟨h.advance hstart, nofun, hstart⟩, h.flushed⟩
  · exact ⟨_, _, _, htarget, rfl, fun hstart => ⟨h, by simp [hopen], hstart⟩, by simp⟩
  · exact ⟨_, _, _, htarget, rfl, fun _ => ⟨h, by simp [hopen], h.opened o hopen⟩, by simp⟩

theorem AllPlaced.fold (h : lv.AllPlaced gs) (hopen : lv.openStart ≠ none)
    (hplace : PlacedFrom gs lv.granularity place) (isOpen : Bool) (key : String) (row : Event)
    (table : Holder) :
    Level.AllPlaced gs
      { lv with store := (lv.store.fold lv.fold place isOpen key row).2, table := table } where
  codes := h.codes
  fresh := fun hnone => absurd hnone hopen
  opened := h.opened
  starts := fun _ => (BucketStore.maintains_fold h.codes hplace isOpen key row _ (h.starts hopen)).1

/-- What a level does with a row: it rejects the row before anything has been changed, it comes to
an overflow, or it flushes rows of buckets that have been in memory. -/
inductive Ingests (gs : List Granularity) (lv : Level) (row : Event) :
    Except RollupError (List Event) × Level → Prop
  | rejects {cause : RollupError} (unplaced : ¬lv.granularity.Places row.timestamp) :
      Ingests gs lv row (.error cause, lv)
  | overflows {lv' : Level}
      (keeps : PlacedFrom gs lv.granularity row.timestamp → lv'.AllPlaced gs) :
      Ingests gs lv row (.error (.eval .overflow), lv')
  | flushes {flushed : List Event} {lv' : Level}
      (keeps : PlacedFrom gs lv.granularity row.timestamp → lv'.AllPlaced gs)
      (placed : ∀ x ∈ flushed, PlacedFrom gs lv.granularity x.timestamp) :
      Ingests gs lv row (.ok flushed, lv')

theorem AllPlaced.ingest (h : lv.AllPlaced gs) (row : Event) :
    lv.Ingests gs row (lv.ingest row) := by
  unfold Level.ingest
  cases hstart : lv.granularity.startTime row.timestamp with
  | error cause => exact .rejects fun ⟨start, hok⟩ => nomatch hstart.symm.trans hok
  | ok start =>
      obtain ⟨place, flushed, lv₁, htarget, hfold, hready, hflushed⟩ := h.target start
      have hcodes : ∀ c ∈ lv₁.fold.code, c.OnlyOverflows := hfold ▸ h.codes
      have hkeeps (table : Holder) (hrow : PlacedFrom gs lv.granularity row.timestamp) :=
        have ⟨hplaced, hopen, hplace⟩ := hready (hrow.startTime hstart)
        hplaced.fold hopen hplace (lv₁.openStart = some place) (lv₁.keyOf row) row table
      simp only [htarget]
      split
      · split
        · rename_i cause hresult
          rw [BucketStore.eq_overflow_of_fold hcodes hresult]
          exact .overflows (hkeeps lv₁.table)
        · exact .flushes (hkeeps _) hflushed
      · exact .overflows fun _ => h

theorem ingest_of_not_places (h : ¬lv.granularity.Places row.timestamp) :
    ∃ cause, lv.ingest row = (.error cause, lv) := by
  unfold ingest
  cases hstart : lv.granularity.startTime row.timestamp with
  | error cause => exact ⟨_, rfl⟩
  | ok start => exact absurd ⟨start, hstart⟩ h

theorem ingestAll_singleton (lv : Level) (row : Event) : lv.ingestAll [row] = lv.ingest row := by
  unfold ingestAll
  rcases lv.ingest row with ⟨_ | flushed, lv'⟩
  · rfl
  · simp [ingestAll, Except.map]

theorem placedFrom_coarser {f : Granularity} {rest : List Level}
    (hcoarser : ∀ next ∈ rest, f.rank ≤ next.granularity.rank)
    (hrows : ∀ row ∈ rows, PlacedFrom gs f row.timestamp) :
    ∀ next ∈ rest, ∀ row ∈ rows, PlacedFrom gs next.granularity row.timestamp :=
  fun next hnext row hrow => (hrows row hrow).mono (hcoarser next hnext)

/-- Rows that all granularities from one on can place come out, or it comes to an overflow. -/
def Yields (gs : List Granularity) (f : Granularity) : Except RollupError (List Event) → Prop
  | .error cause => cause = .eval .overflow
  | .ok flushed => ∀ x ∈ flushed, PlacedFrom gs f x.timestamp

/-- A level rejects no rows that it can place. -/
theorem AllPlaced.ingestAll (h : lv.AllPlaced gs) (hg : lv.granularity ∈ gs)
    (hrows : ∀ row ∈ rows, PlacedFrom gs lv.granularity row.timestamp) :
    (lv.ingestAll rows).2.AllPlaced gs ∧ Yields gs lv.granularity (lv.ingestAll rows).1 := by
  induction rows generalizing lv with
  | nil => exact ⟨h, by simp [Level.ingestAll, Yields]⟩
  | cons row rest ih =>
      obtain ⟨hrow, hrest⟩ := List.forall_mem_cons.1 hrows
      have hgranularity := congrArg Prod.fst (lv.schema_ingest row)
      have hingest := h.ingest row
      unfold Level.ingestAll
      rcases hrun : lv.ingest row with ⟨result, lv₁⟩
      rw [hrun] at hgranularity hingest
      cases hingest with
      | rejects unplaced => exact absurd (hrow _ hg (Nat.le_refl _)) unplaced
      | overflows keeps => exact ⟨keeps hrow, rfl⟩
      | @flushes flushed _ keeps placed =>
          replace hgranularity : lv₁.granularity = lv.granularity := hgranularity
          obtain ⟨hplaced, hyields⟩ := ih (keeps hrow) (hgranularity ▸ hg) (hgranularity ▸ hrest)
          refine ⟨hplaced, ?_⟩
          rw [hgranularity] at hyields
          dsimp only
          cases hothers : (lv₁.ingestAll rest).1 with
          | error cause =>
              rw [hothers] at hyields
              exact hyields
          | ok others =>
              rw [hothers] at hyields
              exact List.forall_mem_append.2 ⟨placed, hyields⟩

end Level

/-! ### The whole aggregation -/

namespace Rollup

variable {d : RollupDefinition} {gs : List Granularity} {levels : List Level} {rows : List Event}
  {r r₀ r' : Rollup} {e : Event} {cause : RollupError}

/-- The levels take in rows that they can place, up to an overflow. -/
theorem placed_cascade (hlevels : ∀ lv ∈ levels, lv.granularity ∈ gs ∧ lv.AllPlaced gs)
    (hsorted : levels.Pairwise (·.granularity.rank ≤ ·.granularity.rank))
    (hrows : ∀ lv ∈ levels, ∀ row ∈ rows, PlacedFrom gs lv.granularity row.timestamp) :
    (∀ lv ∈ (cascade levels rows).2, lv.AllPlaced gs) ∧
      ∀ cause, (cascade levels rows).1 = .error cause → cause = .eval .overflow := by
  induction levels generalizing rows with
  | nil => simp [cascade]
  | cons lv rest ih =>
      obtain ⟨⟨hg, hlv⟩, hrest⟩ := List.forall_mem_cons.1 hlevels
      obtain ⟨hcoarser, hsorted'⟩ := List.pairwise_cons.1 hsorted
      obtain ⟨hplaced, hyields⟩ := hlv.ingestAll hg (hrows lv List.mem_cons_self)
      have hothers : ∀ lv ∈ rest, lv.AllPlaced gs := fun lv hlv => (hrest lv hlv).2
      unfold cascade
      split
      · rename_i hrun
        rw [hrun] at hplaced hyields
        exact ⟨List.forall_mem_cons.2 ⟨hplaced, hothers⟩, fun cause h => by
          rw [← Except.error.inj h]
          exact hyields⟩
      · rename_i hrun
        rw [hrun] at hplaced
        exact ⟨List.forall_mem_cons.2 ⟨hplaced, hothers⟩, by simp⟩
      · rename_i flushed lv' _ hrun
        rw [hrun] at hplaced hyields
        obtain ⟨hcascade, herror⟩ := ih hrest hsorted' (Level.placedFrom_coarser hcoarser hyields)
        exact ⟨List.forall_mem_cons.2 ⟨hplaced, hcascade⟩, herror⟩

/-- A running aggregation with the given granularities, all of which can place what is in memory. -/
structure AllPlaced (gs : List Granularity) (r : Rollup) : Prop where
  granularities : r.levels.map (·.granularity) = gs
  levels : ∀ lv ∈ r.levels, lv.AllPlaced gs

theorem AllPlaced.mem (h : r.AllPlaced gs) :
    ∀ lv ∈ r.levels, lv.granularity ∈ gs ∧ lv.AllPlaced gs := fun lv hlv =>
  ⟨h.granularities ▸ List.mem_map_of_mem hlv, h.levels lv hlv⟩

theorem AllPlaced.sorted (h : r.AllPlaced gs) (hsorted : gs.Pairwise (·.rank ≤ ·.rank)) :
    r.levels.Pairwise (·.granularity.rank ≤ ·.granularity.rank) := by
  rwa [← h.granularities, List.pairwise_map] at hsorted

theorem timestamp_contribution {row : Event} (h : r.contribution e = .ok row) :
    row.timestamp = e.timestamp := by
  unfold contribution at h
  split at h
  · cases h
    rfl
  · cases h

/-- A rejection by the first level changes nothing. -/
theorem cascade_of_rejects {lv : Level} {rest : List Level} {row : Event}
    (h : lv.ingest row = (.error cause, lv)) :
    cascade (lv :: rest) [row] = (.error cause, lv :: rest) := by
  unfold cascade
  rw [Level.ingestAll_singleton, h]

/-- An event that the granularities place alike leaves nothing in memory that one of them cannot
place, whether or not it is rejected. -/
theorem AllPlaced.process (h : r.AllPlaced gs) (hsorted : gs.Pairwise (·.rank ≤ ·.rank))
    (he : e.kind = .current → PlacedAlike gs e.timestamp) : (r.process e).2.AllPlaced gs := by
  have hgranularities : (r.process e).2.levels.map (·.granularity) = gs := by
    have hschema := congrArg (List.map Prod.fst) (r.kin_process e).schema
    simp only [List.map_map] at hschema
    exact hschema.trans h.granularities
  refine ⟨hgranularities, ?_⟩
  rcases r.process_cases e with ⟨result, hprocess⟩ | ⟨row, hcurrent, hrow, hprocess⟩ <;>
    rw [hprocess]
  · exact h.levels
  · have hplaced := he hcurrent
    rw [← timestamp_contribution hrow] at hplaced
    cases hr : r.levels with
    | nil => simp [cascade]
    | cons lv rest =>
        have hmem := h.mem
        have hranks := h.sorted hsorted
        rw [hr] at hmem hranks
        by_cases hplaces : lv.granularity.Places row.timestamp
        · have hhead : lv.granularity ∈ gs.head? := by simp [← h.granularities, hr]
          have hall := hplaced lv.granularity hhead hplaces
          have hrows : ∀ next ∈ lv :: rest, ∀ x ∈ [row],
              PlacedFrom gs next.granularity x.timestamp := by
            intro _ _ x hx g hg _
            rw [List.mem_singleton.1 hx]
            exact hall g hg
          exact (placed_cascade hmem hranks hrows).1
        · obtain ⟨cause, hrejects⟩ := Level.ingest_of_not_places hplaces
          rw [cascade_of_rejects hrejects]
          exact fun lv hlv => (hmem lv hlv).2

theorem AllPlaced.processAll {events : List Event} (h : r.AllPlaced gs)
    (hsorted : gs.Pairwise (·.rank ≤ ·.rank))
    (hevents : ∀ x ∈ events, x.kind = .current → PlacedAlike gs x.timestamp) :
    (r.processAll events).AllPlaced gs := by
  induction events generalizing r with
  | nil => exact h
  | cons e rest ih =>
      obtain ⟨he, hrest⟩ := List.forall_mem_cons.1 hevents
      exact ih (h.process hsorted he) hrest

/-- Only the finest level rejects. -/
theorem AllPlaced.eq_of_error (h : r.AllPlaced gs) (hsorted : gs.Pairwise (·.rank ≤ ·.rank))
    (hrun : r.process e = (.error cause, r')) (hcause : cause ≠ .eval .overflow) : r' = r := by
  rcases r.process_cases e with ⟨result, hprocess⟩ | ⟨row, -, -, hprocess⟩ <;>
    rw [hprocess] at hrun
  · exact (Prod.mk.inj hrun).2.symm
  · cases hr : r.levels with
    | nil =>
        rw [hr] at hrun
        cases hrun
    | cons lv rest =>
        have hmem := h.mem
        have hranks := h.sorted hsorted
        rw [hr] at hrun hmem hranks
        obtain ⟨⟨-, hlv⟩, hrest⟩ := List.forall_mem_cons.1 hmem
        obtain ⟨hcoarser, hranks'⟩ := List.pairwise_cons.1 hranks
        have hingest := hlv.ingest row
        rcases hstep : lv.ingest row with ⟨result, lv₁⟩
        rw [hstep] at hingest
        cases hingest with
        | rejects unplaced =>
            rw [cascade_of_rejects hstep] at hrun
            rw [← (Prod.mk.inj hrun).2, ← hr]
        | overflows keeps =>
            simp only [cascade, Level.ingestAll_singleton, hstep] at hrun
            cases hrun
            exact absurd rfl hcause
        | @flushes flushed _ keeps placed =>
            simp only [cascade, Level.ingestAll_singleton, hstep] at hrun
            cases flushed with
            | nil => cases hrun
            | cons first others =>
                -- The coarser levels can place what was in memory.
                obtain ⟨-, herror⟩ :=
                  placed_cascade hrest hranks' (Level.placedFrom_coarser hcoarser placed)
                exact absurd (herror cause (Prod.mk.inj hrun).1) hcause

/-- An aggregation has a level for every granularity, and nothing in memory before any event. -/
theorem placed_withTables {tables : List (Granularity × Holder)} {context : Context}
    (h : withTables d tables context = .ok r) : r.AllPlaced d.granularities := by
  obtain ⟨layout, hlayout, h⟩ := Run.bind_eq_ok.1 h
  split at h
  · cases h
  · rename_i htables
    obtain ⟨fold, hfold, h⟩ := Run.bind_eq_ok.1 h
    obtain ⟨incoming, -, h⟩ := Run.bind_eq_ok.1 h
    cases h
    refine ⟨?_, fun lv hlv => ?_⟩
    · rw [levelsOver, List.map_filterMap]
      refine (List.filterMap_congr fun g hg => ?_).trans List.filterMap_some
      obtain ⟨table, htable⟩ : ∃ table, tables.lookup g = some table := by
        cases hlookup : tables.lookup g with
        | none => exact absurd (by rw [hlookup]; rfl) (List.find?_eq_none.1 htables g hg)
        | some table => exact ⟨table, rfl⟩
      rw [htable]
      rfl
    · obtain ⟨g, -, hg⟩ := List.mem_filterMap.1 hlv
      obtain ⟨table, -, rfl⟩ := Option.map_eq_some_iff.1 hg
      exact
        { codes := RollupLayout.onlyOverflows_base hlayout hfold
          fresh := fun _ => ⟨layout.isGrouped, rfl⟩
          opened := nofun
          starts := fun h => absurd rfl h }

/-- A rejected event leaves the aggregation as it was, with all that is in memory, the open buckets
and the tables, in every state that events lead to, rejected or not: as long as every one of them
that the finest granularity can place can be placed by all the others. An aggregate that overflows
does not complete. -/
theorem eq_of_rejected {tables : List (Granularity × Holder)} {context : Context}
    (haccepted : d.Accepted) (hstart : withTables d tables context = .ok r₀) (events : List Event)
    (hevents : ∀ x ∈ events, x.kind = .current → PlacedAlike d.granularities x.timestamp)
    (hrejected : (r₀.processAll events).process e = (.error cause, r'))
    (hcause : cause ≠ .eval .overflow) : r' = r₀.processAll events :=
  have hsorted := haccepted.sorted.imp Nat.le_of_lt
  ((placed_withTables hstart).processAll hsorted hevents).eq_of_error hsorted hrejected hcause

/-! ### Trades that are out of the range of the calendar -/

namespace Trades

/-- The trades by second and by year. Every bucket is flushed as soon as it is closed. -/
def yearly : RollupDefinition :=
  { definition with granularities := [.seconds, .years], bufferSize := 0 }

theorem isSome_startYearly : (Rollup.start yearly .standard).toOption.isSome = true := by
  decide +kernel

def startedYearly : Rollup := (Rollup.start yearly .standard).toOption.get isSome_startYearly

/-- A second that lies in no year of the calendar. -/
def farSecond : Int64 := 1000000000000000000

end Trades

/-- The least timestamp lies in no second, and is rejected after two trades. -/
theorem eq_of_rejected_trades :
    ∃ tables cause r', withTables Trades.definition tables .standard = .ok Trades.started ∧
      Trades.second.process (Trades.trade Int64.minValue "A" 1) = (.error cause, r') ∧
      r' = Trades.second := by
  obtain ⟨tables, htables⟩ := exists_withTables Trades.start_eq
  have hsecond : Trades.started.processAll [Trades.trade 1000 "A" 5, Trades.trade 2500 "B" 3] =
      Trades.second := rfl
  have hresult : (Trades.second.process (Trades.trade Int64.minValue "A" 1)).1 =
      .error (.eval (.invalidTimestamp (.outOfRange Int64.minValue))) := by decide +kernel
  rcases hprocess : Trades.second.process (Trades.trade Int64.minValue "A" 1) with ⟨result, r'⟩
  rw [hprocess] at hresult
  obtain rfl : result = _ := hresult
  have hunchanged := eq_of_rejected Trades.accepted htables
    [Trades.trade 1000 "A" 5, Trades.trade 2500 "B" 3] (by decide +kernel)
    (by rw [hsecond]; exact hprocess) (by simp)
  exact ⟨tables, _, r', htables, rfl, hunchanged.trans hsecond⟩

/-- The second trade is rejected because the year of the first is out of range, after the row of the
first second has gone to the table. -/
theorem changed_by_rejected :
    let first := (Trades.startedYearly.process (Trades.trade Trades.farSecond "A" 5)).2
    let second := first.process (Trades.trade (Trades.farSecond + 1000) "A" 3)
    Rollup.start Trades.yearly .standard = .ok Trades.startedYearly ∧
      (Trades.startedYearly.process (Trades.trade Trades.farSecond "A" 5)).1 = .ok () ∧
      second.1 = .error (.eval (.invalidTimestamp (.outOfRange Trades.farSecond))) ∧
      (first.tables.map fun t => t.2.rows) = [[], []] ∧
      (second.2.tables.map fun t => t.2.rows) =
        [[Trades.summary Trades.farSecond "A" 1 5], []] := by
  refine ⟨Trades.eq_ok_of_isSome Trades.isSome_startYearly, ?_⟩
  decide +kernel

end Rollup

end EventQuery
