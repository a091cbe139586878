import EventQuery.Proofs.Rollup.Bounds
import EventQuery.Proofs.Rollup.Exact

/-!
Lookups that pass over the memory. What a lookup folds from the memory starts where the buckets in
memory do, and the test of their span says for each of these starts whether it can be in the range.
So a lookup loses no row by the test, and it gives what it would give if it went through the memory
in any case.
-/

namespace EventQuery

open Allot Compile

/-! ### The starts of folded buckets -/

namespace FoldedBuckets

variable {m m' : FoldedBuckets} {start : Int64} {key : String} {fresh : Bucket}
  {f : Bucket → Except EvalError Unit × Bucket} {result : Except EvalError Unit}

/-- Every start has buckets, and these start there. -/
structure Placed (m : FoldedBuckets) : Prop where
  nonempty : ∀ p ∈ m, p.2 ≠ []
  timestamp : ∀ p ∈ m, ∀ q ∈ p.2, q.2.timestamp = p.1

/-- The timestamps of the buckets are the starts. -/
theorem Placed.mem_timestamps (h : m.Placed) (o : Int64) :
    o ∈ m.buckets.map (·.timestamp) ↔ o ∈ m.map (·.1) := by
  rw [buckets, List.mem_map, List.mem_map]
  constructor
  · rintro ⟨b, hb, rfl⟩
    obtain ⟨p, hp, hb⟩ := List.mem_flatMap.1 hb
    obtain ⟨q, hq, rfl⟩ := List.mem_map.1 hb
    exact ⟨p, hp, (h.timestamp p hp q hq).symm⟩
  · rintro ⟨p, hp, rfl⟩
    obtain ⟨q, hq⟩ := List.exists_mem_of_ne_nil _ (h.nonempty p hp)
    exact ⟨q.2, List.mem_flatMap.2 ⟨p, hp, List.mem_map_of_mem hq⟩, h.timestamp p hp q hq⟩

theorem Placed.update (h : m.Placed) (hfresh : fresh.timestamp = start)
    (hf : ∀ b, (f b).2.timestamp = b.timestamp)
    (hupdate : FoldedBuckets.update start key fresh f m = (result, m')) : m'.Placed :=
  ⟨nonempty_update h.nonempty hupdate, timestamp_update h.timestamp hfresh hf hupdate⟩

end FoldedBuckets

namespace Retrieval

variable {code : FoldCode} {g : Granularity} {entries : List (Option String × Bucket)}
  {m m' : FoldedBuckets}

/-- Folding places every entry at the start of its bucket. -/
theorem placed_foldInto (hm : m.Placed) (h : foldInto code g entries m = .ok m') :
    m'.Placed ∧ (∀ e ∈ entries, ∃ o, g.startTime e.2.timestamp = .ok o) ∧
      ∀ o, o ∈ m'.map (·.1) ↔
        o ∈ m.map (·.1) ∨ ∃ e ∈ entries, g.startTime e.2.timestamp = .ok o := by
  induction entries generalizing m with
  | nil =>
      cases h
      exact ⟨hm, by simp, by simp⟩
  | cons e rest ih =>
      obtain ⟨key, b⟩ := e
      unfold foldInto at h
      split at h
      · cases h
      · rename_i start hstart
        split at h
        · cases h
        · rename_i m₁ hupdate
          have hplaced : m₁.Placed := by
            refine hm.update ?_ ?_ hupdate
            · rfl
            · exact fun b => rfl
          obtain ⟨hplaced', hrest, hstarts⟩ := ih hplaced h
          refine ⟨hplaced', List.forall_mem_cons.2 ⟨⟨start, hstart⟩, hrest⟩, fun o => ?_⟩
          rw [hstarts o, FoldedBuckets.mem_starts_update hupdate o, List.exists_mem_cons_iff,
            hstart, Except.ok.injEq, eq_comm (a := start), or_assoc, or_left_comm]

/-- The starts of what a lookup folds from the memory are those of the entries in memory. -/
theorem folded_starts {c : Retrieval} {stores : List BucketStore}
    (h : c.folded g stores = .ok m) :
    (∀ e ∈ stores.flatMap BucketStore.entries, ∃ o, g.startTime e.2.timestamp = .ok o) ∧
      ∀ o, o ∈ m.buckets.map (·.timestamp) ↔
        ∃ e ∈ stores.flatMap BucketStore.entries, g.startTime e.2.timestamp = .ok o := by
  obtain ⟨hplaced, hentries, hstarts⟩ := placed_foldInto ⟨by simp, by simp⟩ h
  refine ⟨hentries, fun o => ?_⟩
  rw [hplaced.mem_timestamps, hstarts o]
  simp

end Retrieval

/-! ### The conditions of a lookup as tests of timestamps -/

/-- The rows of every aggregation begin with their timestamp. -/
theorem RollupLayout.attribute_zero_of_ofDefinition {d : RollupDefinition} {layout : RollupLayout}
    (h : ofDefinition d = .ok layout) :
    layout.internal.attributes[0]? = some ⟨timestampColumn, .long⟩ := by
  obtain ⟨groups, -, h⟩ := Run.bind_eq_ok.1 h
  obtain ⟨columns, -, h⟩ := Run.bind_eq_ok.1 h
  cases h
  rfl

namespace Retrieval

variable {context : Context} {layout : RollupLayout} {tables : List (Granularity × Holder)}
  {on per : Expr} {range : Within} {matching : Definition} {c : Retrieval} {rows : SourceRows}
  {frame : Frame} {g : Granularity} {stores : List BucketStore} {folded : FoldedBuckets}

/-- For a matching event all conditions of a lookup are tests of the timestamp of a row. -/
structure Ranges (c : Retrieval) (rows : SourceRows) (frame : Frame)
    (lower upper : Except EvalError (Int64 → Bool)) : Prop
    extends c.Ends rows frame lower upper where
  contains : ∀ row : Event, row.get 0 = .long row.timestamp →
    c.inMemory.contains rows frame (.ofEvents [row]) =
      Run.ofExcept ((spans lower upper row.timestamp row.timestamp).mapError .eval)
  find : ∀ events : List Event, (∀ row ∈ events, row.get 0 = .long row.timestamp) →
    c.inMemory.find rows frame (.ofEvents events) =
      Run.ofExcept (Run.passing (fun e =>
        (spans lower upper e.event.timestamp e.event.timestamp).mapError .eval)
        (Container.ofEvents events).events)

theorem exists_scanning {e : Expr} {P : (Int64 → Bool) → Prop} {o : Operator}
    (he : e.Judged context (.join matching layout.internal (some layout.id)) P)
    (h : (compileScan context layout.id matching layout.internal e).Gives o) :
    ∃ code : Code, o = .scanning code ∧ code.Judges P ∧
      Compiles context (MatchLayout.join matching layout.internal (some layout.id)).layout e
        code := by
  obtain ⟨n, m, h⟩ := h
  obtain ⟨code, hcode, rfl⟩ := Operator.compile_unindexed (mapError_eq_ok.1 h) rfl nofun
  have hcode := (condition_eq_ok.1 hcode).1
  exact ⟨code, rfl, he.judges hcode, compiles_of_code context e he.free hcode⟩

theorem Compiled.exists_ranges (h : Compiled context layout tables on range per matching c)
    (hlayout : layout.internal.attributes[0]? = some ⟨timestampColumn, .long⟩)
    (hrange : range.isOverMatching context (.join matching layout.internal (some layout.id)) = true)
    (rows : SourceRows) (frame : Frame) : ∃ lower upper, c.Ranges rows frame lower upper := by
  obtain ⟨since, before, hconditions, -, ⟨n, m, hinMemory⟩, hsince, hbefore⟩ := h.conditions
  obtain ⟨hrises, hfalls⟩ := Within.judged_conditions hlayout hrange hconditions
  obtain ⟨l, hl, hlJudges, hlCompiles⟩ := exists_scanning hrises hsince
  obtain ⟨r, hr, hrJudges, hrCompiles⟩ := exists_scanning hfalls hbefore
  -- The whole condition has the code of its two halves.
  obtain ⟨both, hboth, hinMemory⟩ :=
    Operator.compile_unindexed (mapError_eq_ok.1 hinMemory) rfl nofun
  obtain ⟨l', r', k, hl', hr', -, -, rfl⟩ := code_and.1 (condition_eq_ok.1 hboth).1
  obtain rfl := hlCompiles.code_eq hl'
  obtain rfl := hrCompiles.code_eq hr'
  obtain ⟨p, hp, hpRises⟩ := hlJudges.decision rows frame
  obtain ⟨q, hq, hqFalls⟩ := hrJudges.decision rows frame
  have hstateless : (Code.and l' r').isStateless = true := by
    rw [Code.isStateless, hlJudges.stateless, hrJudges.stateless, Bool.and_self]
  have hdecision (row : Event) (hrow : row.get 0 = .long row.timestamp) :
      (Code.and l' r').decision rows (frame.setSlot 1 (some row)) =
        spans p q row.timestamp row.timestamp := by
    rw [Code.decision_and, hp row hrow, hq row hrow, spans]
  refine ⟨p, q, ⟨hpRises, hqFalls, fun row hrow => ?_, fun row hrow => ?_⟩, fun row hrow => ?_,
    fun events hevents => ?_⟩
  · rw [hl, Operator.contains_row hlJudges.stateless, hp row hrow]
  · rw [hr, Operator.contains_row hrJudges.stateless, hq row hrow]
  · rw [hinMemory]
    exact (Operator.contains_row hstateless row).trans (by rw [hdecision row hrow])
  · rw [hinMemory]
    refine Run.filterM_ofExcept fun e he => ?_
    have hmem : e.event ∈ events := by
      rw [← Container.events_ofEvents events]
      exact List.mem_map_of_mem he
    exact (Operator.accepts_scanning hstateless e).trans
      (by rw [hdecision e.event (hevents _ hmem)])

section Live

variable {lower upper : Except EvalError (Int64 → Bool)}

/-- What the test of the span says is true of all rows that are folded from the memory: it passes
over them only where none is in the range, and it fails only where going through them does. -/
theorem Ranges.inMemoryInRange_spec (h : c.Ranges rows frame lower upper)
    (hfold : c.folded g stores = .ok folded) :
    c.inMemoryInRange rows frame g stores = pure true ∨
      (c.inMemoryInRange rows frame g stores = pure false ∧
        ∀ b ∈ folded.buckets, spans lower upper b.timestamp b.timestamp = .ok false) ∨
      ∃ x, c.inMemoryInRange rows frame g stores = Run.ofExcept (.error (.lookup (.eval x))) ∧
        (∀ b ∈ folded.buckets, spans lower upper b.timestamp b.timestamp = .ok false ∨
          spans lower upper b.timestamp b.timestamp = .error x) ∧
        ∃ b ∈ folded.buckets, spans lower upper b.timestamp b.timestamp = .error x := by
  obtain ⟨hentries, hstarts⟩ := folded_starts hfold
  have hstart (b : Bucket) (hb : b ∈ folded.buckets) :
      ∃ e ∈ stores.flatMap BucketStore.entries, g.startTime e.2.timestamp = .ok b.timestamp :=
    (hstarts b.timestamp).1 (List.mem_map_of_mem hb)
  rcases between_span stores with ⟨hspan, hnone⟩ | ⟨ends, hspan, -⟩
  · refine .inr (.inl ⟨by rw [inMemoryInRange, hspan], fun b hb => ?_⟩)
    obtain ⟨e, he, -⟩ := hstart b hb
    rw [hnone] at he
    cases he
  · obtain ⟨hold, hnew⟩ := mem_of_span hspan
    obtain ⟨first, hfirst, hold⟩ := List.mem_map.1 hold
    obtain ⟨last, hlast, hnew⟩ := List.mem_map.1 hnew
    obtain ⟨oldest, holdest⟩ := hentries first hfirst
    obtain ⟨newest, hnewest⟩ := hentries last hlast
    rw [hold] at holdest
    rw [hnew] at hnewest
    have hcheck := h.inMemoryInRange_eq hspan hnewest holdest
    cases hspans : spans lower upper newest oldest with
    | ok live =>
        rw [hspans] at hcheck
        cases live with
        | true => exact .inl hcheck
        | false =>
            refine .inr (.inl ⟨hcheck, fun b hb => ?_⟩)
            obtain ⟨e, he, hb⟩ := hstart b hb
            exact h.spans_of_inMemoryInRange (congrFun hcheck ⟨[]⟩) e he _ hb
    | error x =>
        rw [hspans] at hcheck
        obtain ⟨hfails, hall⟩ := spans_eq_error hspans
        -- The newest bucket in memory has been folded into a row as well.
        obtain ⟨b, hb, htimestamp⟩ :=
          List.mem_map.1 ((hstarts newest).2 ⟨last, hlast, hnew ▸ hnewest⟩)
        exact .inr (.inr ⟨x, hcheck, fun b _ => hall b.timestamp, b, hb, htimestamp ▸ hfails⟩)

theorem mem_candidates {e : StoredEvent} {bs : List Bucket}
    (he : e ∈ (Container.ofEvents (bs.map (·.toEvent))).events) :
    ∃ b ∈ bs, e.event.timestamp = b.timestamp := by
  have hmem := List.mem_map_of_mem (f := StoredEvent.event) he
  rw [Container.events_ofEvents] at hmem
  obtain ⟨b, hb, heq⟩ := List.mem_map.1 hmem
  exact ⟨b, hb, heq ▸ rfl⟩

theorem exists_candidate {b : Bucket} {bs : List Bucket} (hb : b ∈ bs) :
    ∃ e ∈ (Container.ofEvents (bs.map (·.toEvent))).events, e.event.timestamp = b.timestamp := by
  have hmem : b.toEvent ∈ bs.map (·.toEvent) := List.mem_map_of_mem hb
  rw [← Container.events_ofEvents (bs.map (·.toEvent))] at hmem
  obtain ⟨e, he, heq⟩ := List.mem_map.1 hmem
  exact ⟨e, he, heq ▸ rfl⟩

theorem get_toEvent {bs : List Bucket} :
    ∀ row ∈ bs.map (·.toEvent), row.get 0 = .long row.timestamp := by
  intro row hrow
  obtain ⟨b, -, rfl⟩ := List.mem_map.1 hrow
  rfl

theorem Ranges.find_eq_nil (h : c.Ranges rows frame lower upper) {bs : List Bucket}
    (hnone : ∀ b ∈ bs, spans lower upper b.timestamp b.timestamp = .ok false) :
    c.inMemory.find rows frame (.ofEvents (bs.map (·.toEvent))) = Run.ofExcept (.ok []) := by
  rw [h.find _ get_toEvent, Run.passing_eq_nil]
  intro e he
  obtain ⟨b, hb, htimestamp⟩ := mem_candidates he
  rw [htimestamp, hnone b hb]
  rfl

theorem Ranges.find_eq_error (h : c.Ranges rows frame lower upper) {bs : List Bucket}
    {x : EvalError}
    (hall : ∀ b ∈ bs, spans lower upper b.timestamp b.timestamp = .ok false ∨
      spans lower upper b.timestamp b.timestamp = .error x)
    (hfails : ∃ b ∈ bs, spans lower upper b.timestamp b.timestamp = .error x) :
    c.inMemory.find rows frame (.ofEvents (bs.map (·.toEvent))) =
      Run.ofExcept (.error (.eval x)) := by
  rw [h.find _ get_toEvent, Run.passing_eq_error]
  · intro e he
    obtain ⟨b, hb, htimestamp⟩ := mem_candidates he
    rw [htimestamp]
    exact (hall b hb).imp (fun hb => by rw [hb]; rfl) fun hb => by rw [hb]; rfl
  · obtain ⟨b, hb, hx⟩ := hfails
    obtain ⟨e, he, htimestamp⟩ := exists_candidate hb
    exact ⟨e, he, by rw [htimestamp, hx]; rfl⟩

end Live

/-- A lookup that goes through the memory in any case. -/
def findMerging (r : Retrieval) (rows : SourceRows) (matching : Frame) (g : Granularity)
    (table : Holder) (stores : List BucketStore) :
    Run RollupError (List Event × RetrievalTrace) := do
  let within ← Run.ofExcept (r.withinFor g)
  let persisted ← (within.find rows matching (.indexed table table.capability)).mapError .lookup
  let persisted := persisted.map (·.event)
  let folded ← Run.ofExcept (r.folded g stores)
  let candidates := folded.buckets.map (·.toEvent)
  let live ← (r.inMemory.find rows matching (.ofEvents candidates)).mapError .lookup
  let live := live.map (·.event)
  let outputs ← r.outputAll (persisted ++ live)
  let _ ← (Code.runAll noRows r.outputs (.single (.reset 0))).mapError .eval
  let found ← (r.on.find rows matching (.ofEvents outputs)).mapError .lookup
  return (found.map (·.event), ⟨persisted.length, true, candidates.length, live.length⟩)

/-- A lookup that passes over the memory gives what it would give without the test, and fails where
it would fail. -/
theorem Ranges.find_eq {lower upper : Except EvalError (Int64 → Bool)}
    (h : c.Ranges rows frame lower upper) (hfold : c.folded g stores = .ok folded)
    (table : Holder) :
    Prod.fst <$> c.find rows frame g table stores =
      Prod.fst <$> c.findMerging rows frame g table stores := by
  unfold Retrieval.find findMerging
  simp only [map_bind, map_pure, hfold, Run.ofExcept_ok_bind]
  congr 1
  funext within
  congr 1
  funext persisted
  rcases h.inMemoryInRange_spec hfold with hcheck | ⟨hcheck, hnone⟩ | ⟨x, hcheck, hall, hfails⟩
  · rw [hcheck]
    simp
  · rw [hcheck, h.find_eq_nil hnone, Run.mapError_ofExcept]
    simp [Except.mapError]
  · rw [hcheck, h.find_eq_error hall hfails, Run.mapError_ofExcept]
    rfl

/-! ### Lookups against lookups that go through the memory -/

/-- The test of the span hides no row. Where it passes over the memory no row that is folded from
there is in the range, and a lookup gives the rows of one that goes through the memory in any case.
The bounds of the range are constants or expressions over the matching event. -/
theorem find_eq_findMerging {d : RollupDefinition} {n n' : Nat}
    (hlayout : RollupLayout.ofDefinition d = .ok layout)
    (hcompile : compile context layout tables on range per matching n = .ok (c, n'))
    (hrange : range.isOverMatching context (.join matching layout.internal (some layout.id)) = true)
    (hfold : c.folded g stores = .ok folded) (rows : SourceRows) (frame : Frame) :
    (∀ m m', c.inMemoryInRange rows frame g stores m = (.ok false, m') →
      ∀ b ∈ folded.buckets, ∀ k,
        c.inMemory.contains rows frame (.ofEvents [b.toEvent]) k = (.ok false, k)) ∧
      ∀ table, Prod.fst <$> c.find rows frame g table stores =
        Prod.fst <$> c.findMerging rows frame g table stores := by
  obtain ⟨lower, upper, hranges⟩ := (compiled_of_compile hcompile).exists_ranges
    (RollupLayout.attribute_zero_of_ofDefinition hlayout) hrange rows frame
  refine ⟨fun m m' hcheck b hb k => ?_, hranges.find_eq hfold⟩
  rcases hranges.inMemoryInRange_spec hfold with hlive | ⟨-, hnone⟩ | ⟨x, hfails, -⟩
  · rw [hlive] at hcheck
    cases (Prod.mk.inj hcheck).1
  · rw [hranges.contains b.toEvent rfl]
    exact congrFun (congrArg (fun r => Run.ofExcept (r.mapError LookupError.eval)) (hnone b hb)) k
  · rw [hfails] at hcheck
    cases (Prod.mk.inj hcheck).1

end Retrieval

/-! ### Trades, looked up for an order -/

namespace Rollup.Trades

theorem isSome_layout : (RollupLayout.ofDefinition definition).toOption.isSome = true := by
  decide +kernel

def layout : RollupLayout := (RollupLayout.ofDefinition definition).toOption.get isSome_layout

/-- Orders name the time that they ask for. -/
def order : Definition := ⟨"Order", [⟨"from", .long⟩, ⟨"to", .string⟩]⟩

def asked : Within := .range (.var ⟨"from", some "Order"⟩) (.var ⟨"to", some "Order"⟩)

theorem isSome_perOrder : (Retrieval.compile .standard layout started.tables (.const (.bool true))
    asked (.const (.string "minutes")) order 0).toOption.isSome = true := by
  decide +kernel

/-- A lookup of the minutes that an order asks for. -/
def perOrder : Retrieval × Nat :=
  (Retrieval.compile .standard layout started.tables (.const (.bool true)) asked
    (.const (.string "minutes")) order 0).toOption.get isSome_perOrder

theorem isSome_minutes : (perOrder.1.folded .minutes
    (third.storesUpTo .minutes)).toOption.isSome = true := by
  decide +kernel

/-- The minutes of three trades. -/
def minutes : FoldedBuckets :=
  (perOrder.1.folded .minutes (third.storesUpTo .minutes)).toOption.get isSome_minutes

/-- An order for the time from the third minute on. -/
def late : Frame := .single (.current 0 [.long 120000, .string "1970-01-01 00:03:00"])

end Rollup.Trades

namespace Retrieval

open Rollup.Trades

/-- The trades are older than what the order asks for. -/
theorem find_eq_findMerging_trades :
    perOrder.1.inMemoryInRange noRows late .minutes (third.storesUpTo .minutes) ⟨[]⟩ =
        (.ok false, ⟨[]⟩) ∧
      minutes.buckets.map (·.timestamp) = [0, 0, 60000] ∧
      (∀ b ∈ minutes.buckets, ∀ k,
        perOrder.1.inMemory.contains noRows late (.ofEvents [b.toEvent]) k = (.ok false, k)) ∧
      ∀ table,
        Prod.fst <$> perOrder.1.find noRows late .minutes table (third.storesUpTo .minutes) =
          Prod.fst <$>
            perOrder.1.findMerging noRows late .minutes table (third.storesUpTo .minutes) := by
  have hcheck : perOrder.1.inMemoryInRange noRows late .minutes (third.storesUpTo .minutes) ⟨[]⟩ =
      (.ok false, ⟨[]⟩) := by
    decide +kernel
  obtain ⟨hhides, hfind⟩ := find_eq_findMerging (eq_ok_of_isSome isSome_layout)
    (eq_ok_of_isSome isSome_perOrder) rfl (eq_ok_of_isSome isSome_minutes) noRows late
  exact ⟨hcheck, by decide +kernel, hhides _ _ hcheck, hfind⟩

end Retrieval

end EventQuery
