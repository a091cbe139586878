import EventQuery.Proofs.Partition.Allotment
import EventQuery.Proofs.Rollup.Exact

/-!
Sessions: events and lookups in any order. A lookup leaves the aggregation as it is, and one whose
conditions call no aggregates has no memory, so what it finds depends on the events that have been
processed and on nothing else: it is what the lookup finds when it is compiled anew.
-/

namespace EventQuery

/-! ### What a lookup is compiled against does not change -/

namespace Holder

variable {h : Holder}

theorem index?_isSome (h : Holder) (name : String) :
    (h.index? name).isSome = h.indexes.any (·.name = name) := by
  rw [Bool.eq_iff_iff, index?, List.find?_isSome, List.any_eq_true]

theorem capability_add (h : Holder) (event : Event) :
    (h.add event).2.capability = h.capability := by
  rw [add_eq]
  split
  · rfl
  · have hindex (name : String) :
        ((h.accept event).index? name).isSome = (h.index? name).isSome := by
      rw [index?_isSome, index?_isSome, accept, List.any_map]
      rfl
    simp only [capability, Capability.mk.injEq]
    refine ⟨rfl, funext fun name => ?_, funext fun name => funext fun op => ?_⟩
    · rw [isIndexed, isIndexed, hindex]
      rfl
    · rw [supports, supports, hindex]
      rfl

theorem capability_addAll (h : Holder) (events : List Event) :
    (h.addAll events).2.capability = h.capability := by
  induction events generalizing h with
  | nil => rfl
  | cons event rest ih => exact (ih (h.add event).2).trans (h.capability_add event)

end Holder

namespace Level

/-- What a lookup is compiled against. -/
def schema (l : Level) : Granularity × Capability := (l.granularity, l.table.capability)

theorem schema_ingest (l : Level) (row : Event) : (l.ingest row).2.schema = l.schema := by
  have htarget (start : Int64) : (l.target start).2.2.schema = l.schema := by
    rcases l.target_cases start with h | ⟨o, -, h | h⟩ <;> rw [h]
    rfl
  unfold ingest
  split
  · rfl
  · rename_i start _
    split
    · dsimp only
      split
      · exact htarget start
      · refine Eq.trans ?_ (htarget start)
        exact congrArg (Prod.mk _) (Holder.capability_addAll _ _)
    · rfl

theorem schema_ingestAll (l : Level) (rows : List Event) :
    (l.ingestAll rows).2.schema = l.schema := by
  induction rows generalizing l with
  | nil => rfl
  | cons row rest ih =>
      have hrow := l.schema_ingest row
      unfold ingestAll
      rcases hrun : l.ingest row with ⟨_ | flushed, l'⟩ <;> rw [hrun] at hrow
      · exact hrow
      · exact (ih l').trans hrow

end Level

namespace Rollup

/-- The aggregation after several events, whether or not they are rejected. -/
def processAll (r : Rollup) (events : List Event) : Rollup :=
  events.foldl (fun r e => (r.process e).2) r

theorem layout_of_withTables {d : RollupDefinition} {tables : List (Granularity × Holder)}
    {context : Context} {r : Rollup} (h : withTables d tables context = .ok r) :
    RollupLayout.ofDefinition d = .ok r.layout := by
  obtain ⟨layout, hlayout, h⟩ := Run.bind_eq_ok.1 h
  split at h
  · cases h
  · obtain ⟨fold, -, h⟩ := Run.bind_eq_ok.1 h
    obtain ⟨incoming, -, h⟩ := Run.bind_eq_ok.1 h
    cases h
    exact hlayout

/-- An aggregation over tables of its own is one over given tables. -/
theorem exists_withTables {d : RollupDefinition} {context : Context} {r : Rollup}
    (h : Rollup.start d context = .ok r) : ∃ tables, withTables d tables context = .ok r := by
  obtain ⟨layout, -, h⟩ := Run.bind_eq_ok.1 h
  obtain ⟨tables, -, h⟩ := Run.bind_eq_ok.1 h
  exact ⟨tables, h⟩

/-- Two states of one aggregation. Lookups are compiled alike against both. -/
structure Kin (r r' : Rollup) : Prop where
  layout : r'.layout = r.layout
  context : r'.context = r.context
  schema : r'.levels.map Level.schema = r.levels.map Level.schema

theorem schema_cascade (levels : List Level) (rows : List Event) :
    (cascade levels rows).2.map Level.schema = levels.map Level.schema := by
  induction levels generalizing rows with
  | nil => rfl
  | cons l rest ih =>
      have hl := l.schema_ingestAll rows
      unfold cascade
      split
      · rename_i hrun
        rw [hrun] at hl
        simp [hl]
      · rename_i hrun
        rw [hrun] at hl
        simp [hl]
      · rename_i hrun
        rw [hrun] at hl
        simp [hl, ih]

/-- An event changes nothing, or the row that it contributes goes through the levels. -/
theorem process_cases (r : Rollup) (e : Event) :
    (∃ result, r.process e = (result, r)) ∨
      ∃ row, e.kind = .current ∧ r.contribution e = .ok row ∧
        r.process e =
          ((cascade r.levels [row]).1, { r with levels := (cascade r.levels [row]).2 }) := by
  unfold process
  split
  · exact .inl ⟨_, rfl⟩
  · rename_i hcurrent
    split
    · exact .inl ⟨_, rfl⟩
    · rename_i row hrow
      exact .inr ⟨row, not_not.1 hcurrent, hrow, rfl⟩

theorem kin_process (r : Rollup) (e : Event) : r.Kin (r.process e).2 := by
  rcases r.process_cases e with ⟨result, h⟩ | ⟨row, -, -, h⟩ <;> rw [h]
  · exact ⟨rfl, rfl, rfl⟩
  · exact ⟨rfl, rfl, schema_cascade r.levels [row]⟩

theorem kin_processAll (r : Rollup) (events : List Event) : r.Kin (r.processAll events) := by
  induction events generalizing r with
  | nil => exact ⟨rfl, rfl, rfl⟩
  | cons e rest ih =>
      have h := r.kin_process e
      have h' := ih (r.process e).2
      exact ⟨h'.layout.trans h.layout, h'.context.trans h.context, h'.schema.trans h.schema⟩

end Rollup

theorem Retrieval.compileWithin_congr {context : Context} {aggregation : String}
    {matching : Definition} {within : Expr} {tables tables' : List (Granularity × Holder)}
    (h : tables'.map (fun p => (p.1, p.2.capability)) = tables.map fun p => (p.1, p.2.capability)) :
    compileWithin context aggregation matching within tables' =
      compileWithin context aggregation matching within tables := by
  induction tables generalizing tables' with
  | nil =>
      obtain rfl := List.map_eq_nil_iff.1 h
      rfl
  | cons p rest ih =>
      obtain ⟨p', rest', rfl, hp, hrest⟩ := List.map_eq_cons_iff.1 h
      obtain ⟨g, table⟩ := p
      obtain ⟨g', table'⟩ := p'
      obtain ⟨rfl, hcapability⟩ := Prod.mk.inj hp
      have hdefinition : table'.definition = table.definition :=
        congrArg Capability.definition hcapability
      simp only [compileWithin, ih hrest, hdefinition, hcapability]
      rfl

/-- A lookup compiles alike against all states of an aggregation. -/
theorem Rollup.Kin.compile_eq {r r' : Rollup} (h : r.Kin r') (rows : SourceRows) (on : Expr)
    (within : Within) (per : Expr) (matching : Definition) :
    r'.compile rows on within per matching = r.compile rows on within per matching := by
  have htables : r'.tables.map (fun p => (p.1, p.2.capability)) =
      r.tables.map fun p => (p.1, p.2.capability) := by
    simp only [tables, List.map_map]
    exact h.schema
  have hretrieval : Retrieval.compile r'.context r'.layout r'.tables on within per matching =
      Retrieval.compile r.context r.layout r.tables on within per matching := by
    simp only [Retrieval.compile, h.layout, h.context,
      Retrieval.compileWithin_congr htables]
  simp only [Rollup.compile, hretrieval]

/-! ### Events and lookups in any order -/

/-- What a lookup is compiled from, with the rows of the sources at that time. -/
structure Request where
  on : Expr
  within : Within
  per : Expr
  matching : Definition
  sources : SourceRows

/-- No condition of a lookup calls an aggregate. -/
def Request.isAggregateFree (q : Request) : Bool :=
  q.on.isAggregateFree && q.within.isAggregateFree && q.per.isAggregateFree

namespace Rollup

def compileFor (r : Rollup) (q : Request) : Except RollupError (Stateful Retrieval) :=
  r.compile q.sources q.on q.within q.per q.matching

/-- Compile a lookup anew and use it once. -/
def ask (r : Rollup) (q : Request) (rows : SourceRows) (matching : Frame) :
    Except RollupError (List Event × RetrievalTrace) := do
  let c ← r.compileFor q
  (c.run fun c => r.find rows matching c).1

end Rollup

/-- A running aggregation with the lookups that have been compiled for it. -/
structure Session where
  rollup : Rollup
  lookups : List (Request × Stateful Retrieval)

/-- What happens in a session: an event comes in, a lookup is compiled, or one of the compiled
lookups is used. -/
inductive Action where
  | process (e : Event)
  | compile (q : Request)
  | find (lookup : Nat) (rows : SourceRows) (matching : Frame)

/-- The event of an action that processes one. -/
def Action.event? : Action → Option Event
  | .process e => some e
  | .compile _ | .find .. => none

namespace Session

def act (s : Session) : Action → Session
  | .process e => { s with rollup := (s.rollup.process e).2 }
  | .compile q =>
    match s.rollup.compileFor q with
    | .ok c => { s with lookups := s.lookups ++ [(q, c)] }
    | .error _ => s
  | .find i rows matching =>
    { s with lookups := s.lookups.modify i fun (q, c) =>
        (q, (c.run fun c => s.rollup.find rows matching c).2) }

def run (s : Session) (actions : List Action) : Session := actions.foldl act s

/-- What a lookup finds; none where there is no such lookup. -/
def answer (s : Session) (lookup : Nat) (rows : SourceRows) (matching : Frame) :
    Option (Except RollupError (List Event × RetrievalTrace)) :=
  s.lookups[lookup]?.map fun (_, c) => (c.run fun c => s.rollup.find rows matching c).1

variable {r₀ : Rollup} {s : Session} {q : Request} {c : Stateful Retrieval} {i : Nat}

/-- The aggregation has processed some events, and the lookups have the code that compiling them
anew gives. -/
structure Follows (r₀ : Rollup) (events : List Event) (s : Session) : Prop where
  rollup : s.rollup = r₀.processAll events
  lookups : ∀ q c, (q, c) ∈ s.lookups → ∃ c₀, r₀.compileFor q = .ok c₀ ∧ c.code = c₀.code

theorem follows_start (r₀ : Rollup) : Follows r₀ [] ⟨r₀, []⟩ := ⟨rfl, by simp⟩

theorem Follows.act {events : List Event} (h : Follows r₀ events s) (a : Action) :
    Follows r₀ (events ++ a.event?.toList) (s.act a) := by
  cases a with
  | process e =>
      refine ⟨?_, h.lookups⟩
      simp [Session.act, h.rollup, Rollup.processAll, Action.event?]
  | compile q =>
      have hkin := (r₀.kin_processAll events).compile_eq q.sources q.on q.within q.per q.matching
      rw [← h.rollup] at hkin
      simp only [Action.event?, Option.toList_none, List.append_nil, Session.act]
      split
      · rename_i c hc
        refine ⟨h.rollup, fun q' c' hmem => ?_⟩
        rcases List.mem_append.1 hmem with hmem | hmem
        · exact h.lookups q' c' hmem
        · obtain ⟨rfl, rfl⟩ := Prod.mk.inj (List.mem_singleton.1 hmem)
          exact ⟨c', hkin.symm.trans hc, rfl⟩
      · exact h
  | find i rows matching =>
      simp only [Action.event?, Option.toList_none, List.append_nil, Session.act]
      refine ⟨h.rollup, fun q' c' hmem => ?_⟩
      obtain ⟨j, hj, hget⟩ := List.mem_iff_getElem.1 hmem
      rw [List.getElem_modify] at hget
      have hold := List.getElem_mem (l := s.lookups) (by simpa using hj)
      split at hget
      · obtain ⟨rfl, rfl⟩ := Prod.mk.inj hget
        obtain ⟨c₀, hc₀, hcode⟩ := h.lookups _ _ hold
        exact ⟨c₀, hc₀, hcode⟩
      · rw [hget] at hold
        exact h.lookups q' c' hold

theorem follows_run (r₀ : Rollup) (actions : List Action) :
    Follows r₀ (actions.filterMap Action.event?) (Session.run ⟨r₀, []⟩ actions) := by
  suffices ∀ events s, Follows r₀ events s →
      Follows r₀ (events ++ actions.filterMap Action.event?) (s.run actions) from
    this [] ⟨r₀, []⟩ (follows_start r₀)
  induction actions with
  | nil => simp [run]
  | cons a rest ih =>
      intro events s h
      have hrest := ih _ _ (h.act a)
      cases hevent : a.event? <;> simpa [hevent, run] using hrest

/-- Lookups do not observe one another. In every session over an accepted aggregation, a lookup
whose conditions call no aggregates gives what it gives when it is compiled anew and used once in
the aggregation that has processed the same events: neither the earlier uses of this lookup or of
others nor the time when it was compiled make a difference. -/
theorem find_unobserved {d : RollupDefinition} {tables : List (Granularity × Holder)}
    {context : Context} (hstart : Rollup.withTables d tables context = .ok r₀)
    (actions : List Action)
    (hi : (Session.run ⟨r₀, []⟩ actions).lookups[i]? = some (q, c))
    (hfree : q.isAggregateFree = true) (rows : SourceRows) (matching : Frame) :
    let events := actions.filterMap Action.event?
    (Session.run ⟨r₀, []⟩ actions).rollup = r₀.processAll events ∧
      (Session.run ⟨r₀, []⟩ actions).answer i rows matching =
        some ((r₀.processAll events).ask q rows matching) := by
  intro events
  have hfollows := follows_run r₀ actions
  obtain ⟨c₀, hc₀, hcode⟩ := hfollows.lookups q c (List.mem_of_getElem? hi)
  have hanew : (r₀.processAll events).compileFor q = .ok c₀ :=
    ((r₀.kin_processAll events).compile_eq ..).trans hc₀
  refine ⟨hfollows.rollup, ?_⟩
  rw [answer, hi, hfollows.rollup, Option.map_some, Rollup.ask, hanew, Run.ok_bind]
  simp only [Request.isAggregateFree, Bool.and_eq_true] at hfree
  -- Code without aggregates gives the same in every memory.
  have hcells : c₀.code.cells = [] :=
    Retrieval.cells_of_compile (Rollup.layout_of_withTables hstart) hfree.1.1 hfree.1.2 hfree.2
      (Rollup.compiled_of_compile hc₀)
  refine congrArg some ?_
  change ((r₀.processAll events).find rows matching c.code c.memory).1 =
    ((r₀.processAll events).find rows matching c₀.code c₀.memory).1
  rw [hcode]
  refine Mirrors.result_eq (fun R => ?_) c.memory c₀.memory
  have hlinked : c₀.code.Linked R id := Retrieval.linked_of_links (hcells ▸ .nil)
  have hfind := Rollup.mirrors_find hlinked (r₀.processAll events) rows matching
  rwa [Retrieval.rename_id] at hfind

end Session

/-! ### Trades, looked up again and again -/

namespace Rollup.Trades

/-- The trades of the first two minutes, by the minute. -/
def byMinute (on : Expr) : Request :=
  ⟨on, twoMinutes, .const (.string "minutes"), ⟨"Order", []⟩, noRows⟩

/-- A lookup is used between two trades. -/
def actions : List Action :=
  [.compile (byMinute (.const (.bool true))), .process (trade 1000 "A" 5),
    .find 0 noRows (.empty 1), .process (trade 2500 "B" 3)]

/-- The condition `count() <= 1`. -/
def once : Expr := .compare .lessEqual (.call none "count" []) (.const (.int 1))

theorem isSome_once : (first.compileFor (byMinute once)).toOption.isSome = true := by
  decide +kernel

def lookupOnce : Stateful Retrieval := (first.compileFor (byMinute once)).toOption.get isSome_once

end Rollup.Trades

open Rollup in
/-- After the second trade the lookup finds what a new one finds. -/
theorem Session.find_unobserved_trades :
    ∃ tables c, Rollup.withTables Trades.definition tables .standard = .ok Trades.started ∧
      (Session.run ⟨Trades.started, []⟩ Trades.actions).lookups[0]? =
        some (Trades.byMinute (.const (.bool true)), c) ∧
      (Trades.byMinute (.const (.bool true))).isAggregateFree = true ∧
      (Session.run ⟨Trades.started, []⟩ Trades.actions).answer 0 noRows (.empty 1) =
        some (Trades.second.ask (Trades.byMinute (.const (.bool true))) noRows (.empty 1)) := by
  obtain ⟨tables, htables⟩ := exists_withTables Trades.start_eq
  have hcompile : Trades.started.compileFor (Trades.byMinute (.const (.bool true))) =
      .ok Trades.lookup := Trades.perMinute_eq
  obtain ⟨c, hc⟩ : ∃ c, (Session.run ⟨Trades.started, []⟩ Trades.actions).lookups[0]? =
      some (Trades.byMinute (.const (.bool true)), c) := by
    simp [Trades.actions, Session.run, Session.act, hcompile]
  exact ⟨tables, c, htables, hc, rfl,
    (Session.find_unobserved htables Trades.actions hc rfl noRows (.empty 1)).2⟩

open Rollup in
/-- A lookup on the condition `count() <= 1` counts on from one use to the next: it finds the row of
the only minute, and when it is used again it does not. -/
theorem Session.find_observes_count :
    Trades.first.compileFor (Trades.byMinute Trades.once) = .ok Trades.lookupOnce ∧
      let used := Trades.lookupOnce.run fun c => Trades.first.find noRows (.empty 1) c
      let again := used.2.run fun c => Trades.first.find noRows (.empty 1) c
      used.1.toOption.map (·.1) = some [Trades.summary 0 "A" 1 5] ∧
        again.1.toOption.map (·.1) = some [] := by
  refine ⟨Trades.eq_ok_of_isSome Trades.isSome_once, ?_⟩
  decide +kernel

end EventQuery
