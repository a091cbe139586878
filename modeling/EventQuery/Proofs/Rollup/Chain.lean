import EventQuery.Proofs.Rollup.Level
import EventQuery.Rollup.Chain

/-!
The levels of an aggregation at work. What a level flushes is what the next coarser level takes in,
so every level has all events between its table and the memory of the levels up to it. Coarser
levels never meet a late row, as the rows that a level flushes come in the order of time.
-/

namespace EventQuery

/-- A level flushes into the next one, which is coarser and has opened no bucket behind those in
memory. -/
structure Level.Precedes (lv : Level) (v : Level.View) (next : Level) : Prop where
  rank_le : lv.granularity.rank ≤ next.granularity.rank
  behind : ∀ o, next.openStart = some o → v.slots ≠ [] ∧ ∀ s ∈ v.slots.map (·.1), o ≤ s

/-- Levels that have taken in a collection of events, finest first: each takes in what the one
before has flushed. -/
inductive Chained (d : RollupDefinition) (l : RollupLayout) : Multiset Placed → List Level → Prop
  | nil {s : Multiset Placed} : Chained d l s []
  | cons {s : Multiset Placed} {lv : Level} {v : Level.View} {rest : List Level}
      (keeps : lv.Keeps d l v) (total : v.stored + v.kept = s)
      (precedes : ∀ next ∈ rest.head?, lv.Precedes v next) (tail : Chained d l v.stored rest) :
      Chained d l s (lv :: rest)

/-- Levels after rows have been folded into them. -/
structure Fed (d : RollupDefinition) (l : RollupLayout) (s : Multiset Placed) (rows : List Event)
    (u : Multiset Placed) (levels levels' : List Level) : Prop where
  chained : Chained d l (s + u) levels'
  granularities : levels'.map (·.granularity) = levels.map (·.granularity)
  opened : ∀ next' ∈ levels'.head?, ∃ next ∈ levels.head?, next'.granularity = next.granularity ∧
    ∀ o, next'.openStart = some o → next.openStart = some o ∨ ∃ row ∈ rows, o ≤ row.timestamp

variable {d : RollupDefinition} {l : RollupLayout} {lv lv' : Level} {v v' : Level.View}
  {s u : Multiset Placed} {rows flushed : List Event} {levels levels' rest rest' : List Level}

theorem Chained.fed_nil (h : Chained d l s levels) : Fed d l s [] 0 levels levels :=
  ⟨by rwa [add_zero], rfl, fun next hnext => ⟨next, hnext, rfl, fun _ ho => .inl ho⟩⟩

namespace Rollup

theorem cascade_cons (h : cascade (lv :: rest) rows = (.ok (), levels')) :
    ∃ flushed lv' rest', lv.ingestAll rows = (.ok flushed, lv') ∧ levels' = lv' :: rest' ∧
      (flushed = [] ∧ rest' = rest ∨ flushed ≠ [] ∧ cascade rest flushed = (.ok (), rest')) := by
  unfold cascade at h
  rcases hingest : lv.ingestAll rows with ⟨e | flushed, lv'⟩
  · rw [hingest] at h
    cases h
  · rw [hingest] at h
    cases flushed with
    | nil =>
        cases h
        exact ⟨[], lv', rest, rfl, rfl, .inl ⟨rfl, rfl⟩⟩
    | cons row flushed =>
        rcases hcascade : cascade rest (row :: flushed) with ⟨result, rest'⟩
        dsimp only at h
        rw [hcascade] at h
        cases h
        exact ⟨row :: flushed, lv', rest', rfl, rfl, .inr ⟨by simp, hcascade⟩⟩

end Rollup

/-- A level that has moved stands before the levels that its rows have been folded into. -/
theorem Level.Moves.chained (h : Level.Moves d l lv v u flushed lv' v')
    (hprecedes : ∀ next ∈ rest.head?, lv.Precedes v next)
    (hfed : ∀ F, Parts (Summarizes d l lv.granularity) flushed F →
      Fed d l v.stored flushed F rest rest') :
    Chained d l (v.stored + v.kept + u) (lv' :: rest') := by
  obtain ⟨F, hF, hparts⟩ := h.flushes
  have hrest := hfed F hparts
  refine .cons h.keeps h.total (fun next' hnext' => ?_) (hF ▸ hrest.chained)
  obtain ⟨next, hnext, hgranularity, hopened⟩ := hrest.opened next' hnext'
  have hbefore := hprecedes next hnext
  refine ⟨by rw [h.granularity, hgranularity]; exact hbefore.rank_le, fun o ho => ⟨h.opened, ?_⟩⟩
  -- The next level has kept its open bucket or opened that of a flushed row, and all flushed rows
  -- start before what is still in memory.
  rcases hopened o ho with ho | ⟨row, hrow, hle⟩
  · obtain ⟨hne, hall⟩ := hbefore.behind o ho
    exact (h.floor hne o hall).1
  · intro s hs
    have hbelow := h.keeps.below row (by rw [h.rows]; exact List.mem_append_right _ hrow) s hs
    exact Int64.le_trans hle (Int64.le_of_lt hbelow)

/-- Rows of a finer granularity that come next: in the order of time, and none older than the open
bucket. -/
structure Upcoming (d : RollupDefinition) (l : RollupLayout) (levels : List Level)
    (rows : List Event) (u : Multiset Placed) : Prop where
  summarizes : ∃ f : Granularity, (∀ next ∈ levels.head?, f.rank ≤ next.granularity.rank) ∧
    Parts (Summarizes d l f) rows u
  ascending : rows.Pairwise (·.timestamp ≤ ·.timestamp)
  opened : ∀ next ∈ levels.head?, ∀ o, next.openStart = some o → ∀ row ∈ rows, o ≤ row.timestamp

/-- What a level flushes comes next in the levels behind it. -/
theorem Level.Moves.upcoming (h : Level.Moves d l lv v u flushed lv' v')
    (hprecedes : ∀ next ∈ rest.head?, lv.Precedes v next) {F : Multiset Placed}
    (hparts : Parts (Summarizes d l lv.granularity) flushed F) : Upcoming d l rest flushed F where
  summarizes := ⟨lv.granularity, fun next hnext => (hprecedes next hnext).rank_le, hparts⟩
  ascending := h.ascending
  opened next hnext o ho := by
    obtain ⟨hslots, hall⟩ := (hprecedes next hnext).behind o ho
    exact (h.floor hslots o hall).2

/-- Rows of a finer level go through all coarser levels. -/
theorem Chained.cascade (h : Chained d l s levels) (hl : l.Regular d)
    (hrows : Upcoming d l levels rows u) (hne : rows ≠ [])
    (hcascade : Rollup.cascade levels rows = (.ok (), levels')) :
    Fed d l s rows u levels levels' := by
  induction h generalizing rows u levels' with
  | nil =>
      cases hcascade
      exact ⟨.nil, rfl, by simp⟩
  | @cons s lv v rest keeps total precedes tail ih =>
      obtain ⟨flushed, lv', rest', hingest, rfl, hrest⟩ := Rollup.cascade_cons hcascade
      obtain ⟨f, hrank, hsummarizes⟩ := hrows.summarizes
      obtain ⟨v', hmoves, hopened⟩ := keeps.ingestAll hl (hrank lv rfl) hsummarizes hrows.ascending
        (hrows.opened lv rfl) hne hingest
      have hfed : ∀ F, Parts (Summarizes d l lv.granularity) flushed F →
          Fed d l v.stored flushed F rest rest' := by
        intro F hparts
        rcases hrest with ⟨rfl, rfl⟩ | ⟨hne', hrest⟩
        · cases hparts
          exact tail.fed_nil
        · exact ih (hmoves.upcoming precedes hparts) hne' hrest
      obtain ⟨F, -, hparts⟩ := hmoves.flushes
      refine ⟨total ▸ hmoves.chained precedes hfed, ?_, ?_⟩
      · rw [List.map_cons, List.map_cons, hmoves.granularity, (hfed F hparts).granularities]
      · rintro _ ⟨⟩
        exact ⟨lv, rfl, hmoves.granularity, hopened⟩

namespace Rollup

variable {r r' r₀ : Rollup} {e : Event} {events : List Event} {admits : Rollup → Event → Prop}

/-- A running aggregation that has taken in a collection of events. -/
structure Accounts (d : RollupDefinition) (s : Multiset Placed) (r : Rollup) : Prop where
  regular : r.layout.Regular d
  incoming : ∀ e, Code.runAll noRows r.incoming (.single e) =
    pure (r.layout.columns.map fun c => c.contribution r.layout.input e)
  chained : Chained d r.layout s r.levels

/-- An event is late if its bucket of the finest granularity is neither the open one nor a newer
one, and not in memory any more. -/
def IsLate (r : Rollup) (e : Event) : Prop :=
  ∃ finest ∈ r.levels.head?, ∃ start, finest.granularity.startTime e.timestamp = .ok start ∧
    finest.IsLate start

instance (lv : Level) (x : Except TimeError Int64) :
    Decidable (∃ start, x = .ok start ∧ lv.IsLate start) :=
  match x with
  | .error _ => isFalse nofun
  | .ok start => decidable_of_iff (lv.IsLate start)
      ⟨fun h => ⟨start, rfl, h⟩, fun ⟨_, hstart, h⟩ => Except.ok.inj hstart ▸ h⟩

instance (r : Rollup) (e : Event) : Decidable (r.IsLate e) :=
  inferInstanceAs (Decidable (∃ finest ∈ r.levels.head?, _))

/-- The aggregations that events lead to, each of which is admitted and processed without
failure. -/
inductive After (admits : Rollup → Event → Prop) (r₀ : Rollup) : List Event → Rollup → Prop
  | start : After admits r₀ [] r₀
  | process {events : List Event} {e : Event} {r r' : Rollup} (earlier : After admits r₀ events r)
      (current : e.kind = .current) (admitted : admits r e)
      (processed : r.process e = (.ok (), r')) :
      After admits r₀ (events ++ [e]) r'

theorem process_eq_ok (hcurrent : e.kind = .current) (h : r.process e = (.ok (), r')) :
    ∃ row levels, r.contribution e = .ok row ∧ cascade r.levels [row] = (.ok (), levels) ∧
      r' = { r with levels := levels } := by
  unfold process at h
  rw [if_neg (by simp [hcurrent])] at h
  cases hrow : r.contribution e with
  | error cause =>
      rw [hrow] at h
      cases h
  | ok row =>
      rw [hrow] at h
      rcases hcascade : cascade r.levels [row] with ⟨result, levels⟩
      dsimp only at h
      rw [hcascade] at h
      cases h
      exact ⟨row, levels, rfl, hcascade, rfl⟩

theorem Accounts.contribution_eq (h : r.Accounts d s) (e : Event) :
    r.contribution e = .ok (.current e.timestamp
      (.long e.timestamp :: r.layout.columns.map fun c => c.contribution r.layout.input e)) := by
  rw [contribution, h.incoming]
  rfl

/-- One event is added to what the aggregation has taken in. It is placed in its own bucket unless
it is late. -/
theorem Accounts.process (h : r.Accounts d s) (hcurrent : e.kind = .current)
    (hprocess : r.process e = (.ok (), r')) :
    ∃ place levels, r' = { r with levels := levels } ∧
      levels.map (·.granularity) = r.levels.map (·.granularity) ∧
      r'.Accounts d (s + {(place, e)}) ∧
      (¬r.IsLate e →
        ∀ g ∈ (r.levels.map (·.granularity)).head?, g.startTime e.timestamp = .ok place) := by
  obtain ⟨row, levels', hrow, hcascade, rfl⟩ := process_eq_ok hcurrent hprocess
  rw [h.contribution_eq, Except.ok.injEq] at hrow
  obtain ⟨hregular, hincoming, hchained⟩ := h
  cases hlevels : r.levels with
  | nil =>
      rw [hlevels] at hcascade
      cases hcascade
      exact ⟨0, [], rfl, rfl, ⟨hregular, hincoming, .nil⟩, by simp⟩
  | cons lv rest =>
      rw [hlevels] at hcascade hchained
      cases hchained with
      | @cons _ _ v _ keeps total precedes tail =>
          obtain ⟨flushed, lv', rest', hingest, rfl, hrest⟩ := cascade_cons hcascade
          obtain ⟨first, lv₁, others, hfirst, hothers, rfl⟩ := Level.ingestAll_cons hingest
          cases hothers
          rw [List.append_nil] at hrest
          obtain ⟨start, target, hstart, hwhere, hself, -, hmoves⟩ := keeps.ingest hregular hfirst
          -- The event is placed in the bucket that its row goes to.
          have hrepresents : Represents d r.layout row {(target, e)} := by
            rw [← hrow]
            exact represents_contribution hregular e e.timestamp target
          obtain ⟨v', hmove⟩ := hmoves {(target, e)} hrepresents (by simpa using hself)
          have hfed : ∀ F, Parts (Summarizes d r.layout lv.granularity) first F →
              Fed d r.layout v.stored first F rest rest' := by
            intro F hparts
            rcases hrest with ⟨rfl, rfl⟩ | ⟨hne, hrest⟩
            · cases hparts
              exact tail.fed_nil
            · exact tail.cascade hregular (hmove.upcoming precedes hparts) hne hrest
          refine ⟨target, _, rfl, ?_, ⟨hregular, hincoming, total ▸ hmove.chained precedes hfed⟩,
            fun hlate g hg => ?_⟩
          · obtain ⟨F, -, hparts⟩ := hmove.flushes
            rw [List.map_cons, List.map_cons, hmove.granularity, (hfed F hparts).granularities]
          · obtain rfl : lv.granularity = g := by simpa using hg
            rw [← hrow] at hstart
            obtain rfl : target = start := hwhere.resolve_right fun hislate =>
              hlate ⟨lv, by rw [hlevels]; rfl, start, hstart, hislate⟩
            exact hstart

/-- What has been taken in are the events that have been processed. -/
theorem After.accounts (h : After admits r₀ events r) (h₀ : r₀.Accounts d 0) :
    ∃ s, s.map (·.2) = (events : Multiset Event) ∧ r.Accounts d s ∧
      r = { r₀ with levels := r.levels } ∧
      r.levels.map (·.granularity) = r₀.levels.map (·.granularity) ∧
      ((∀ r e, admits r e → ¬r.IsLate e) → ∀ g ∈ (r₀.levels.map (·.granularity)).head?,
        ∀ x ∈ s, g.startTime x.2.timestamp = .ok x.1) := by
  induction h with
  | start => exact ⟨0, rfl, h₀, rfl, rfl, by simp⟩
  | @process events e r r' earlier current admitted processed ih =>
      obtain ⟨s, hevents, haccounts, hr, hlevels, hplaces⟩ := ih
      obtain ⟨place, levels', rfl, hlevels', haccounts', hplace⟩ :=
        haccounts.process current processed
      refine ⟨s + {(place, e)}, ?_, haccounts', by rw [hr], hlevels'.trans hlevels,
        fun hadmits g hg x hx => ?_⟩
      · rw [Multiset.map_add, hevents, Multiset.map_singleton]
        rfl
      · rcases Multiset.mem_add.1 hx with hx | hx
        · exact hplaces hadmits g hg x hx
        · rw [Multiset.mem_singleton.1 hx]
          exact hplace (hadmits _ e admitted) g (hlevels ▸ hg)

/-! ### The aggregation before any event -/

/-- Every granularity has an empty table of its own. -/
theorem lookup_tables {gs : List Granularity} {tables : List (Granularity × Holder)}
    (h : gs.mapM (indexedTable l) = .ok tables) :
    ∀ g ∈ gs, ∃ table, tables.lookup g = some table ∧
      table.Keyless (l.tableDefinition g) ∧ table.events = [] := by
  induction gs generalizing tables with
  | nil => simp
  | cons g rest ih =>
      rw [List.mapM_cons] at h
      obtain ⟨⟨g', table⟩, htable, h⟩ := Run.bind_eq_ok.1 h
      obtain ⟨others, hothers, h⟩ := Run.bind_eq_ok.1 h
      cases h
      unfold indexedTable at htable
      split at htable
      · rename_i hbuild
        cases htable
        intro q hq
        by_cases heq : q = g
        · exact ⟨table, by simp [heq], heq ▸ Holder.keyless_build hbuild⟩
        · obtain ⟨table', hlookup, hspec⟩ := ih hothers q ((List.mem_cons.1 hq).resolve_left heq)
          exact ⟨table', by rw [List.lookup_cons, beq_false_of_ne heq, hlookup], hspec⟩
      · cases htable

/-- A level over an empty table holds nothing. -/
theorem keeps_start {g : Granularity} {fold : FoldCode} {n : Nat} {table : Holder}
    (hcodes : BaseCodes l.columns fold.code fold.memory.cells.length)
    (hkeyless : table.Keyless (l.tableDefinition g)) (hempty : table.events = []) :
    (Level.start g l fold n table).Keeps d l ⟨[], 0, 0⟩ := by
  have hrows : table.rows = [] := by simp [Holder.rows, hempty]
  exact
    { codes := hcodes
      groupCount := rfl
      keyless := hkeyless
      store := BucketStore.empty_eq_ofSlots
      openStart := rfl
      length_le := Nat.zero_le _
      memory := FoldedBuckets.gathers_nil
      table := by
        rw [Level.start, hrows]
        exact .nil
      nodup := by simp [Level.start, hrows]
      started := fun _ => hrows
      below := by simp }

theorem chained_start {gs : List Granularity} {fold : FoldCode} {n : Nat}
    {tables : List (Granularity × Holder)}
    (hcodes : BaseCodes l.columns fold.code fold.memory.cells.length)
    (htables : ∀ g ∈ gs, ∃ table, tables.lookup g = some table ∧
      table.Keyless (l.tableDefinition g) ∧ table.events = [])
    (hsorted : gs.Pairwise (·.rank ≤ ·.rank)) :
    ∃ levels,
      gs.filterMap (fun g => (tables.lookup g).map fun table => Level.start g l fold n table) =
        levels ∧
      levels.map (·.granularity) = gs ∧ Chained d l 0 levels ∧
      ∀ lv ∈ levels, lv.openStart = none := by
  induction gs with
  | nil => exact ⟨[], rfl, rfl, .nil, by simp⟩
  | cons g rest ih =>
      obtain ⟨⟨table, hlookup, hkeyless, hempty⟩, hrest⟩ := List.forall_mem_cons.1 htables
      obtain ⟨hbefore, hsorted'⟩ := List.pairwise_cons.1 hsorted
      obtain ⟨levels, hlevels, hgranularities, hchained, hfresh⟩ := ih hrest hsorted'
      refine ⟨Level.start g l fold n table :: levels, by simp [hlookup, hlevels],
        by simp [hgranularities, Level.start],
        .cons (keeps_start hcodes hkeyless hempty) (add_zero 0) (fun next hnext => ?_) hchained, ?_⟩
      · have hmem := List.mem_of_mem_head? hnext
        refine ⟨hbefore _ (hgranularities ▸ List.mem_map_of_mem hmem), fun o ho => ?_⟩
        rw [hfresh next hmem] at ho
        cases ho
      · exact List.forall_mem_cons.2 ⟨rfl, hfresh⟩

/-- A new aggregation has taken in no event and has opened no bucket. -/
theorem accounts_start_of_clear {context : Context} (hclear : RollupLayout.Clear d)
    (hsorted : d.granularities.Pairwise (·.rank ≤ ·.rank)) (h : Rollup.start d context = .ok r) :
    r.Accounts d 0 ∧ RollupLayout.ofDefinition d = .ok r.layout ∧ r.definition = d ∧
      r.context = context ∧ r.levels.map (·.granularity) = d.granularities ∧
      ∀ lv ∈ r.levels, lv.openStart = none := by
  obtain ⟨layout, hlayout, h⟩ := Run.bind_eq_ok.1 h
  obtain ⟨tables, htables, h⟩ := Run.bind_eq_ok.1 h
  obtain ⟨layout', hlayout', h⟩ := Run.bind_eq_ok.1 h
  obtain rfl := Except.ok.inj (hlayout.symm.trans hlayout')
  split at h
  · cases h
  · obtain ⟨fold, hfold, h⟩ := Run.bind_eq_ok.1 h
    obtain ⟨incoming, hincoming, h⟩ := Run.bind_eq_ok.1 h
    cases h
    have hregular := hclear.regular hlayout
    obtain ⟨levels, hlevels, hgranularities, hchained, hfresh⟩ :=
      chained_start (n := d.bufferSize) (hregular.baseCodes hfold) (lookup_tables htables) hsorted
    obtain ⟨cs, count, hcodes, rfl⟩ := Allot.finish_eq_ok.1 hincoming
    have hover : levelsOver d layout fold tables = levels := hlevels
    rw [hover]
    exact ⟨⟨hregular, hregular.runAll_incoming hcodes, hchained⟩, hlayout, rfl, rfl,
      hgranularities, hfresh⟩

theorem accounts_start {context : Context} (hnodup : d.groupBy.Nodup)
    (hclear : ∀ name ∈ d.groupBy, ¬Reserved name)
    (hsorted : d.granularities.Pairwise (·.rank ≤ ·.rank)) (h : Rollup.start d context = .ok r) :
    r.Accounts d 0 ∧ RollupLayout.ofDefinition d = .ok r.layout ∧ r.definition = d ∧
      r.context = context ∧ r.levels.map (·.granularity) = d.granularities := by
  obtain ⟨haccounts, hlayout, hdefinition, hcontext, hlevels, -⟩ :=
    accounts_start_of_clear (RollupLayout.clear_of_unreserved hnodup hclear) hsorted h
  exact ⟨haccounts, hlayout, hdefinition, hcontext, hlevels⟩

end Rollup

end EventQuery
