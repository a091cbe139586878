import EventQuery.Proofs.Rollup.Bucket
import EventQuery.Proofs.Rollup.Partial
import EventQuery.Proofs.Time.Granularity

/-!
Which events a row stands for. A row represents a collection of events of one group if each of its
partials stands for what the events contribute to the column. The row of a bucket represents all
events that the rows folded into it represent, whichever way they are split over these rows.
-/

namespace EventQuery

/-- The key of the group of an event: its group-by values, joined by colons. -/
def RollupDefinition.keyOf (d : RollupDefinition) (e : Event) : String :=
  String.intercalate ":" (d.groupBy.map fun name =>
    groupText (e.get ((d.input.position name).getD 0)))

/-- An event with the start of the bucket of the finest granularity that it has been folded into. -/
abbrev Placed := Int64 × Event

/-- A test of the events picks the same ones, whether or not they have been placed. -/
theorem map_filter_placed {s : Multiset Placed} {events : List Event}
    (h : s.map (·.2) = (events : Multiset Event)) (p : Event → Prop) [DecidablePred p] :
    (s.filter fun x => p x.2).map (·.2) = (events.filter p : List Event) := by
  have hmap := Multiset.filter_map p (·.2) s
  rw [h, Multiset.filter_coe] at hmap
  exact hmap.symm

/-- A row of an aggregation stands for a collection of events of its group. -/
structure Represents (d : RollupDefinition) (l : RollupLayout) (row : Event) (s : Multiset Placed) :
    Prop where
  current : row.kind = .current
  start : row.get 0 = .long row.timestamp
  nonempty : s ≠ 0
  key : ∀ x ∈ s, d.keyOf x.2 = groupKey l.groupCount row
  columns : ∀ (j : Nat) (c : RollupColumn) (kind : FoldKind), l.columns[j]? = some c →
    c.kind? = some kind →
    kind.StandsFor c.type (s.map fun x => c.contribution l.input x.2) (row.get (j + 1))

/-- A key depends on the group-by values alone. -/
theorem groupKey_congr {n : Nat} {row row' : Event}
    (h : ∀ i < n, row.get (i + 1) = row'.get (i + 1)) :
    groupKey n row = groupKey n row' := by
  rw [groupKey, groupKey]
  congr 1
  refine List.map_congr_left fun i hi => ?_
  rw [h i (List.mem_range.1 hi)]

@[simp] theorem groupKey_zero (row : Event) : groupKey 0 row = "" := rfl

variable {d : RollupDefinition} {l : RollupLayout} {row : Event} {s t : Multiset Placed}

/-- The row of a single event. -/
theorem represents_contribution (h : l.Regular d) (e : Event) (start place : Int64) :
    Represents d l (.current start (.long start :: l.columns.map fun c => c.contribution l.input e))
    {(place, e)} where
  current := rfl
  start := rfl
  nonempty := Multiset.singleton_ne_zero _
  key x hx := by
    obtain rfl := Multiset.mem_singleton.1 hx
    rw [RollupDefinition.keyOf, groupKey, h.groupCount]
    congr 1
    refine List.ext_getElem (by simp) fun i hi _ => ?_
    rw [List.length_map] at hi
    -- A group-by value is read from the event once, and from its column afterwards.
    obtain ⟨type, -, hcolumn⟩ := h.column_group (List.getElem?_eq_getElem hi)
    simp [Event.current, Event.get, hcolumn, RollupColumn.contribution, RollupColumn.group,
      Expr.named, h.input]
  columns j c kind hc hkind := by
    simpa [Event.current, Event.get, hc] using kind.standsFor_singleton c.type
      (c.contribution l.input e)

/-- The row of a bucket represents events that all belong into its bucket of a granularity. -/
structure Summarizes (d : RollupDefinition) (l : RollupLayout) (g : Granularity) (row : Event)
    (s : Multiset Placed) : Prop where
  represents : Represents d l row s
  placed : ∀ x ∈ s, g.startTime x.1 = .ok row.timestamp
  long : ∀ (j : Nat) (c : RollupColumn), l.columns[j]? = some c → c.kind? = some .sum →
    c.type = .long → ∃ n, row.get (j + 1) = .long n

namespace Bucket

variable {fold : FoldCode} {start : Int64} {b b' : Bucket} {rows : List Event}

/-- The row of a bucket represents what the rows folded into it represent. -/
theorem Collects.represents (h : l.Regular d)
    (hcodes : BaseCodes l.columns fold.code fold.memory.cells.length)
    (hcollects : Collects fold start b rows) (hne : rows ≠ [])
    (hparts : Parts (Represents d l) rows s) {key : String}
    (hkey : ∀ row ∈ rows, groupKey l.groupCount row = key) :
    Represents d l b.toEvent s ∧ groupKey l.groupCount b.toEvent = key := by
  have hcolumn {j : Nat} {c : RollupColumn} (hc : l.columns[j]? = some c) :=
    hcollects.column hcodes hne hc
  have hgroup : groupKey l.groupCount b.toEvent = key := by
    rw [← hkey _ (List.getLast_mem hne)]
    refine groupKey_congr fun i hi => ?_
    obtain ⟨type, -, hc⟩ := h.column_group (List.getElem?_eq_getElem (h.groupCount ▸ hi))
    exact (hcolumn hc).1 rfl
  refine ⟨⟨rfl, rfl, ?_, fun x hx => ?_, fun j c kind hc hkind => ?_⟩, hgroup⟩
  · obtain ⟨t, ht, hrow⟩ := hparts.exists_of_mem (List.getLast_mem hne)
    exact fun hzero => hrow.nonempty (Multiset.le_zero.1 (hzero ▸ ht))
  · obtain ⟨row, hrow, t, -, hrepresents, hxt⟩ := hparts.exists_part hx
    rw [hrepresents.key x hxt, hkey row hrow, hgroup]
  · obtain ⟨a, result, hvalues, hlong, heq⟩ := (hcolumn hc).2 kind hkind
    have hresult := FoldKind.standsFor_result hvalues result
    rw [← heq] at hresult
    have hstands : kind.StandsFor c.type (rows.map (·.get (j + 1))) (b.toEvent.get (j + 1)) := by
      cases kind with
      | sum => exact fun htype => hresult (hlong rfl htype)
      | avg => trivial
      | min => exact hresult
      | max => exact hresult
    -- What the values of the rows stand for are the values of the events.
    refine hstands.of_parts ?_
    have himage := hparts.map_parts fun x => c.contribution l.input x.2
    refine Parts.map (fun row : Event => row.get (j + 1)) (himage.imp ?_)
    rintro row - _ ⟨t, hrow, rfl⟩
    exact hrow.columns j c kind hc hkind

/-- A bucket of a start and a group has rows folded into it, which together represent events of the
bucket. -/
structure Gathers (d : RollupDefinition) (l : RollupLayout) (g : Granularity) (fold : FoldCode)
    (start : Int64) (key : String) (b : Bucket) (s : Multiset Placed) : Prop where
  collected : ∃ rows, rows ≠ [] ∧ Collects fold start b rows ∧
    (∀ row ∈ rows, groupKey l.groupCount row = key) ∧ Parts (Represents d l) rows s
  placed : ∀ x ∈ s, g.startTime x.1 = .ok start

namespace Gathers

variable {g : Granularity} {key : String}

theorem first (hrow : Represents d l row s) (hplaced : ∀ x ∈ s, g.startTime x.1 = .ok start)
    (h : (Bucket.empty fold start).process fold row = (.ok (), b)) :
    Gathers d l g fold start (groupKey l.groupCount row) b s :=
  ⟨⟨[row], by simp, .process .empty hrow.current h, by simp, .singleton hrow⟩, hplaced⟩

theorem process (hb : Gathers d l g fold start (groupKey l.groupCount row) b s)
    (hrow : Represents d l row t) (hplaced : ∀ x ∈ t, g.startTime x.1 = .ok start)
    (h : b.process fold row = (.ok (), b')) :
    Gathers d l g fold start (groupKey l.groupCount row) b' (s + t) := by
  obtain ⟨rows, hne, hcollects, hkey, hparts⟩ := hb.collected
  refine ⟨⟨rows ++ [row], by simp, .process hcollects hrow.current h, fun r hr => ?_,
    hparts.append (.singleton hrow)⟩,
    fun x hx => (Multiset.mem_add.1 hx).elim (hb.placed x) (hplaced x)⟩
  rcases List.mem_append.1 hr with hr | hr
  · exact hkey r hr
  · rw [List.mem_singleton.1 hr]

theorem timestamp (h : Gathers d l g fold start key b s) : b.timestamp = start := by
  obtain ⟨rows, -, hcollects, -⟩ := h.collected
  exact hcollects.timestamp

theorem processed (h : Gathers d l g fold start key b s) : b.processed = true := by
  obtain ⟨rows, hne, hcollects, -⟩ := h.collected
  exact hcollects.processed_iff.2 hne

/-- A bucket with rows starts in itself. -/
theorem startTime_start (h : Gathers d l g fold start key b s) : g.startTime start = .ok start := by
  obtain ⟨rows, hne, -, -, hparts⟩ := h.collected
  obtain ⟨t, ht, hrow⟩ := hparts.exists_of_mem (List.getLast_mem hne)
  obtain ⟨x, hx⟩ := Multiset.exists_mem_of_ne_zero hrow.nonempty
  exact Granularity.startTime_self (h.placed x (Multiset.mem_of_le ht hx))

theorem summarizes (h : Gathers d l g fold start key b s) (hl : l.Regular d)
    (hcodes : BaseCodes l.columns fold.code fold.memory.cells.length) :
    Summarizes d l g b.toEvent s ∧ groupKey l.groupCount b.toEvent = key := by
  obtain ⟨rows, hne, hcollects, hkey, hparts⟩ := h.collected
  obtain ⟨hrepresents, hgroup⟩ := hcollects.represents hl hcodes hne hparts hkey
  refine ⟨⟨hrepresents, fun x hx => ?_, fun j c hc hkind htype => ?_⟩, hgroup⟩
  · rw [h.placed x hx, ← h.timestamp]
    rfl
  · obtain ⟨a, result, -, hlong, heq⟩ := (hcollects.column hcodes hne hc).2 .sum hkind
    exact ⟨a.sumLong, by rw [heq, hlong rfl htype]; rfl⟩

end Gathers

end Bucket

end EventQuery
