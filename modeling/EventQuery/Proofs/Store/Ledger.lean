import EventQuery.Proofs.Eval.Stateless
import EventQuery.Proofs.Store.Removal
import Mathlib.Data.List.Induction

/-!
The history of a store. A ledger records the events that were accepted, in order, and which of them
were removed since; it knows neither keys nor indexes. After every run of operations a store
represents its ledger: the events that are live stand once in the list of events, once in the
primary map and once in a bucket of every index.
-/

namespace EventQuery

/-- An operation that may change a store. -/
inductive StoreOperation where
  | add (event : Event)
  | deleteEvents (handles : EventSet)
  | delete (name : String) (op : Comparison) (probe : Value)
  | clear

namespace Holder

/-- The store after an operation. -/
def apply (h : Holder) : StoreOperation → Holder
  | .add event => (h.add event).2
  | .deleteEvents handles => (h.deleteEvents handles).2
  | .delete name op probe => (h.delete name op probe).2
  | .clear => h.clear

/-- The store after a run of operations. -/
def run (h : Holder) (operations : List StoreOperation) : Holder := operations.foldl apply h

theorem run_snoc (h : Holder) (operations : List StoreOperation) (operation : StoreOperation) :
    h.run (operations ++ [operation]) = (h.run operations).apply operation := by
  simp [run]

end Holder

/-- The events that a store has accepted, in order, and the numbers of those removed since. -/
structure Ledger where
  accepted : List StoredEvent
  removed : List Nat

namespace Ledger

/-- The events that were accepted and not removed. -/
def live (l : Ledger) : List StoredEvent := l.accepted.filter (·.id ∉ l.removed)

/-- Remove the live events that pass a test. -/
def drop (l : Ledger) (test : StoredEvent → Bool) : Ledger :=
  { l with removed := l.removed ++ (l.live.filter test).map (·.id) }

/-- Whether a live event has the primary key of an event. -/
def isTaken (l : Ledger) (key : Option Nat) (event : Event) : Bool :=
  key.any fun position => l.live.any fun e => (event.get position).same (e.event.get position)

/-- Enter an operation on a store with the given definition and primary key. -/
def enter (d : Definition) (key : Option Nat) (l : Ledger) : StoreOperation → Ledger
  | .add event =>
    if l.isTaken key event then l
    else { l with accepted := l.accepted ++ [⟨l.accepted.length, event⟩] }
  | .deleteEvents handles => l.drop (EventSet.has handles)
  | .delete name op probe =>
    l.drop fun e => (d.position name).any fun position => op.probes probe (e.event.get position)
  | .clear => l.drop fun _ => true

/-- The ledger of a run on a new store. -/
def ofRun (d : Definition) (primaryKey : Option String) (operations : List StoreOperation) :
    Ledger :=
  operations.foldl (enter d (primaryKey.bind d.position)) ⟨[], []⟩

/-- Events are numbered in the order of their acceptance, and only accepted events are removed. -/
structure Numbered (l : Ledger) : Prop where
  accepted : l.accepted.map (·.id) = List.range l.accepted.length
  removed : ∀ n ∈ l.removed, n < l.accepted.length

variable {l : Ledger}

theorem Numbered.lt (h : l.Numbered) {e : StoredEvent} (he : e ∈ l.accepted) :
    e.id < l.accepted.length := by
  rw [← List.mem_range, ← h.accepted]
  exact List.mem_map_of_mem he

theorem Numbered.nodup_ids (h : l.Numbered) : (l.accepted.map (·.id)).Nodup :=
  h.accepted ▸ List.nodup_range

theorem mem_live {e : StoredEvent} : e ∈ l.live ↔ e ∈ l.accepted ∧ e.id ∉ l.removed := by
  simp [live]

/-- A removal takes the events that pass its test out of the live ones. -/
theorem Numbered.live_drop (h : l.Numbered) (test : StoredEvent → Bool) :
    (l.drop test).live = l.live.filter (!test ·) := by
  simp only [live, drop, List.filter_filter]
  refine List.filter_congr fun e he => ?_
  -- The number of an accepted event stands for this event alone.
  have htest : e.id ∈ (l.live.filter test).map (·.id) ↔ e.id ∉ l.removed ∧ test e = true := by
    simp only [List.mem_map, List.mem_filter, mem_live]
    constructor
    · rintro ⟨x, ⟨⟨hx, hlive⟩, hpass⟩, heq⟩
      obtain rfl := List.inj_on_of_nodup_map h.nodup_ids hx he heq
      exact ⟨hlive, hpass⟩
    · rintro ⟨hlive, hpass⟩
      exact ⟨e, ⟨⟨he, hlive⟩, hpass⟩, rfl⟩
  rw [live] at htest
  by_cases hgone : e.id ∈ l.removed <;> by_cases hpass : test e = true <;> simp_all

theorem Numbered.drop (h : l.Numbered) (test : StoredEvent → Bool) : (l.drop test).Numbered where
  accepted := h.accepted
  removed n hn := by
    rcases List.mem_append.1 hn with hn | hn
    · exact h.removed n hn
    · obtain ⟨e, he, rfl⟩ := List.mem_map.1 hn
      exact h.lt (mem_live.1 (List.mem_filter.1 he).1).1

/-- Accepting an event adds it behind the live ones. -/
theorem Numbered.live_accept (h : l.Numbered) (event : Event) :
    live { l with accepted := l.accepted ++ [⟨l.accepted.length, event⟩] } =
      l.live ++ [⟨l.accepted.length, event⟩] := by
  have hnew : l.accepted.length ∉ l.removed := fun hmem => Nat.lt_irrefl _ (h.removed _ hmem)
  simp [live, List.filter_append, hnew]

theorem Numbered.accept (h : l.Numbered) (event : Event) :
    Numbered { l with accepted := l.accepted ++ [⟨l.accepted.length, event⟩] } where
  accepted := by simp [h.accepted, List.range_succ]
  removed n hn := by
    rw [List.length_append]
    exact Nat.lt_add_right _ (h.removed n hn)

end Ledger

namespace Holder

variable {d : Definition} {primaryKey : Option String} {indexes : List String} {h h₀ : Holder}
  {l : Ledger}

/-- What no operation changes: the definition, the primary key and the names of the indexes. -/
def shape (h : Holder) : Definition × Option (String × Nat) × List String :=
  (h.definition, h.primaryKey, h.indexes.map (·.name))

theorem shape_removeStored (h : Holder) (e : StoredEvent) : (h.removeStored e).shape = h.shape := by
  simp [shape, removeStored, Function.comp_def]

theorem shape_deleteEvents (h : Holder) (handles : EventSet) :
    (h.deleteEvents handles).2.shape = h.shape := by
  induction handles generalizing h with
  | nil => rfl
  | cons handle rest ih =>
      simp only [deleteEvents]
      split
      · exact (ih _).trans (shape_removeStored h _)
      · exact ih h

theorem shape_apply (h : Holder) (operation : StoreOperation) :
    (h.apply operation).shape = h.shape := by
  cases operation with
  | add event =>
      simp only [apply, add_eq]
      split
      · rfl
      · simp [shape, accept, Function.comp_def]
  | deleteEvents handles => exact shape_deleteEvents h handles
  | delete name op probe => exact shape_deleteEvents h _
  | clear => simp [apply, shape, clear, Function.comp_def]

/-- A store and a ledger agree on the live events and on the next number. -/
structure Tracks (h : Holder) (l : Ledger) : Prop where
  consistent : h.Consistent
  numbered : l.Numbered
  nextId : h.nextId = l.accepted.length
  events : h.events = l.live

theorem nextId_deleteEvents (h : Holder) (handles : EventSet) :
    (h.deleteEvents handles).2.nextId = h.nextId := by
  induction handles generalizing h with
  | nil => rfl
  | cons handle rest ih =>
      simp only [deleteEvents]
      split
      · exact ih _
      · exact ih h

theorem Tracks.deleteEvents (ht : h.Tracks l) {handles : EventSet} {test : StoredEvent → Bool}
    (hsame : ∀ e ∈ h.events, EventSet.has handles e = test e) :
    (h.deleteEvents handles).2.Tracks (l.drop test) where
  consistent := ht.consistent.deleteEvents handles
  numbered := ht.numbered.drop test
  nextId := (nextId_deleteEvents h handles).trans ht.nextId
  events := by
    rw [events_deleteEvents, ht.numbered.live_drop, ← ht.events]
    exact List.filter_congr fun e he => by rw [hsame e he]

theorem Consistent.isTaken_eq (hc : h.Consistent) (event : Event) :
    h.isTaken event = (h.primaryKey.map (·.2)).any fun position =>
      h.events.any fun e => (event.get position).same (e.event.get position) := by
  unfold isTaken
  cases hkey : h.primaryKey with
  | none => rfl
  | some key =>
      obtain ⟨name, position⟩ := key
      have hentry := hc.primary name position hkey
      simp only [Option.any_some, Option.map_some, OrderedMap.has]
      rw [Bool.eq_iff_iff, List.any_eq_true, List.any_eq_true]
      constructor
      · rintro ⟨⟨k, e⟩, hp, hsame⟩
        obtain ⟨he, rfl⟩ := (hentry k e).1 hp
        exact ⟨e, he, hsame⟩
      · rintro ⟨e, he, hsame⟩
        exact ⟨(_, e), (hentry _ e).2 ⟨he, rfl⟩, hsame⟩

/-- Every operation does to the live events of a store what the ledger says. -/
theorem Tracks.apply (ht : h.Tracks l) (operation : StoreOperation) :
    (h.apply operation).Tracks (l.enter h.definition (h.primaryKey.map (·.2)) operation) := by
  cases operation with
  | add event =>
      have htaken : h.isTaken event = l.isTaken (h.primaryKey.map (·.2)) event := by
        rw [ht.consistent.isTaken_eq, ht.events]
        rfl
      simp only [Holder.apply, Ledger.enter, add_eq, htaken]
      split
      · exact ht
      · rename_i hfree
        have hstored : (⟨h.nextId, event⟩ : StoredEvent) = ⟨l.accepted.length, event⟩ := by
          rw [ht.nextId]
        refine ⟨ht.consistent.accept (by simpa [htaken] using hfree), ht.numbered.accept event,
          ?_, ?_⟩
        · simp [accept, ht.nextId]
        · rw [ht.numbered.live_accept, ← ht.events, ← hstored]
          rfl
  | deleteEvents handles => exact ht.deleteEvents fun _ _ => rfl
  | delete name op probe =>
      refine ht.deleteEvents fun e he => ?_
      cases hposition : h.definition.position name with
      | none => rw [ht.consistent.findEvents_unknown hposition]; rfl
      | some position =>
          have hdrawn := ht.consistent.drawn_findEvents hposition op probe
          rw [Bool.eq_iff_iff, EventSet.has_iff ht.consistent.identified hdrawn he,
            ht.consistent.mem_findEvents hposition]
          simp [he]
  | clear =>
      refine ⟨ht.consistent.clear, ht.numbered.drop _, ht.nextId, ?_⟩
      exact (List.filter_eq_nil_iff.2 fun e _ => by simp).symm.trans
        (ht.numbered.live_drop fun _ => true).symm

theorem fst_add_eq_none {event : Event} : (h.add event).1 = none ↔ h.isTaken event = true := by
  rw [add_eq]
  split <;> simp_all

/-! ### A run from a new store -/

theorem names_addIndexes {names : List String} (hadd : h₀.addIndexes names = .ok h)
    (hnodup : (h₀.indexes.map (·.name)).Nodup) :
    (h.indexes.map (·.name)).Nodup ∧
      ∀ name, name ∈ h.indexes.map (·.name) ↔ name ∈ h₀.indexes.map (·.name) ∨ name ∈ names := by
  induction names generalizing h₀ with
  | nil =>
      cases hadd
      exact ⟨hnodup, by simp⟩
  | cons name rest ih =>
      unfold Holder.addIndexes at hadd
      obtain ⟨position, -, hadd⟩ := Run.bind_eq_ok.1 hadd
      split at hadd
      · rename_i hknown
        have hmem : name ∈ h₀.indexes.map (·.name) := by simpa using hknown
        obtain ⟨hnodup', hnames⟩ := ih hadd hnodup
        exact ⟨hnodup', fun other => by grind⟩
      · rename_i hnew
        have hmem : name ∉ h₀.indexes.map (·.name) := by simpa using hnew
        obtain ⟨hnodup', hnames⟩ := ih hadd (by
          rw [List.map_append]
          exact List.nodup_append.2 ⟨hnodup, List.nodup_singleton _, by grind⟩)
        exact ⟨hnodup', fun other => by grind⟩

theorem nextId_addIndexes {names : List String} (hadd : h₀.addIndexes names = .ok h) :
    h.nextId = h₀.nextId := by
  induction names generalizing h₀ with
  | nil =>
      cases hadd
      rfl
  | cons name rest ih =>
      unfold Holder.addIndexes at hadd
      obtain ⟨position, -, hadd⟩ := Run.bind_eq_ok.1 hadd
      split at hadd
      · exact ih hadd
      · have hrest := ih hadd
        exact hrest

/-- A new store has the definition, the key and the indexes that were asked for. -/
theorem shape_build (hbuild : Holder.build d primaryKey indexes = .ok h) :
    h.definition = d ∧ h.events = [] ∧ h.nextId = 0 ∧
      (∀ name, primaryKey = some name →
        ∃ position, d.position name = some position ∧ h.primaryKey = some (name, position)) ∧
      (primaryKey = none → h.primaryKey = none) ∧
      (h.indexes.map (·.name)).Nodup ∧ ∀ name, name ∈ h.indexes.map (·.name) ↔ name ∈ indexes := by
  -- The indexes are added to a store that has the key already.
  have hadded {h₀ : Holder} (hadd : h₀.addIndexes indexes = .ok h) (hnone : h₀.indexes = []) :
      h.definition = h₀.definition ∧ h.primaryKey = h₀.primaryKey ∧ h.events = h₀.events ∧
        h.nextId = h₀.nextId ∧ (h.indexes.map (·.name)).Nodup ∧
        ∀ name, name ∈ h.indexes.map (·.name) ↔ name ∈ indexes := by
    obtain ⟨hdefinition, hkey, hevents⟩ := addIndexes_eq_ok hadd
    obtain ⟨hnodup, hnames⟩ := names_addIndexes hadd (by simp [hnone])
    exact ⟨hdefinition, hkey, hevents, nextId_addIndexes hadd, hnodup,
      by simpa [hnone] using hnames⟩
  cases primaryKey with
  | none =>
      obtain ⟨hdefinition, hkey, hevents, hnext, hindexes⟩ := hadded hbuild rfl
      exact ⟨hdefinition, hevents, hnext, by simp, fun _ => hkey, hindexes⟩
  | some name =>
      obtain ⟨position, hposition, hadd⟩ := Run.bind_eq_ok.1 hbuild
      obtain ⟨hdefinition, hkey, hevents, hnext, hindexes⟩ := hadded hadd rfl
      refine ⟨hdefinition, hevents, hnext, ?_, by simp, hindexes⟩
      rintro _ ⟨⟩
      exact ⟨position, keyPosition_eq_ok hposition, hkey⟩

/-- The shape of a store after a run, and the ledger that it tracks. -/
theorem tracks_run (hbuild : Holder.build d primaryKey indexes = .ok h₀)
    (operations : List StoreOperation) :
    (h₀.run operations).shape = h₀.shape ∧
      (h₀.run operations).Tracks (Ledger.ofRun d primaryKey operations) := by
  obtain ⟨hdefinition, hevents, hnext, hkeyed, hkeyless, -⟩ := shape_build hbuild
  have hkey : h₀.primaryKey.map (·.2) = primaryKey.bind d.position := by
    cases primaryKey with
    | none => simp [hkeyless rfl]
    | some name =>
        obtain ⟨position, hposition, hkey⟩ := hkeyed name rfl
        simp [hkey, hposition]
  induction operations using List.reverseRecOn with
  | nil =>
      exact ⟨rfl, consistent_build hbuild, ⟨rfl, by simp [Ledger.ofRun]⟩, hnext, hevents⟩
  | append_singleton operations operation ih =>
      obtain ⟨hshape, htracks⟩ := ih
      have hledger : Ledger.ofRun d primaryKey (operations ++ [operation]) =
          (Ledger.ofRun d primaryKey operations).enter d (primaryKey.bind d.position)
            operation := by
        simp [Ledger.ofRun]
      have hdefinition' : (h₀.run operations).definition = d :=
        (congrArg Prod.fst hshape).trans hdefinition
      have hkey' : (h₀.run operations).primaryKey.map (·.2) = primaryKey.bind d.position :=
        (congrArg (fun shape => shape.2.1.map Prod.snd) hshape).trans hkey
      rw [run_snoc, hledger]
      refine ⟨(shape_apply _ operation).trans hshape, ?_⟩
      have hstep := htracks.apply operation
      rwa [hdefinition', hkey'] at hstep

/-- The stores that can be reached are those that runs lead to. -/
theorem reachable_iff_run : Reachable d primaryKey indexes h ↔
    ∃ h₀ operations, Holder.build d primaryKey indexes = .ok h₀ ∧ h = h₀.run operations := by
  constructor
  · intro hr
    induction hr with
    | build hbuild => exact ⟨_, [], hbuild, rfl⟩
    | add event _ ih =>
        obtain ⟨h₀, operations, hbuild, rfl⟩ := ih
        exact ⟨h₀, operations ++ [.add event], hbuild, by rw [run_snoc]; rfl⟩
    | deleteEvents handles _ ih =>
        obtain ⟨h₀, operations, hbuild, rfl⟩ := ih
        exact ⟨h₀, operations ++ [.deleteEvents handles], hbuild, by rw [run_snoc]; rfl⟩
    | delete name op probe _ ih =>
        obtain ⟨h₀, operations, hbuild, rfl⟩ := ih
        exact ⟨h₀, operations ++ [.delete name op probe], hbuild, by rw [run_snoc]; rfl⟩
    | clear _ ih =>
        obtain ⟨h₀, operations, hbuild, rfl⟩ := ih
        exact ⟨h₀, operations ++ [.clear], hbuild, by rw [run_snoc]; rfl⟩
  · rintro ⟨h₀, operations, hbuild, rfl⟩
    induction operations using List.reverseRecOn with
    | nil => exact .build hbuild
    | append_singleton operations operation ih =>
        rw [run_snoc]
        cases operation with
        | add event => exact ih.add event
        | deleteEvents handles => exact ih.deleteEvents handles
        | delete name op probe => exact ih.delete name op probe
        | clear => exact ih.clear

/-! ### What a run leaves -/

theorem Consistent.nodup_primary (hc : h.Consistent) {name : String} {position : Nat}
    (hkey : h.primaryKey = some (name, position)) : (h.primary.map (·.2)).Nodup := by
  refine List.pairwise_map.2 (hc.sorted.imp_of_mem fun {p q} hp hq hlt heq => ?_)
  -- The event determines its key, and keys ascend strictly.
  rw [((hc.primary name position hkey p.1 p.2).1 hp).2,
    ((hc.primary name position hkey q.1 q.2).1 hq).2, heq, Value.order_self] at hlt
  cases hlt

/-- Of two stored events the keys differ. -/
theorem Consistent.distinct_keys (hc : h.Consistent) {name : String} {position : Nat}
    (hkey : h.primaryKey = some (name, position)) :
    h.events.Pairwise fun a b => (a.event.get position).same (b.event.get position) = false := by
  refine hc.nodup.imp_of_mem fun {a b} ha hb hne => Bool.eq_false_iff.2 fun hsame => hne ?_
  have hentry := hc.primary name position hkey
  exact (Prod.mk.inj
    (hc.sorted.eq_of_same ((hentry _ a).2 ⟨ha, rfl⟩) ((hentry _ b).2 ⟨hb, rfl⟩) hsame)).2

end Holder

namespace Index

/-- The buckets of an index divide events among them by the values of its attribute. -/
structure Partitions (i : Index) (events : EventSet) : Prop where
  nonempty : ∀ p ∈ i.buckets, p.2 ≠ []
  distinct : i.buckets.Pairwise fun p q => p.1.same q.1 = false
  covering : (i.buckets.map (·.2)).flatten.Perm events
  ordered : ∀ p ∈ i.buckets, p.2.Sublist events
  valued : ∀ p ∈ i.buckets, ∀ e ∈ p.2, p.1.same (e.event.get i.position) = true

theorem Lists.partitions {i : Index} {events : EventSet} (h : i.Lists events)
    (hnodup : events.Nodup) : i.Partitions events where
  nonempty := h.nonempty
  distinct := h.sorted.imp fun hlt => OrderedMap.Sorted.same_eq_false_of_lt hlt
  covering := by
    have hselect : i.buckets.select (fun _ => true) = i.buckets.map (·.2) := by
      simp [OrderedMap.select]
    refine (List.perm_ext_iff_of_nodup ?_ hnodup).2 fun e => ?_
    · rw [← hselect]
      exact h.nodup_select hnodup _
    · rw [List.mem_flatten]
      constructor
      · rintro ⟨bucket, hbucket, he⟩
        obtain ⟨p, hp, rfl⟩ := List.mem_map.1 hbucket
        rw [h.bucket p hp] at he
        exact (List.mem_filter.1 he).1
      · intro he
        obtain ⟨p, hp, hsame⟩ := h.complete e he
        refine ⟨p.2, List.mem_map_of_mem hp, ?_⟩
        rw [h.bucket p hp]
        exact List.mem_filter.2 ⟨he, hsame⟩
  ordered p hp := by
    rw [h.bucket p hp]
    exact List.filter_sublist
  valued p hp e he := by
    rw [h.bucket p hp] at he
    exact (List.mem_filter.1 he).2

end Index

namespace Holder

variable {d : Definition} {primaryKey : Option String} {indexes : List String} {h h₀ : Holder}

/-- A store represents a ledger: its three copies of the events are those that are live, and it
answers additions and removals by them. -/
structure Represents (d : Definition) (primaryKey : Option String) (indexes : List String)
    (h : Holder) (l : Ledger) : Prop where
  events : h.events = l.live
  once : (h.events.map (·.id)).Nodup
  size : h.size = l.live.length
  primary : ∀ name, primaryKey = some name → ∃ position, d.position name = some position ∧
    (h.primary.map (·.2)).Perm h.events ∧ (∀ p ∈ h.primary, p.1 = p.2.event.get position) ∧
    h.events.Pairwise fun a b => (a.event.get position).same (b.event.get position) = false
  indexed : ∀ name, name ∈ h.indexes.map (·.name) ↔ name ∈ indexes
  indexes : ∀ i ∈ h.indexes, d.position i.name = some i.position ∧ i.Partitions h.events
  rejects : ∀ event, (h.add event).1 = none ↔
    ∃ name position, primaryKey = some name ∧ d.position name = some position ∧
      ∃ e ∈ h.events, (event.get position).same (e.event.get position) = true
  unchanged : ∀ event, (h.add event).1 = none → (h.add event).2 = h
  counts : ∀ handles : EventSet, (handles.map (·.id)).Nodup →
    (h.deleteEvents handles).1 = handles.countP (EventSet.has h.events)

/-- A store represents the ledger of every run that has led to it. -/
theorem represents_run (hbuild : Holder.build d primaryKey indexes = .ok h₀)
    (operations : List StoreOperation) :
    Represents d primaryKey indexes (h₀.run operations) (Ledger.ofRun d primaryKey operations) := by
  obtain ⟨hdefinition₀, -, -, hkeyed₀, hkeyless₀, -, hnames₀⟩ := shape_build hbuild
  obtain ⟨hshape, htracks⟩ := tracks_run hbuild operations
  generalize h₀.run operations = h at hshape htracks
  have hc := htracks.consistent
  have hdefinition : h.definition = d := (congrArg Prod.fst hshape).trans hdefinition₀
  have hkey : h.primaryKey = h₀.primaryKey := congrArg (fun shape => shape.2.1) hshape
  have hnames : h.indexes.map (·.name) = h₀.indexes.map (·.name) :=
    congrArg (fun shape => shape.2.2) hshape
  refine ⟨htracks.events, hc.nodup_ids, congrArg List.length htracks.events, ?_, ?_, ?_, ?_, ?_,
    fun handles hhandles => hc.fst_deleteEvents_of_nodup hhandles⟩
  · intro name hname
    obtain ⟨position, hposition, hkey₀⟩ := hkeyed₀ name hname
    have hentry := hc.primary name position (hkey.trans hkey₀)
    refine ⟨position, hposition, ?_, fun p hp => ((hentry p.1 p.2).1 hp).2,
      hc.distinct_keys (hkey.trans hkey₀)⟩
    refine (List.perm_ext_iff_of_nodup (hc.nodup_primary (hkey.trans hkey₀)) hc.nodup).2 fun e => ?_
    constructor
    · intro he
      obtain ⟨p, hp, rfl⟩ := List.mem_map.1 he
      exact ((hentry p.1 p.2).1 hp).1
    · exact fun he => List.mem_map.2 ⟨_, (hentry _ e).2 ⟨he, rfl⟩, rfl⟩
  · exact fun name => hnames ▸ hnames₀ name
  · exact fun i hi => ⟨hdefinition ▸ hc.indexAt i hi, (hc.indexes i hi).partitions hc.nodup⟩
  · intro event
    rw [fst_add_eq_none, hc.isTaken_eq, hkey]
    cases hprimary : primaryKey with
    | none => simp [hkeyless₀ hprimary]
    | some name =>
        obtain ⟨position, hposition, hkey₀⟩ := hkeyed₀ name hprimary
        simp [hkey₀, hposition]
  · intro event hrejected
    rw [add_eq, if_pos (fst_add_eq_none.1 hrejected)]

/-! ### Stocks that are keyed by symbol -/

namespace Stocks

def definition : Definition := ⟨"Stock", [⟨"symbol", .string⟩, ⟨"price", .double⟩]⟩

def empty : Holder := ⟨definition, some ("symbol", 0), 0, [], [], [⟨"price", 1, []⟩]⟩

/-- A symbol is entered again while it is taken, its row is removed together with one that was never
stored, and the symbol is entered a third time. -/
def operations : List StoreOperation :=
  [.add (.current 0 [.string "IBM", .int 55]), .add (.current 0 [.string "ORCL", .null]),
    .add (.current 0 [.string "IBM", .int 1]),
    .deleteEvents [⟨0, .current 0 [.string "IBM", .int 55]⟩, ⟨9, .current 0 []⟩],
    .add (.current 0 [.string "IBM", .long 55])]

end Stocks

/-- The first row of the symbol is gone, the second was rejected, and the third is stored. -/
theorem represents_run_stocks :
    Holder.build Stocks.definition (some "symbol") ["price"] = .ok Stocks.empty ∧
      (Ledger.ofRun Stocks.definition (some "symbol") Stocks.operations).live.map (·.id) = [1, 2] ∧
      Represents Stocks.definition (some "symbol") ["price"] (Stocks.empty.run Stocks.operations)
        (Ledger.ofRun Stocks.definition (some "symbol") Stocks.operations) :=
  ⟨rfl, by decide +kernel, represents_run rfl Stocks.operations⟩

end Holder

end EventQuery
