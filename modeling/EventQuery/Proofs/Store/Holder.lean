import EventQuery.Proofs.Store.EventSet
import EventQuery.Proofs.Store.OrderedMap
import EventQuery.Store.Holder

/-!
Consistency of stores. A store keeps its events three times: in the order of acceptance, by primary
key and by the values of indexed attributes. `Holder.Consistent` says that the three agree. It holds
of a new store and survives every operation, hence of every store that can be reached, and there
`findEvents` is a filter of the stored events whichever way it is answered.
-/

namespace EventQuery

namespace Comparison

/-- Values that are equal answer the same probes. -/
theorem probes_congr (op : Comparison) (probe : Value) {a b : Value} (h : a.same b = true) :
    op.probes probe a = op.probes probe b := by
  unfold probes
  rw [Value.isNull_congr h, holds_congr_left op h probe]

/-- A probe that is not null is a comparison. -/
theorem probes_eq_holds (op : Comparison) {probe : Value} (h : probe.isNull = false) (v : Value) :
    op.probes probe v = op.holds v probe := by
  simp [probes, h]

/-- An equality probe with null finds null. -/
@[simp] theorem equal_probes_null (v : Value) : Comparison.equal.probes .null v = v.isNull := rfl

end Comparison

namespace Index

/-- An index lists the given events: its buckets are not empty, and each holds the events with the
value of its key, in their order. -/
structure Lists (i : Index) (events : EventSet) : Prop where
  sorted : OrderedMap.Sorted i.buckets
  bucket : ∀ p ∈ i.buckets, p.2 = events.filter fun e => p.1.same (e.event.get i.position)
  nonempty : ∀ p ∈ i.buckets, p.2 ≠ []
  complete : ∀ e ∈ events, ∃ p ∈ i.buckets, p.1.same (e.event.get i.position) = true

@[simp] theorem insert_name (i : Index) (e : StoredEvent) : (i.insert e).name = i.name := rfl

@[simp] theorem insert_position (i : Index) (e : StoredEvent) :
    (i.insert e).position = i.position := rfl

@[simp] theorem remove_name (i : Index) (e : StoredEvent) : (i.remove e).name = i.name := rfl

@[simp] theorem remove_position (i : Index) (e : StoredEvent) :
    (i.remove e).position = i.position := rfl

theorem lists_nil (name : String) (position : Nat) : Lists ⟨name, position, []⟩ [] :=
  ⟨List.Pairwise.nil, by simp, by simp, by simp⟩

variable {i : Index} {events : EventSet} {e : StoredEvent}

theorem Lists.insert (h : i.Lists events) (e : StoredEvent) :
    (i.insert e).Lists (events ++ [e]) := by
  have hmem := OrderedMap.mem_update h.sorted (e.event.get i.position)
    (fun bucket => bucket.getD [] ++ [e])
  refine ⟨h.sorted.update _ _, fun p hp => ?_, fun p hp => ?_, fun x hx => ?_⟩
  · rcases (hmem p).1 hp with ⟨hp, hne⟩ | ⟨q, hq, hsame, rfl⟩ | ⟨hnone, rfl⟩
    · rw [Value.same_comm] at hne
      simp [List.filter_append, h.bucket p hp, hne]
    · rw [Value.same_comm] at hsame
      simp [List.filter_append, ← h.bucket q hq, hsame]
    -- No event had the value before, as each lies in a bucket of its value.
    · have hnew : ∀ x ∈ events, (e.event.get i.position).same (x.event.get i.position) = false := by
        intro x hx
        obtain ⟨p, hp, hsame⟩ := h.complete x hx
        rw [← Value.same_congr_right hsame]
        exact hnone p hp
      simpa [List.filter_append] using hnew
  · rcases (hmem p).1 hp with ⟨hp, -⟩ | ⟨q, -, -, rfl⟩ | ⟨-, rfl⟩
    · exact h.nonempty p hp
    · simp
    · simp
  · rcases List.mem_append.1 hx with hx | hx
    · obtain ⟨p, hp, hsame⟩ := h.complete x hx
      by_cases hkey : (e.event.get i.position).same p.1 = true
      · exact ⟨_, (hmem _).2 (.inr (.inl ⟨p, hp, hkey, rfl⟩)), hsame⟩
      · exact ⟨p, (hmem p).2 (.inl ⟨hp, by simpa using hkey⟩), hsame⟩
    · obtain rfl := List.mem_singleton.1 hx
      by_cases hkey : ∃ q ∈ i.buckets, (x.event.get i.position).same q.1 = true
      · obtain ⟨q, hq, hsame⟩ := hkey
        exact ⟨_, (hmem _).2 (.inr (.inl ⟨q, hq, hsame, rfl⟩)), by rwa [Value.same_comm]⟩
      · refine ⟨_, (hmem _).2 (.inr (.inr ⟨fun q hq => ?_, rfl⟩)), Value.same_self _⟩
        exact Bool.eq_false_iff.2 fun hsame => hkey ⟨q, hq, hsame⟩

/-- The entry that is left of an entry when an event is removed. -/
def withoutEvent (key : Value) (e : StoredEvent) (p : Value × EventSet) :
    Option (Value × EventSet) :=
  if key.same p.1 then
    if (EventSet.remove p.2 e).isEmpty then none else some (p.1, EventSet.remove p.2 e)
  else some p

theorem remove_buckets (i : Index) (e : StoredEvent) :
    (i.remove e).buckets = i.buckets.filterMap (withoutEvent (e.event.get i.position) e) := rfl

theorem withoutEvent_eq_some {key : Value} {p q : Value × EventSet} :
    withoutEvent key e p = some q ↔
      q.1 = p.1 ∧ if key.same p.1 then q.2 = EventSet.remove p.2 e ∧ q.2 ≠ [] else q.2 = p.2 := by
  unfold withoutEvent
  obtain ⟨k, bucket⟩ := p
  obtain ⟨k', bucket'⟩ := q
  split
  · split <;> grind
  · grind

/-- Removing a stored event from its bucket removes it from the index. -/
theorem Lists.remove (hid : EventSet.Identified events) (h : i.Lists events) (he : e ∈ events) :
    (i.remove e).Lists (EventSet.remove events e) := by
  have hother : ∀ k : Value, (e.event.get i.position).same k = false →
      (EventSet.remove events e).filter (fun x => k.same (x.event.get i.position)) =
        events.filter fun x => k.same (x.event.get i.position) := by
    intro k hk
    rw [EventSet.remove, List.filter_filter]
    refine List.filter_congr fun x hx => ?_
    by_cases hxe : x.id = e.id
    · rw [hid x hx e he hxe, Value.same_comm, hk]
      rfl
    · simp [hxe]
  have hown : ∀ p ∈ i.buckets, EventSet.remove p.2 e =
      (EventSet.remove events e).filter fun x => p.1.same (x.event.get i.position) := by
    intro p hp
    rw [EventSet.remove, EventSet.remove, h.bucket p hp, List.filter_filter, List.filter_filter]
    exact List.filter_congr fun x _ => Bool.and_comm _ _
  refine ⟨?_, fun q hq => ?_, fun q hq => ?_, fun x hx => ?_⟩
  · rw [remove_buckets]
    exact h.sorted.filterMap fun p _ q hq => (withoutEvent_eq_some.1 hq).1
  all_goals simp only [remove_buckets, remove_position, List.mem_filterMap,
    withoutEvent_eq_some] at *
  · obtain ⟨p, hp, hkey, hcontent⟩ := hq
    split at hcontent
    · rw [hcontent.1, hkey]
      exact hown p hp
    · rename_i hne
      rw [hcontent, hkey, hother p.1 (by simpa using hne)]
      exact h.bucket p hp
  · obtain ⟨p, hp, -, hcontent⟩ := hq
    split at hcontent
    · exact hcontent.2
    · rw [hcontent]
      exact h.nonempty p hp
  · obtain ⟨hx, hxe⟩ := EventSet.mem_remove.1 hx
    obtain ⟨p, hp, hsame⟩ := h.complete x hx
    by_cases hkey : (e.event.get i.position).same p.1 = true
    · -- The bucket that loses the event still holds this one.
      refine ⟨(p.1, EventSet.remove p.2 e), ⟨p, hp, rfl, ?_⟩, hsame⟩
      have hmem : x ∈ EventSet.remove p.2 e := by
        rw [EventSet.mem_remove, h.bucket p hp, List.mem_filter]
        exact ⟨⟨hx, hsame⟩, hxe⟩
      rw [if_pos hkey]
      exact ⟨rfl, List.ne_nil_of_mem hmem⟩
    · exact ⟨p, ⟨p, hp, rfl, by simp [hkey]⟩, hsame⟩

/-- The buckets that a probe selects hold the events that answer it. -/
theorem Lists.mem_select (h : i.Lists events) (op : Comparison) (probe : Value) :
    e ∈ (i.buckets.select (op.probes probe)).flatten ↔
      e ∈ events ∧ op.probes probe (e.event.get i.position) = true := by
  simp only [List.mem_flatten, OrderedMap.mem_select]
  constructor
  · rintro ⟨bucket, ⟨k, hp, htest⟩, hmem⟩
    have hbucket : bucket = _ := h.bucket _ hp
    rw [hbucket, List.mem_filter] at hmem
    exact ⟨hmem.1, by rwa [← Comparison.probes_congr op probe hmem.2]⟩
  · rintro ⟨hmem, htest⟩
    obtain ⟨p, hp, hsame⟩ := h.complete e hmem
    refine ⟨p.2, ⟨p.1, hp, by rwa [Comparison.probes_congr op probe hsame]⟩, ?_⟩
    rw [h.bucket p hp, List.mem_filter]
    exact ⟨hmem, hsame⟩

/-- Buckets of different keys share no event, so a selection lists none twice. -/
theorem Lists.nodup_select (h : i.Lists events) (hevents : events.Nodup) (test : Value → Bool) :
    (i.buckets.select test).flatten.Nodup := by
  rw [List.nodup_flatten, OrderedMap.select, List.pairwise_map]
  constructor
  · intro bucket hbucket
    obtain ⟨p, hp, rfl⟩ := List.mem_map.1 hbucket
    rw [h.bucket p (List.mem_filter.1 hp).1]
    exact hevents.filter _
  · -- A shared event would make the keys of its two buckets equal.
    refine (h.sorted.filter _).imp_of_mem fun {p q} hp hq hlt x hxp hxq => ?_
    rw [h.bucket p (List.mem_filter.1 hp).1, List.mem_filter] at hxp
    rw [h.bucket q (List.mem_filter.1 hq).1, List.mem_filter] at hxq
    have hsame : p.1.same q.1 = true := by
      rw [Value.same_congr_left hxp.2, Value.same_comm]
      exact hxq.2
    simp [OrderedMap.Sorted.same_eq_false_of_lt hlt] at hsame

end Index

namespace Holder

/-- The three copies of the stored events agree. -/
structure Consistent (h : Holder) : Prop where
  ascending : h.events.Pairwise fun a b => a.id < b.id
  fresh : ∀ e ∈ h.events, e.id < h.nextId
  keyAt : ∀ name position, h.primaryKey = some (name, position) →
    h.definition.position name = some position
  sorted : OrderedMap.Sorted h.primary
  primary : ∀ name position, h.primaryKey = some (name, position) →
    ∀ k e, (k, e) ∈ h.primary ↔ e ∈ h.events ∧ k = e.event.get position
  indexAt : ∀ i ∈ h.indexes, h.definition.position i.name = some i.position
  indexes : ∀ i ∈ h.indexes, i.Lists h.events

/-- The stores that arise from a new one by adding events, removing them and emptying the store. -/
inductive Reachable (d : Definition) (primaryKey : Option String) (indexes : List String) :
    Holder → Prop
  | build {h : Holder} :
      Holder.build d primaryKey indexes = .ok h → Reachable d primaryKey indexes h
  | add {h : Holder} (event : Event) :
      Reachable d primaryKey indexes h → Reachable d primaryKey indexes (h.add event).2
  | deleteEvents {h : Holder} (handles : EventSet) :
      Reachable d primaryKey indexes h → Reachable d primaryKey indexes (h.deleteEvents handles).2
  | delete {h : Holder} (name : String) (op : Comparison) (probe : Value) :
      Reachable d primaryKey indexes h → Reachable d primaryKey indexes (h.delete name op probe).2
  | clear {h : Holder} : Reachable d primaryKey indexes h → Reachable d primaryKey indexes h.clear

variable {h : Holder}

theorem Consistent.nodup (hc : h.Consistent) : h.events.Nodup :=
  hc.ascending.imp fun hlt heq => by simp [heq] at hlt

theorem Consistent.identified (hc : h.Consistent) : EventSet.Identified h.events := by
  have hids : (h.events.map (·.id)).Nodup :=
    List.pairwise_map.2 (hc.ascending.imp fun hlt => Nat.ne_of_lt hlt)
  exact fun a ha b hb heq => List.inj_on_of_nodup_map hids ha hb heq

theorem Consistent.drawn (hc : h.Consistent) : EventSet.DrawnFrom h.events h.events :=
  ⟨hc.nodup, fun _ he => he⟩

/-! ### A new store -/

theorem consistent_unindexed (d : Definition) : (unindexed d).Consistent where
  ascending := List.Pairwise.nil
  fresh := by simp [unindexed]
  keyAt := by simp [unindexed]
  sorted := List.Pairwise.nil
  primary := by simp [unindexed]
  indexAt := by simp [unindexed]
  indexes := by simp [unindexed]

theorem keyPosition_eq_ok {d : Definition} {name : String} {position : Nat}
    (h : keyPosition d name = .ok position) : d.position name = some position := by
  unfold keyPosition at h
  split at h <;> simp_all

theorem Consistent.addIndex (hc : h.Consistent) (hempty : h.events = []) {name : String}
    {position : Nat} (hposition : h.definition.position name = some position) :
    Consistent { h with indexes := h.indexes ++ [⟨name, position, []⟩] } := by
  refine { hc with indexAt := fun i hi => ?_, indexes := fun i hi => ?_ }
  all_goals rcases List.mem_append.1 hi with hi | hi
  · exact hc.indexAt i hi
  · rw [List.mem_singleton.1 hi]
    exact hposition
  · exact hc.indexes i hi
  · rw [List.mem_singleton.1 hi]
    simp only [hempty]
    exact Index.lists_nil name position

theorem Consistent.addIndexes {names : List String} {h' : Holder} (hc : h.Consistent)
    (hempty : h.events = []) (hadd : h.addIndexes names = .ok h') : h'.Consistent := by
  induction names generalizing h with
  | nil =>
      obtain rfl : h = h' := by simpa [Holder.addIndexes] using hadd
      exact hc
  | cons name rest ih =>
      simp only [Holder.addIndexes] at hadd
      cases hkey : keyPosition h.definition name with
      | error e => simp [hkey, bind, Except.bind] at hadd
      | ok position =>
          simp only [hkey, bind, Except.bind] at hadd
          split at hadd
          · exact ih hc hempty hadd
          · exact ih (hc.addIndex hempty (keyPosition_eq_ok hkey)) hempty hadd

theorem consistent_build {d : Definition} {primaryKey : Option String} {indexes : List String}
    (hbuild : Holder.build d primaryKey indexes = .ok h) : h.Consistent := by
  cases primaryKey with
  | none => exact (consistent_unindexed d).addIndexes rfl hbuild
  | some name =>
      simp only [Holder.build] at hbuild
      cases hkey : keyPosition d name with
      | error e => simp [hkey, bind, Except.bind] at hbuild
      | ok position =>
          simp only [hkey, bind, Except.bind] at hbuild
          refine Consistent.addIndexes
            (h := { unindexed d with primaryKey := some (name, position) }) ?_ rfl hbuild
          refine { consistent_unindexed d with keyAt := ?_, primary := ?_ }
          · rintro name' position' heq
            obtain ⟨rfl, rfl⟩ := by simpa using heq
            exact keyPosition_eq_ok hkey
          · simp [unindexed]

/-! ### Adding an event -/

/-- The store after an event has been accepted. -/
def accept (h : Holder) (event : Event) : Holder :=
  { h with
    nextId := h.nextId + 1
    events := h.events ++ [⟨h.nextId, event⟩]
    primary := match h.primaryKey with
      | some (_, position) => h.primary.update (event.get position) fun _ => ⟨h.nextId, event⟩
      | none => h.primary
    indexes := h.indexes.map (·.insert ⟨h.nextId, event⟩) }

/-- Whether the primary key of an event is taken. -/
def isTaken (h : Holder) (event : Event) : Bool :=
  h.primaryKey.any fun (_, position) => h.primary.has (event.get position)

theorem add_eq (h : Holder) (event : Event) :
    h.add event =
      if h.isTaken event then (none, h) else (some ⟨h.nextId, event⟩, h.accept event) := by
  obtain ⟨d, key, next, events, primary, indexes⟩ := h
  cases key <;> rfl

theorem Consistent.accept (hc : h.Consistent) {event : Event} (hfree : h.isTaken event = false) :
    (h.accept event).Consistent where
  ascending := by
    refine List.pairwise_append.2 ⟨hc.ascending, List.pairwise_singleton _ _, fun a ha b hb => ?_⟩
    rw [List.mem_singleton.1 hb]
    exact hc.fresh a ha
  fresh e he := by
    rcases List.mem_append.1 he with he | he
    · exact Nat.lt_succ_of_lt (hc.fresh e he)
    · rw [List.mem_singleton.1 he]
      exact Nat.lt_succ_self _
  keyAt := hc.keyAt
  sorted := by
    simp only [Holder.accept]
    split
    · exact hc.sorted.update _ _
    · exact hc.sorted
  primary name position hkey k e := by
    replace hkey : h.primaryKey = some (name, position) := hkey
    have hnew : ∀ p ∈ h.primary, (event.get position).same p.1 = false := by
      simpa [isTaken, hkey, OrderedMap.has_eq_false_iff] using hfree
    simp only [Holder.accept, hkey, OrderedMap.mem_update hc.sorted, List.mem_append,
      List.mem_singleton]
    constructor
    · rintro (⟨hp, -⟩ | ⟨q, hq, hsame, -⟩ | ⟨-, heq⟩)
      · obtain ⟨he, rfl⟩ := (hc.primary name position hkey k e).1 hp
        exact ⟨.inl he, rfl⟩
      · simp [hnew q hq] at hsame
      · obtain ⟨rfl, rfl⟩ := Prod.mk.inj heq
        exact ⟨.inr rfl, rfl⟩
    · rintro ⟨he | rfl, rfl⟩
      · have hp := (hc.primary name position hkey _ e).2 ⟨he, rfl⟩
        exact .inl ⟨hp, hnew _ hp⟩
      · exact .inr (.inr ⟨hnew, rfl⟩)
  indexAt i hi := by
    obtain ⟨j, hj, rfl⟩ := List.mem_map.1 hi
    exact hc.indexAt j hj
  indexes i hi := by
    obtain ⟨j, hj, rfl⟩ := List.mem_map.1 hi
    exact (hc.indexes j hj).insert _

theorem Consistent.add (hc : h.Consistent) (event : Event) : (h.add event).2.Consistent := by
  rw [add_eq]
  split
  · exact hc
  · rename_i hfree
    exact hc.accept (by simpa using hfree)

/-! ### Removing events -/

theorem Consistent.removeStored (hc : h.Consistent) {e : StoredEvent} (he : e ∈ h.events) :
    (h.removeStored e).Consistent where
  ascending := hc.ascending.filter _
  fresh x hx := hc.fresh x (EventSet.mem_remove.1 hx).1
  keyAt := hc.keyAt
  sorted := by
    simp only [Holder.removeStored]
    split
    · exact hc.sorted.erase _
    · exact hc.sorted
  primary name position hkey k x := by
    replace hkey : h.primaryKey = some (name, position) := hkey
    have hkeyOf := hc.primary name position hkey
    simp only [Holder.removeStored, hkey, OrderedMap.mem_erase, EventSet.mem_remove, hkeyOf]
    constructor
    · rintro ⟨⟨hx, rfl⟩, hne⟩
      refine ⟨⟨hx, fun heq => ?_⟩, rfl⟩
      rw [hc.identified x hx e he heq] at hne
      simp at hne
    · rintro ⟨⟨hx, hne⟩, rfl⟩
      refine ⟨⟨hx, rfl⟩, Bool.eq_false_iff.2 fun hsame => hne ?_⟩
      have hentry := hc.sorted.eq_of_same ((hkeyOf _ e).2 ⟨he, rfl⟩) ((hkeyOf _ x).2 ⟨hx, rfl⟩)
        hsame
      rw [(Prod.mk.inj hentry).2]
  indexAt i hi := by
    obtain ⟨j, hj, rfl⟩ := List.mem_map.1 hi
    exact hc.indexAt j hj
  indexes i hi := by
    obtain ⟨j, hj, rfl⟩ := List.mem_map.1 hi
    exact (hc.indexes j hj).remove hc.identified he

theorem stored?_eq_some {handle e : StoredEvent} (h' : h.stored? handle = some e) : e ∈ h.events :=
  List.mem_of_find?_eq_some h'

theorem Consistent.deleteEvents (hc : h.Consistent) (handles : EventSet) :
    (h.deleteEvents handles).2.Consistent := by
  induction handles generalizing h with
  | nil => exact hc
  | cons handle rest ih =>
      simp only [Holder.deleteEvents]
      split
      · rename_i e hstored
        exact ih (hc.removeStored (stored?_eq_some hstored))
      · exact ih hc

theorem Consistent.clear (hc : h.Consistent) : h.clear.Consistent where
  ascending := List.Pairwise.nil
  fresh := by simp [Holder.clear]
  keyAt := hc.keyAt
  sorted := List.Pairwise.nil
  primary := by simp [Holder.clear]
  indexAt i hi := by
    obtain ⟨j, hj, rfl⟩ := List.mem_map.1 hi
    exact hc.indexAt j hj
  indexes i hi := by
    obtain ⟨j, hj, rfl⟩ := List.mem_map.1 hi
    exact Index.lists_nil j.name j.position

/-- Every store that can be reached is consistent. -/
theorem Reachable.consistent {d : Definition} {primaryKey : Option String} {indexes : List String}
    (hr : Reachable d primaryKey indexes h) : h.Consistent := by
  induction hr with
  | build hbuild => exact consistent_build hbuild
  | add event _ ih => exact ih.add event
  | deleteEvents handles _ ih => exact ih.deleteEvents handles
  | delete name op probe _ ih => exact ih.deleteEvents _
  | clear _ ih => exact ih.clear

/-! ### Searching -/

theorem index?_eq_some {name : String} {i : Index} (h' : h.index? name = some i) :
    i ∈ h.indexes ∧ i.name = name :=
  ⟨List.mem_of_find?_eq_some h', by simpa using List.find?_some h'⟩

theorem isPrimaryKey_iff {name : String} :
    h.isPrimaryKey name = true ↔ ∃ position, h.primaryKey = some (name, position) := by
  simp [isPrimaryKey, Option.any_eq_true]

/-- However a probe is answered, it finds the stored events whose attribute answers it. -/
theorem Consistent.mem_findEvents (hc : h.Consistent) {name : String} {position : Nat}
    (hposition : h.definition.position name = some position) (op : Comparison) (probe : Value)
    (e : StoredEvent) :
    e ∈ h.findEvents name op probe ↔
      e ∈ h.events ∧ op.probes probe (e.event.get position) = true := by
  unfold findEvents
  split
  · rename_i hprimary
    obtain ⟨position', hkey⟩ := isPrimaryKey_iff.1 hprimary
    obtain rfl : position' = position := by
      simpa [hposition] using (hc.keyAt name position' hkey).symm
    simp only [OrderedMap.mem_select, hc.primary name position' hkey]
    grind
  · split
    · rename_i i hindex
      obtain ⟨hi, rfl⟩ := index?_eq_some hindex
      obtain rfl : i.position = position := by simpa [hposition] using (hc.indexAt i hi).symm
      exact (hc.indexes i hi).mem_select op probe
    · simp [hposition]

/-- No answer lists an event twice. -/
theorem Consistent.nodup_findEvents (hc : h.Consistent) (name : String) (op : Comparison)
    (probe : Value) :
    (h.findEvents name op probe).Nodup := by
  unfold findEvents
  split
  · rename_i hprimary
    obtain ⟨position, hkey⟩ := isPrimaryKey_iff.1 hprimary
    rw [OrderedMap.select, List.Nodup, List.pairwise_map]
    refine (hc.sorted.filter _).imp_of_mem fun {p q} hp hq hlt heq => ?_
    -- The event determines its key, and keys ascend strictly.
    have hp' := ((hc.primary name position hkey p.1 p.2).1 (List.mem_filter.1 hp).1).2
    have hq' := ((hc.primary name position hkey q.1 q.2).1 (List.mem_filter.1 hq).1).2
    rw [hp', hq', heq, Value.order_self] at hlt
    cases hlt
  · split
    · rename_i i hindex
      exact (hc.indexes i (index?_eq_some hindex).1).nodup_select hc.nodup _
    · split
      · exact List.nodup_nil
      · exact hc.nodup.filter _

theorem Consistent.drawn_findEvents (hc : h.Consistent) {name : String} {position : Nat}
    (hposition : h.definition.position name = some position) (op : Comparison) (probe : Value) :
    EventSet.DrawnFrom h.events (h.findEvents name op probe) :=
  ⟨hc.nodup_findEvents name op probe, fun e he => ((hc.mem_findEvents hposition op probe e).1 he).1⟩

/-- No attribute but those of the definition is a key or has an index, so there is nothing to find
under other names. -/
theorem Consistent.findEvents_unknown (hc : h.Consistent) {name : String}
    (hunknown : h.definition.position name = none) (op : Comparison) (probe : Value) :
    h.findEvents name op probe = [] := by
  have hkey : h.isPrimaryKey name = false := by
    refine Bool.eq_false_iff.2 fun hprimary => ?_
    obtain ⟨position, hkey⟩ := isPrimaryKey_iff.1 hprimary
    simp [hc.keyAt name position hkey] at hunknown
  have hindex : h.index? name = none := by
    cases hfound : h.index? name with
    | none => rfl
    | some i =>
        obtain ⟨hi, rfl⟩ := index?_eq_some hfound
        simp [hc.indexAt i hi] at hunknown
  simp [findEvents, hkey, hindex, hunknown]

theorem Consistent.findEvents_subset (hc : h.Consistent) {name : String} {op : Comparison}
    {probe : Value} {e : StoredEvent} (he : e ∈ h.findEvents name op probe) : e ∈ h.events := by
  cases hposition : h.definition.position name with
  | none => simp [hc.findEvents_unknown hposition] at he
  | some position => exact ((hc.mem_findEvents hposition op probe e).1 he).1

/-- A store answers whether it has an event for a probe as if it had listed the events. -/
theorem containsEvent_eq (h : Holder) (name : String) (op : Comparison) (probe : Value) :
    h.containsEvent name op probe = !(h.findEvents name op probe).isEmpty := by
  unfold containsEvent findEvents
  split
  · rw [Bool.eq_iff_iff]
    simp [OrderedMap.select]
  · split
    · rw [Bool.eq_iff_iff]
      simpa [OrderedMap.select] using exists_comm
    · rfl

/-! ### Stores without a primary key -/

/-- A store of a definition that accepts every event. -/
structure Keyless (d : Definition) (h : Holder) : Prop where
  consistent : h.Consistent
  definition : h.definition = d
  primaryKey : h.primaryKey = none

theorem addIndexes_eq_ok {names : List String} {h' : Holder} (hadd : h.addIndexes names = .ok h') :
    h'.definition = h.definition ∧ h'.primaryKey = h.primaryKey ∧ h'.events = h.events := by
  induction names generalizing h with
  | nil =>
      cases hadd
      exact ⟨rfl, rfl, rfl⟩
  | cons name rest ih =>
      unfold Holder.addIndexes at hadd
      cases hkey : keyPosition h.definition name with
      | error e => simp [hkey, bind, Except.bind] at hadd
      | ok position =>
          simp only [hkey, bind, Except.bind] at hadd
          split at hadd
          · exact ih hadd
          · have hrest := ih hadd
            exact hrest

theorem keyless_build {d : Definition} {indexes : List String}
    (hbuild : Holder.build d none indexes = .ok h) :
    h.Keyless d ∧ h.events = [] := by
  obtain ⟨hdefinition, hkey, hevents⟩ := addIndexes_eq_ok hbuild
  exact ⟨⟨consistent_build hbuild, hdefinition, hkey⟩, hevents⟩

/-- All events are stored in their order. -/
theorem Keyless.addAll {d : Definition} (hk : h.Keyless d) (events : List Event) :
    (h.addAll events).2.Keyless d ∧ (h.addAll events).2.rows = h.rows ++ events := by
  induction events generalizing h with
  | nil => exact ⟨hk, (List.append_nil _).symm⟩
  | cons event rest ih =>
      have hfree : h.isTaken event = false := by simp [isTaken, hk.primaryKey]
      have hadd : (h.add event).2 = h.accept event := by simp [add_eq, hfree]
      obtain ⟨hkeyless, hrows⟩ := ih (h := h.accept event)
        ⟨hk.consistent.accept hfree, hk.definition, hk.primaryKey⟩
      have hcons : (h.addAll (event :: rest)).2 = ((h.accept event).addAll rest).2 := by
        rw [← hadd]
        rfl
      rw [hcons]
      refine ⟨hkeyless, hrows.trans ?_⟩
      simp [Holder.rows, Holder.accept]

end Holder

end EventQuery
