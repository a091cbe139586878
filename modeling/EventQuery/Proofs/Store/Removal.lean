import EventQuery.Proofs.Store.Holder

/-!
Removing events from a store. The events that no handle stands for stay in their order, the number
given is that of the stored events that are gone, and every lookup afterwards is the earlier lookup
without them.
-/

namespace EventQuery

namespace EventSet

variable {s : EventSet} {e handle : StoredEvent}

theorem has_cons (handle : StoredEvent) (rest : EventSet) (e : StoredEvent) :
    has (handle :: rest) e = (decide (handle.id = e.id) || has rest e) := rfl

theorem remove_comm (s : EventSet) (e : StoredEvent) (test : StoredEvent → Bool) :
    (remove s e).filter test = remove (s.filter test) e := by
  simp only [remove, List.filter_filter, Bool.and_comm]

theorem remove_append (s t : EventSet) (e : StoredEvent) :
    remove (s ++ t) e = remove s e ++ remove t e := List.filter_append ..

/-- Removing one event and then others removes them all. -/
theorem filter_remove (s : EventSet) (rest : EventSet) (h : e.id = handle.id) :
    (remove s e).filter (!has rest ·) = s.filter (!has (handle :: rest) ·) := by
  simp only [remove, List.filter_filter, has_cons, Bool.not_or]
  refine List.filter_congr fun x _ => ?_
  rw [Bool.and_comm, h]
  by_cases hx : handle.id = x.id <;> simp [hx, eq_comm]

theorem remove_eq_self (h : ∀ x ∈ s, x.id ≠ e.id) : remove s e = s :=
  List.filter_eq_self.2 fun x hx => by simpa using h x hx

/-- An event that stands once among others is the only one that its removal takes. -/
theorem length_remove (hids : (s.map (·.id)).Nodup) (he : e ∈ s) :
    (remove s e).length + 1 = s.length := by
  induction s with
  | nil => cases he
  | cons x rest ih =>
      obtain ⟨hx, hrest⟩ := List.nodup_cons.1 hids
      have hother : ∀ y ∈ rest, y.id ≠ x.id := fun y hy heq =>
        hx (List.mem_map.2 ⟨y, hy, heq⟩)
      rcases List.mem_cons.1 he with rfl | he
      · have hhead : remove (e :: rest) e = remove rest e := by simp [remove]
        rw [hhead, remove_eq_self hother, List.length_cons]
      · have hhead : remove (x :: rest) e = x :: remove rest e := by
          simp [remove, (hother e he).symm]
        rw [hhead, List.length_cons, List.length_cons, ih hrest he]

end EventSet

namespace OrderedMap

theorem flatten_select_cons (p : Value × EventSet) (rest : OrderedMap EventSet)
    (test : Value → Bool) :
    (select (p :: rest) test).flatten =
      (if test p.1 then p.2 else []) ++ (rest.select test).flatten := by
  by_cases htest : test p.1 = true <;> simp [select, htest]

end OrderedMap

namespace Index

variable {i : Index} {events : EventSet} {e : StoredEvent}

/-- What an index selects after a removal is what it selected before, without the event. -/
theorem Lists.select_remove (hid : EventSet.Identified events) (h : i.Lists events)
    (he : e ∈ events) (test : Value → Bool) :
    ((i.remove e).buckets.select test).flatten =
      EventSet.remove (i.buckets.select test).flatten e := by
  -- Buckets of other values do not have the event.
  have hother : ∀ p ∈ i.buckets, (e.event.get i.position).same p.1 = false →
      EventSet.remove p.2 e = p.2 := by
    intro p hp hne
    refine EventSet.remove_eq_self fun x hx heq => ?_
    rw [h.bucket p hp, List.mem_filter] at hx
    rw [← hid x hx.1 e he heq, Value.same_comm, hx.2] at hne
    cases hne
  rw [remove_buckets]
  generalize i.buckets = buckets at hother
  induction buckets with
  | nil => rfl
  | cons p rest ih =>
      replace ih := ih fun q hq => hother q (List.mem_cons_of_mem _ hq)
      rw [OrderedMap.flatten_select_cons, EventSet.remove_append, ← ih]
      have hhead : EventSet.remove (if test p.1 then p.2 else []) e =
          if test p.1 then EventSet.remove p.2 e else [] := by
        split <;> rfl
      rw [hhead, List.filterMap_cons, withoutEvent]
      by_cases hkey : (e.event.get i.position).same p.1 = true
      · rw [if_pos hkey]
        by_cases hempty : (EventSet.remove p.2 e).isEmpty = true
        · rw [if_pos hempty, List.isEmpty_iff.1 hempty]
          simp
        · rw [if_neg hempty]
          exact OrderedMap.flatten_select_cons _ _ _
      · rw [if_neg hkey, hother p List.mem_cons_self (by simpa using hkey)]
        exact OrderedMap.flatten_select_cons _ _ _

end Index

namespace Holder

variable {h : Holder} {e : StoredEvent}

theorem index?_removeStored (h : Holder) (e : StoredEvent) (name : String) :
    (h.removeStored e).index? name = (h.index? name).map (·.remove e) := by
  simp only [index?, removeStored, List.find?_map]
  rfl

/-- A lookup after a removal gives what it gave before, without the event. -/
theorem Consistent.findEvents_removeStored (hc : h.Consistent) (he : e ∈ h.events) (name : String)
    (op : Comparison) (probe : Value) :
    (h.removeStored e).findEvents name op probe =
      EventSet.remove (h.findEvents name op probe) e := by
  have hkeyed : (h.removeStored e).isPrimaryKey name = h.isPrimaryKey name := rfl
  unfold findEvents
  rw [hkeyed, index?_removeStored]
  split
  · rename_i hprimary
    obtain ⟨position, hkey⟩ := isPrimaryKey_iff.1 hprimary
    have hentry := hc.primary name position hkey
    simp only [Holder.removeStored, hkey, OrderedMap.select, OrderedMap.erase, EventSet.remove,
      List.filter_map, List.filter_filter]
    congr 1
    refine List.filter_congr fun p hp => ?_
    obtain ⟨hstored, hvalue⟩ := (hentry p.1 p.2).1 hp
    -- An entry has the key of the event only if it is the entry of the event.
    have hsame : (e.event.get position).same p.1 = decide (p.2.id = e.id) := by
      by_cases hid : p.2.id = e.id
      · rw [hvalue, hc.identified p.2 hstored e he hid]
        simp
      · rw [decide_eq_false hid, Bool.eq_false_iff]
        intro hsame
        have heq := hc.sorted.eq_of_same ((hentry _ e).2 ⟨he, rfl⟩) hp hsame
        exact hid (by rw [← heq])
    simp [hsame, Bool.and_comm]
  · cases hindex : h.index? name with
    | some index =>
        obtain ⟨hi, -⟩ := index?_eq_some hindex
        exact (hc.indexes index hi).select_remove hc.identified he _
    | none =>
        have hdefinition : (h.removeStored e).definition = h.definition := rfl
        simp only [Option.map_none, hdefinition]
        cases h.definition.position name with
        | none => rfl
        | some position => exact EventSet.remove_comm _ _ _

theorem Consistent.nodup_ids (hc : h.Consistent) : (h.events.map (·.id)).Nodup :=
  hc.drawn.nodup_ids hc.identified

theorem stored?_eq_none {handle : StoredEvent} (hnone : h.stored? handle = none) :
    ∀ x ∈ h.events, x.id ≠ handle.id := by
  simpa [stored?] using hnone

theorem id_of_stored? {handle : StoredEvent} (hstored : h.stored? handle = some e) :
    e.id = handle.id := by
  simpa [stored?] using List.find?_some hstored

/-- The events that no handle stands for stay. -/
theorem events_deleteEvents (h : Holder) (handles : EventSet) :
    (h.deleteEvents handles).2.events = h.events.filter (!EventSet.has handles ·) := by
  induction handles generalizing h with
  | nil => exact (List.filter_eq_self.2 fun _ _ => rfl).symm
  | cons handle rest ih =>
      simp only [deleteEvents]
      cases hstored : h.stored? handle with
      | some e =>
          exact (ih (h.removeStored e)).trans
            (EventSet.filter_remove h.events rest (id_of_stored? hstored))
      | none =>
          refine (ih h).trans (List.filter_congr fun x hx => ?_)
          simp [EventSet.has_cons, Ne.symm (stored?_eq_none hstored x hx)]

/-- The number given is that of the events that are gone. -/
theorem Consistent.fst_deleteEvents (hc : h.Consistent) (handles : EventSet) :
    (h.deleteEvents handles).1 = (h.events.filter (EventSet.has handles)).length := by
  have htotal : (h.deleteEvents handles).1 + (h.deleteEvents handles).2.events.length =
      h.events.length := by
    induction handles generalizing h with
    | nil => exact Nat.zero_add _
    | cons handle rest ih =>
        simp only [Holder.deleteEvents]
        cases hstored : h.stored? handle with
        | some e =>
            have he := stored?_eq_some hstored
            have hrest := ih (hc.removeStored he)
            have hone := EventSet.length_remove hc.nodup_ids he
            simp only [Holder.removeStored] at hrest hone ⊢
            omega
        | none => exact ih hc
  rw [events_deleteEvents] at htotal
  have hsplit := List.length_eq_length_filter_add (l := h.events) (EventSet.has handles)
  omega

/-- Of handles that stand for different events, those of stored events are counted. -/
theorem Consistent.fst_deleteEvents_of_nodup (hc : h.Consistent) {handles : EventSet}
    (hhandles : (handles.map (·.id)).Nodup) :
    (h.deleteEvents handles).1 = handles.countP (EventSet.has h.events) := by
  rw [hc.fst_deleteEvents, List.countP_eq_length_filter]
  have hids (s : EventSet) (hs : (s.map (·.id)).Nodup) (test : StoredEvent → Bool) :
      ((s.filter test).map (·.id)).Nodup := hs.sublist (List.filter_sublist.map _)
  have hperm := (List.perm_ext_iff_of_nodup (hids _ hc.nodup_ids (EventSet.has handles))
    (hids _ hhandles (EventSet.has h.events))).2 fun n => by
      simp only [List.mem_map, List.mem_filter, EventSet.has, List.any_eq_true, decide_eq_true_eq]
      constructor
      · rintro ⟨e, ⟨he, x, hx, heq⟩, rfl⟩
        exact ⟨x, ⟨hx, e, he, heq.symm⟩, heq⟩
      · rintro ⟨x, ⟨hx, e, he, heq⟩, rfl⟩
        exact ⟨e, ⟨he, x, hx, heq.symm⟩, heq⟩
  simpa using hperm.length_eq

/-- Every lookup after a removal gives what it gave before, without the events removed. -/
theorem Consistent.findEvents_deleteEvents (hc : h.Consistent) (handles : EventSet) (name : String)
    (op : Comparison) (probe : Value) :
    (h.deleteEvents handles).2.findEvents name op probe =
      (h.findEvents name op probe).filter (!EventSet.has handles ·) := by
  induction handles generalizing h with
  | nil => exact (List.filter_eq_self.2 fun _ _ => rfl).symm
  | cons handle rest ih =>
      simp only [Holder.deleteEvents]
      cases hstored : h.stored? handle with
      | some e =>
          have he := stored?_eq_some hstored
          rw [← EventSet.filter_remove _ rest (id_of_stored? hstored),
            ← hc.findEvents_removeStored he]
          exact ih (hc.removeStored he)
      | none =>
          refine (ih hc).trans (List.filter_congr fun x hx => ?_)
          have hne := stored?_eq_none hstored x (hc.findEvents_subset hx)
          simp [EventSet.has_cons, Ne.symm hne]

end Holder

end EventQuery
