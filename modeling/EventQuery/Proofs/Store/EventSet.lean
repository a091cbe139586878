import EventQuery.Store.EventSet
import Mathlib.Data.List.Nodup

/-!
Sets of stored events. As long as numbers identify the stored events, the set operations, which
compare numbers, are those of mathematics, and sets drawn from a store stay so.
-/

namespace EventQuery.EventSet

/-- No two events have one number. -/
def Identified (stored : EventSet) : Prop := ∀ a ∈ stored, ∀ b ∈ stored, a.id = b.id → a = b

/-- A set without repetition whose events are all stored. -/
structure DrawnFrom (stored s : EventSet) : Prop where
  nodup : s.Nodup
  subset : ∀ e ∈ s, e ∈ stored

variable {stored s t : EventSet} {e : StoredEvent}

theorem has_iff (hid : Identified stored) (ht : DrawnFrom stored t) (he : e ∈ stored) :
    has t e = true ↔ e ∈ t := by
  simp only [has, List.any_eq_true, decide_eq_true_eq]
  constructor
  · rintro ⟨x, hx, heq⟩
    rwa [← hid x (ht.subset x hx) e he heq]
  · intro hmem
    exact ⟨e, hmem, rfl⟩

theorem mem_remove {x : StoredEvent} : x ∈ remove s e ↔ x ∈ s ∧ x.id ≠ e.id := by simp [remove]

theorem mem_intersect (hid : Identified stored) (hs : DrawnFrom stored s)
    (ht : DrawnFrom stored t) :
    e ∈ intersect s t ↔ e ∈ s ∧ e ∈ t := by
  unfold intersect
  split
  · rw [List.mem_filter]
    exact and_congr_right fun hmem => has_iff hid ht (hs.subset e hmem)
  · rw [List.mem_filter, and_comm]
    exact and_congr_left fun hmem => has_iff hid hs (ht.subset e hmem)

theorem mem_union (hid : Identified stored) (hs : DrawnFrom stored s) (ht : DrawnFrom stored t) :
    e ∈ union s t ↔ e ∈ s ∨ e ∈ t := by
  simp only [union, List.mem_append, List.mem_filter, Bool.not_eq_true']
  constructor
  · rintro (hmem | ⟨hmem, -⟩)
    · exact .inl hmem
    · exact .inr hmem
  · rintro (hmem | hmem)
    · exact .inl hmem
    · by_cases h : e ∈ s
      · exact .inl h
      · refine .inr ⟨hmem, Bool.eq_false_iff.2 fun hhas => h ?_⟩
        exact (has_iff hid hs (ht.subset e hmem)).1 hhas

theorem mem_difference (hid : Identified stored) (hs : DrawnFrom stored s)
    (ht : DrawnFrom stored t) :
    e ∈ difference s t ↔ e ∈ s ∧ e ∉ t := by
  simp only [difference, List.mem_filter, Bool.not_eq_true']
  refine and_congr_right fun hmem => ?_
  rw [← has_iff hid ht (hs.subset e hmem), Bool.not_eq_true]

theorem DrawnFrom.empty (stored : EventSet) : DrawnFrom stored [] := ⟨List.nodup_nil, by simp⟩

theorem DrawnFrom.filter (h : DrawnFrom stored s) (p : StoredEvent → Bool) :
    DrawnFrom stored (s.filter p) :=
  ⟨h.nodup.filter p, fun e he => h.subset e ((List.mem_filter.1 he).1)⟩

theorem DrawnFrom.intersect (hs : DrawnFrom stored s) (ht : DrawnFrom stored t) :
    DrawnFrom stored (intersect s t) := by
  unfold EventSet.intersect
  split
  · exact hs.filter _
  · exact ht.filter _

theorem DrawnFrom.union (hid : Identified stored) (hs : DrawnFrom stored s)
    (ht : DrawnFrom stored t) :
    DrawnFrom stored (union s t) := by
  refine ⟨?_, fun e he => ?_⟩
  · refine List.nodup_append.2 ⟨hs.nodup, ht.nodup.filter _, ?_⟩
    rintro a ha b hb rfl
    obtain ⟨hb, hnew⟩ := List.mem_filter.1 hb
    simp [(has_iff hid hs (ht.subset a hb)).2 ha] at hnew
  · rcases (mem_union hid hs ht).1 he with he | he
    · exact hs.subset e he
    · exact ht.subset e he

/-- A set drawn from a store has no number twice. -/
theorem DrawnFrom.nodup_ids (hid : Identified stored) (h : DrawnFrom stored s) :
    (s.map (·.id)).Nodup :=
  h.nodup.map_on fun a ha b hb heq => hid a (h.subset a ha) b (h.subset b hb) heq

end EventQuery.EventSet
